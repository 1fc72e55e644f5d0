import MailHub.Ingestion.Service

/-!
# Fetching bodies

One pending body is fetched through an open session: the generation is checked before a byte is
read and once more before the staged original is applied. An original above the maximum size and an
original that cannot be parsed stop being jobs.
-/

namespace MailHub

open Relational Interleaving

open IngestProgram (query transact)

/-! ## Targets -/

/-- One body job. -/
structure PendingBody where
  messageId : Uuid
  folderId : Uuid
  uid : ℕ
  uidvalidity : ℕ
  deriving DecidableEq, Repr

/-- The occurrence of a job, its folder and its logical message. -/
structure BodyTarget where
  folder : Folder
  occurrence : MessageOccurrence
  message : Message
  deriving DecidableEq, Repr

/-- The target of a job, verified to belong together. -/
def findTarget (accountId : Uuid) (pending : PendingBody) (db : Database) : Option BodyTarget := do
  let occurrence ← db.messageOccurrences.rows.find? fun o =>
    o.accountId == accountId && o.messageId == pending.messageId &&
      o.folderId == pending.folderId && o.uid == pending.uid &&
      o.uidvalidity == pending.uidvalidity && o.isActive
  let folder ← db.folders.find? occurrence.folderId
  let message ← db.messages.find? occurrence.messageId
  return ⟨folder, occurrence, message⟩

/-- Load the target of a job. -/
def loadTarget (accountId : Uuid) (pending : PendingBody) : IngestProgram BodyTarget := do
  match ← query (findTarget accountId pending) with
  | some target => return target
  | none => throw (.sync .notFound "No active occurrence of that message exists for fetching.")

/-! ## Outcomes -/

/-- How one fetch ended. -/
inductive BodyFetchOutcome
  | alreadyFetched (messageId : Uuid)
  | generationChanged (messageId : Uuid) (recorded observed : ℕ)
  | missing (messageId : Uuid)
  | skippedOversized (messageId : Uuid) (sizeBytes : ℕ)
  | failed (messageId : Uuid)
  | fetched (messageId survivorId : Uuid) (removedMessageId : Option Uuid) (sha256 : String)
  deriving DecidableEq, Repr

/-- Write columns of one message of an account and record an event about it. -/
def noteBody (accountId messageId : Uuid) (event : String) (f : Message → Message)
    (hf : ∀ m, (f m).id = m.id) : Tx Unit := do
  modify fun db =>
    { db with
      messages := db.messages.update (fun m => m.id == messageId && m.accountId == accountId) f hf }
  Tx.recordEvent .system event "message" messageId

/-- Record one size-policy skip: the observed size moves onto the message row. -/
def skipOversized (accountId messageId : Uuid) (sizeBytes : ℕ) : IngestProgram Unit :=
  transact (noteBody accountId messageId "message.body_skipped"
    (fun m => { m with sizeBytes := some sizeBytes }) fun _ => rfl)

/-- Record one bounded body failure: the row stops being a body job. -/
def markBodyFailed (accountId messageId : Uuid) : IngestProgram Unit := do
  let now ← IngestProgram.now
  transact (noteBody accountId messageId "message.body_failed"
    (fun m => { m with bodyFailedAt := some now }) fun _ => rfl)

/-! ## Fetching -/

/-- Confirm the generation and apply one staged original. -/
def applyFetched (s : IngestionService) (accountId : Uuid) (pending : PendingBody)
    (target : BodyTarget) (staged : StagedOriginal) : IngestProgram BodyFetchOutcome := do
  let recheck ← IngestProgram.revalidate
  if recheck.uidValidity ≠ target.occurrence.uidvalidity then
    -- the staged object stays unreferenced; the next fetch of this job stages again
    return .generationChanged pending.messageId target.occurrence.uidvalidity recheck.uidValidity
  match ← (s.applyStagedOriginal accountId target.message.id staged).attempt with
  | .ok result =>
      return .fetched pending.messageId result.messageId result.removedMessageId result.sha256
  | .error (.ingestion .parseFailed _ _) =>
      -- the stored bytes parse the same way every time
      markBodyFailed accountId target.message.id
      return .failed pending.messageId
  | .error cause => throw cause

/-- Stop a download that is above the maximum size. -/
def skipDownload (accountId : Uuid) (pending : PendingBody) (messageId : Uuid) (sizeBytes : ℕ) :
    IngestProgram BodyFetchOutcome := do
  IngestProgram.discard
  skipOversized accountId messageId sizeBytes
  return .skippedOversized pending.messageId sizeBytes

/-- Fetch and ingest one pending body through an open session. -/
def fetchBody (s : IngestionService) (accountId : Uuid) (pending : PendingBody) :
    IngestProgram BodyFetchOutcome := do
  let target ← loadTarget accountId pending
  if target.message.fetchedBody then
    return .alreadyFetched pending.messageId
  let mailbox ← IngestProgram.select target.folder.name
  if mailbox.uidValidity ≠ target.occurrence.uidvalidity then
    return .generationChanged pending.messageId target.occurrence.uidvalidity mailbox.uidValidity
  match ← IngestProgram.streamOriginal target.occurrence.uid with
  -- expunged on the server: the row stays pending
  | none => return .missing pending.messageId
  | some download =>
      match download.expectedSize.filter (maxMessageBytes < ·) with
      | some size => skipDownload accountId pending target.message.id size
      | none =>
          match ← (s.stageOriginal target.message.id download.chunks
              download.expectedSize).attempt with
          | .ok staged => applyFetched s accountId pending target staged
          -- the stream itself crossed the bound
          | .error (.ingestion .messageTooLarge _ sizeBytes) =>
              skipDownload accountId pending target.message.id
                (sizeBytes.getD (maxMessageBytes + 1))
          | .error cause => throw cause

end MailHub
