import MailHub.Ingestion.ThreadJobs
import MailHub.Send.Snapshot

/-!
# Executing sends

The claim is the only door to SMTP: `sending` persists before the transport opens, and a row that
already left `queued` is never submitted again. A positive final response commits `sent` with the
local message; a definitive refusal commits `failed` and releases the draft; anything else commits
`outcomeUnknown` and keeps the lock.
-/

namespace MailHub

open Relational Interleaving

/-! ## Constants -/

/-- Outbound rows one sweep claims per pass. -/
def defaultSendSweepLimit : ℕ := 10

/-- How long one claimed attempt stays with its worker before recovery may hold it. -/
def attemptLeaseMs : ℕ := 10 * 60000

/-- Append attempts and reconcile passes one row gets before the sweeps set it aside. -/
def sendSweepAttemptCap : ℕ := 20

/-! ## Rows -/

/-- The send services of one process, with the ports it was given. -/
structure OutboundService extends Deployment where
  /-- Whether the process has an SMTP submitter and a credentials resolver. -/
  canSubmit : Bool
  /-- Whether the process has a Sent-copy session factory. -/
  canStoreSentCopy : Bool

def sendOutboundNotFound : Failure :=
  .send .notFound "No outbound message exists with this identifier." none

/-- Read one outbound row. -/
def loadOutbound (outboundId : Uuid) : MailProgram OutboundMessage := do
  let row ← MailProgram.query fun db => db.outboundMessages.find? outboundId
  match row with
  | some row => return row
  | none => throw sendOutboundNotFound

/-- Whether one row carries an identifier and one of the given statuses. -/
def inStatus (outboundId : Uuid) (status : OutboundStatus) (row : OutboundMessage) : Bool :=
  row.id == outboundId && row.status == status

/-- A rewriting of the execution record of a row; what the row froze stays. -/
structure RowUpdate where
  /-- The row afterwards. -/
  apply : OutboundMessage → OutboundMessage
  /-- The frozen part is the same. -/
  snapshot : ∀ r, (apply r).toOutboundSnapshot = r.toOutboundSnapshot

/-- The database after the rows that a condition selects are rewritten. -/
def Database.updateRows (db : Database) (p : OutboundMessage → Bool) (f : RowUpdate) : Database :=
  { db with outboundMessages := db.outboundMessages.update p f.apply fun r =>
      congrArg OutboundSnapshot.id (f.snapshot r) }

/-- Update the rows that a condition selects and return them as they are afterwards. -/
def updateOutbound (p : OutboundMessage → Bool) (f : RowUpdate) : Tx (List OutboundMessage) := do
  let selected := (← get).outboundMessages.select p
  modify fun db => db.updateRows p f
  return selected.map f.apply

/-- Record one send audit event. -/
def recordSendEvent (type : String) (outboundId : Uuid) : Tx Unit :=
  Tx.recordEvent .system type "outbound_message" outboundId

/-- Whether the process may run a job of a given generation now. -/
def mayRun (status : ControlStatus) (generation : Uuid) : Bool :=
  assessJob status generation == .execute

/-! ## Reports -/

/-- Recipient-level results for every envelope address, in envelope order. -/
def recipientResultsOf (envelope : List String) (report : SmtpSubmitReport) :
    List RecipientResult :=
  if report.recipients = [] then
    -- One positive final response covers the whole envelope.
    let acceptedAll := report.state == .accepted
    envelope.map fun address => ⟨address, acceptedAll, if acceptedAll then report.response else none⟩
  else envelope.map fun address =>
    -- The report is read through a map, so the last entry of an address counts.
    match report.recipients.reverse.find? fun entry => entry.address == address with
    | some entry => ⟨address, entry.accepted, entry.response⟩
    | none => ⟨address, false, none⟩

/-- The final SMTP response, without credentials. -/
def smtpResponseOf (report : SmtpSubmitReport) : Option SmtpResponse :=
  if report.response = none ∧ report.responseCode = none then none
  else some ⟨report.response, report.responseCode⟩

/-- Recipient results once a verified Sent copy proved the submission was accepted. -/
def reconciledRecipientResults (row : OutboundMessage) : List RecipientResult :=
  row.envelopeRecipients.map fun address =>
    match row.recipientResults.reverse.find? fun result => result.address == address with
    | some prior =>
        if prior.response ≠ none then ⟨address, prior.accepted, prior.response⟩
        else ⟨address, true, none⟩
    | none => ⟨address, true, none⟩

/-- The first line of one failure. -/
def firstLine (cause : Failure) : String := (split '\n' cause.message).headD ""

/-- The text of one failure up to its first colon and blank. -/
def beforeColon (cause : Failure) : String :=
  let rec go : List Char → List Char
    | ':' :: ' ' :: _ => []
    | c :: cs => c :: go cs
    | [] => []
  String.ofList (go cause.message.toList)

/-! ## Outcomes -/

/-- What one definitive failure records. -/
structure FailureOutcome where
  smtpResponse : Option SmtpResponse
  recipientResults : List RecipientResult
  error : Option StoredError

/-- The transaction of one definitive failure: `failed`, and the draft lock released. -/
def commitFailure (row : OutboundMessage) (outcome : FailureOutcome) : Tx OutboundMessage := do
  let updated ← updateOutbound (inStatus row.id .sending)
    ⟨fun r => { r with status := .failed, smtpResponse := outcome.smtpResponse,
                       recipientResults := outcome.recipientResults, lastError := outcome.error },
      fun _ => rfl⟩
  let _ ← unlockDraftAfterFailure row.id
  recordSendEvent "send.failed" row.id
  return updated.headD row

/-- One definitive failure. -/
def recordFailure (row : OutboundMessage) (outcome : FailureOutcome) :
    MailProgram OutboundMessage :=
  MailProgram.transact (commitFailure row outcome)

/-- The transaction of one unclassifiable outcome: `outcomeUnknown`, and the draft still locked. -/
def commitUnknown (row : OutboundMessage) (report : SmtpSubmitReport) : Tx OutboundMessage := do
  let updated ← updateOutbound (inStatus row.id .sending)
    ⟨fun r => { r with status := .outcomeUnknown, smtpResponse := smtpResponseOf report,
                       recipientResults := recipientResultsOf row.envelopeRecipients report,
                       lastError := report.error },
      fun _ => rfl⟩
  recordSendEvent "send.outcome_unknown" row.id
  return updated.headD row

/-- One unclassifiable outcome. -/
def recordUnknown (row : OutboundMessage) (report : SmtpSubmitReport) :
    MailProgram OutboundMessage :=
  Program.transaction (S := mailSignature) (some (.recordUnknown row.id))
    (commitUnknown row report)

/-! ## Acceptance -/

/-- One Sent-copy destination as the server reported it. -/
structure SentCopyDestination where
  folderId : Uuid
  uidvalidity : Option ℕ
  uid : Option ℕ
  deriving DecidableEq, Repr

/-- What proved one acceptance and what it records. -/
structure AcceptanceInput where
  /-- The status the row must still hold when the transaction runs. -/
  fromStatus : OutboundStatus
  /-- The accepted bytes: submitted or, on reconciliation, the verified copy. -/
  bytes : Bytes
  smtpResponse : Option SmtpResponse
  recipientResults : List RecipientResult
  /-- A Sent copy that verification already settled. -/
  sentCopy : Option SentCopyDestination

/-- Descending order of the send times; a missing one comes first. -/
def sentNotBefore (a b : Message) : Bool :=
  a.sentAt.isNone || (b.sentAt.isSome && b.sentAt.getD 0 ≤ a.sentAt.getD 0)

/-- The message of one account with one original hash, the latest sent first. -/
def findMessageByHash (accountId : Uuid) (sha256 : String) (db : Database) : Option Message :=
  ((db.messages.select fun m => m.accountId == accountId && m.originalSha256 == some sha256)
    |>.insertionSort fun a b => sentNotBefore a b).head?

/-- Insert the attachment rows of one message. -/
def insertAttachments (messageId : Uuid) : List LocatedPart → Tx Unit
  | [] => pure ()
  | part :: parts => do
      let attachments ← Tx.inserted "attachments_message_id_part_path_key" (← get).attachments
        ⟨messageId, part.partPath, locatorVersion, part.decodedSha256, part.contentId,
          part.disposition, part.filename, some part.contentType, part.sizeBytes⟩
      modify fun db => { db with attachments }
      insertAttachments messageId parts

/-- Insert one message row; one account holds each original hash once. -/
def insertMessage (row : Message) : Tx Unit := do
  let db ← get
  if db.messages.rows.any fun m => m.accountId == row.accountId && row.originalSha256.isSome &&
      m.originalSha256 == row.originalSha256 then
    throw (.uniqueViolation "messages_account_id_original_sha256_uidx")
  let messages ← Tx.inserted "messages_pkey" db.messages row
  modify fun db => { db with messages }

/-- Create the local message record of one accepted send. -/
def insertLocalSentMessage (row : OutboundMessage) (parsed : ParsedMessage) (bytes : Bytes)
    (messageId : Uuid) (now : Time) : Tx Uuid := do
  insertMessage
    { id := messageId, accountId := row.accountId, messageId := some row.rfcMessageId,
      inReplyTo := row.inReplyTo, referenceIds := row.referenceIds, threadId := row.threadId,
      parentMessageId := none, threadLinkState := .pending, threadDirty := true,
      sender := some row.identity, replyTo := none, recipients := some row.recipients,
      subject := row.subject, sentAt := some (parsed.sentAt.getD now), ingestedAt := now * 1000,
      hasAttachments := !parsed.attachments.isEmpty, sizeBytes := some bytes.length,
      fetchedBody := true, originalStorageKey := some row.mimeStorageKey,
      originalSha256 := some row.mimeSha256 }
  let bodies ← Tx.inserted "bodies_pkey" (← get).bodies
    ⟨messageId, some row.markdownSource, row.html, sanitizerVersion⟩
  modify fun db => { db with bodies }
  insertAttachments messageId parsed.attachments
  markThreadJobsDirty row.accountId ⟨[messageId], [some row.rfcMessageId]⟩
  return messageId

/-- The local message of one accepted send: the imported copy if there is one, else a new row. -/
def resolveSentMessage (row : OutboundMessage) (parsed : ParsedMessage) (bytes : Bytes)
    (freshId : Uuid) (now : Time) : Tx Uuid := do
  match findMessageByHash row.accountId row.mimeSha256 (← get) with
  | some existing => return existing.id
  | none => insertLocalSentMessage row parsed bytes freshId now

/-- An outbound row names a logical message that no other row names. -/
def requireUnnamedMessage (outboundId messageId : Uuid) : Tx Unit := do
  if (← get).outboundMessages.rows.any fun o =>
      o.id != outboundId && o.logicalMessageId == some messageId then
    throw (.uniqueViolation "outbound_messages_logical_message_id_unique")

/-- The columns that an acceptance writes. -/
def acceptedRow (input : AcceptanceInput) (messageId : Uuid) (now : Time) (r : OutboundMessage) :
    OutboundMessage :=
  let base : OutboundMessage :=
    { r with status := .sent, logicalMessageId := some messageId,
             smtpResponse := input.smtpResponse, recipientResults := input.recipientResults,
             sentAt := some now, lastError := none }
  match input.sentCopy with
  | none => base
  | some copy =>
      { base with sentCopyStatus := .stored, sentFolderId := some copy.folderId,
                  sentUidvalidity := copy.uidvalidity, sentUid := copy.uid }

/-- An acceptance leaves the frozen part of the row alone. -/
theorem acceptedRow_snapshot (input : AcceptanceInput) (messageId : Uuid) (now : Time)
    (r : OutboundMessage) :
    (acceptedRow input messageId now r).toOutboundSnapshot = r.toOutboundSnapshot := by
  unfold acceptedRow
  split <;> rfl

/-- The transaction of one acceptance: `sent`, the local message and the lock release together. -/
def commitAccepted (row : OutboundMessage) (input : AcceptanceInput) (parsed : ParsedMessage)
    (freshId : Uuid) (now : Time) : Tx OutboundMessage := do
  let messageId ← resolveSentMessage row parsed input.bytes freshId now
  match ← updateOutbound (inStatus row.id input.fromStatus)
      ⟨acceptedRow input messageId now, acceptedRow_snapshot input messageId now⟩ with
  -- No part of the acceptance may commit without the status transition.
  | [] => throw .acceptanceSuperseded
  | accepted :: _ =>
      requireUnnamedMessage row.id messageId
      let _ ← unlockDraftAfterSend row.id
      recordSendEvent "send.sent" row.id
      return accepted

/-- One attempt at an acceptance; a row that left its status is read instead, and a unique
violation is handed on. -/
def acceptOnce (row : OutboundMessage) (input : AcceptanceInput) (parsed : ParsedMessage)
    (violated : Failure → MailProgram OutboundMessage) : MailProgram OutboundMessage := do
  let freshId ← MailProgram.generateId
  let now ← MailProgram.now
  tryCatch (MailProgram.transact (commitAccepted row input parsed freshId now))
    fun (cause : Failure) => do
      if cause = .acceptanceSuperseded then
        let current ← MailProgram.query fun db => db.outboundMessages.find? row.id
        return current.getD row
      else if cause.isUniqueViolation then violated cause
      else throw cause

/-- Commit one acceptance; a Sent import that raced it is met by one retry. -/
def commitAcceptance (s : OutboundService) (row : OutboundMessage) (input : AcceptanceInput) :
    MailProgram OutboundMessage := do
  let parsed ← MailProgram.lift (s.libs.parseMime input.bytes)
  acceptOnce row input parsed fun _ => acceptOnce row input parsed throw

/-! ## Submitting -/

/-- A failure this early is local and definitive: nothing was submitted. -/
def localFailure (code message : String) : FailureOutcome := ⟨none, [], some ⟨code, message⟩⟩

/-- The report of a transport that threw. -/
def submitterError (cause : Failure) : SmtpSubmitReport :=
  ⟨.unknown, none, none, [], some ⟨"submitter_error", beforeColon cause⟩⟩

/-- Record what the transport reported of one claimed row. -/
def recordReport (s : OutboundService) (row : OutboundMessage) (bytes : Bytes)
    (report : SmtpSubmitReport) : MailProgram OutboundMessage :=
  match report.state with
  | .accepted => commitAcceptance s row
      ⟨.sending, bytes, smtpResponseOf report, recipientResultsOf row.envelopeRecipients report,
        none⟩
  | .rejected => recordFailure row
      ⟨smtpResponseOf report, recipientResultsOf row.envelopeRecipients report, report.error⟩
  | .unknown => recordUnknown row report

/-- Submit one row whose claim this worker took. -/
def submitClaimed (s : OutboundService) (row : OutboundMessage) : MailProgram OutboundMessage := do
  match ← (MailProgram.storageGet row.mimeStorageKey).attempt with
  | .error _ =>
      recordFailure row (localFailure "mime_missing"
        "The stored MIME bytes could not be read; nothing was submitted.")
  | .ok bytes =>
      if s.libs.sha256Hex bytes ≠ row.mimeSha256 then
        recordFailure row (localFailure "mime_mismatch"
          "The stored MIME bytes no longer match their recorded hash; nothing was submitted.")
      else
        match ← (MailProgram.resolveCredentials row.accountId).attempt with
        | .error cause =>
            recordFailure row (localFailure "credentials_unavailable" (firstLine cause))
        | .ok credentials =>
            let request : SmtpSubmitRequest :=
              { toSmtpCredentials := credentials,
                envelope := ⟨row.envelopeSender, row.envelopeRecipients⟩, raw := bytes }
            let answer ← (MailProgram.submit row.id request).attempt
            let report := match answer with
              | .ok report => report
              | .error cause => submitterError cause
            recordReport s row bytes report

/-- The transaction of the claim: one writer moves the row from `queued` to `sending`. -/
def claimSend (outboundId : Uuid) (now : Time) : Tx (Option OutboundMessage) := do
  let claimed ← updateOutbound (inStatus outboundId .queued)
    ⟨fun r => { r with status := .sending, sendingStartedAt := some now }, fun _ => rfl⟩
  return claimed.head?

/-- Submit one outbound snapshot; the flag says whether this call took the claim. -/
def executeOutbound (s : OutboundService) (outboundId : Uuid) :
    MailProgram (OutboundRecord × Bool) := do
  if s.canSubmit = false then
    throw (Failure.send .sendUnavailable
      "This process cannot submit mail: no SMTP submitter is configured." none)
  let before ← loadOutbound outboundId
  if before.status ≠ .queued then
    return (toOutboundRecord before, false)
  let status ← MailProgram.query (readStatus s.generation)
  if mayRun status before.recoveryGeneration = false then
    return (toOutboundRecord before, false)
  let now ← MailProgram.now
  match ← Program.transaction (S := mailSignature) (some (.claimSend outboundId))
      (claimSend outboundId now) with
  | none =>
      let current ← loadOutbound outboundId
      return (toOutboundRecord current, false)
  | some row =>
      let updated ← submitClaimed s row
      return (toOutboundRecord updated, true)

/-! ## Sweeping the queued set -/

/-- What one sweep pass did. -/
structure SweepSummary where
  scanned : ℕ
  /-- Rows whose attempt did something. -/
  attempted : ℕ
  skippedStale : ℕ
  /-- Rows whose attempt threw. -/
  rowErrors : ℕ
  blocked : Bool
  deriving DecidableEq, Repr

/-- The oldest rows that a condition selects, with their generations. -/
def dueRows (p : OutboundMessage → Bool) (limit : ℕ) (db : Database) : List (Uuid × Uuid) :=
  (((db.outboundMessages.select p).insertionSort fun a b => a.createdAt ≤ b.createdAt).take
    limit).map fun row => (row.id, row.recoveryGeneration)

/-- One bounded pass over due rows; rows of another generation are skipped, and a row that throws
does not abort the pass. -/
def sweep (s : OutboundService) (due : Database → List (Uuid × Uuid))
    (attempt : Uuid → MailProgram Bool) : MailProgram SweepSummary := do
  let status ← MailProgram.query (readStatus s.generation)
  match status with
  | .ready _ =>
      let rows ← MailProgram.query due
      let mut summary : SweepSummary := ⟨rows.length, 0, 0, 0, false⟩
      for (id, generation) in rows do
        if assessJob status generation = .stale then
          summary := { summary with skippedStale := summary.skippedStale + 1 }
        else
          match ← (attempt id).attempt with
          | .ok true => summary := { summary with attempted := summary.attempted + 1 }
          | .ok false => pure ()
          | .error _ => summary := { summary with rowErrors := summary.rowErrors + 1 }
      return summary
  | _ => return ⟨0, 0, 0, 0, true⟩

/-- Sweep the queued set and submit what this deployment still owns. -/
def executeQueued (s : OutboundService) (limit : ℕ) : MailProgram SweepSummary :=
  sweep s (dueRows (fun row => row.status == .queued) limit) fun id => do
    let outcome ← executeOutbound s id
    return outcome.2

end MailHub
