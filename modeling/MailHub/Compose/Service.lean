import Mathlib.Data.List.Sort
import MailHub.Compose.Reply
import MailHub.Ports
import MailHub.Recovery.Status

/-!
# Draft editing and durable uploads

Every mutation passes the recovery gate before it writes. Draft updates carry their base revision;
uploads persist in durable storage before their row commits; a queued send locks its draft, and
while the lock holds every edit path rejects.
-/

namespace MailHub

open Relational Interleaving

/-- What every service of one process is built from. -/
structure Deployment where
  /-- The configured recovery generation. -/
  generation : Option Uuid
  /-- The libraries the process runs with. -/
  libs : Libraries

/-- Enforce the recovery gate for one durable client mutation. -/
def Deployment.gate (d : Deployment) (requestGeneration : Option Uuid) : MailProgram Uuid := do
  let gate ← MailProgram.query (gateMutation d.generation requestGeneration)
  MailProgram.lift gate

/-! ## Rows -/

/-- One editable draft as stored. -/
structure DraftRecord where
  id : Uuid
  accountId : Uuid
  identity : EmailAddress
  recipients : Recipients
  subject : Option String
  markdown : String
  revision : ℕ
  lockedBySend : Option Uuid
  replyParentId : Option Uuid
  threadId : Option Uuid
  inReplyTo : Option String
  referenceIds : List String
  updatedAt : Time
  deriving DecidableEq, Repr

/-- The record of a stored draft. -/
def toDraftRecord (row : Draft) : Except Failure DraftRecord := do
  let recipients ← normalizeRecipients (some row.recipients)
  return ⟨row.id, row.accountId, row.identity, recipients, row.subject, row.markdown, row.revision,
    row.lockedBySend, row.replyParentId, row.threadId, row.inReplyTo, row.referenceIds,
    row.updatedAt⟩

def draftNotFound : Failure := .compose .notFound "No draft exists with this identifier." none

def outboundNotFound : Failure :=
  .compose .notFound "No outbound message exists with this identifier." none

def draftLocked : Failure := .compose .draftLocked
  "This draft is locked by a queued send and can no longer be edited." none

/-- Lock one draft row. -/
def lockDraftRow (draftId : Uuid) : Tx Draft := do
  match (← get).drafts.find? draftId with
  | some row => return row
  | none => throw draftNotFound

/-- Lock one live draft for edit checks. Deleted and unknown drafts are gone. -/
def lockEditableDraft (draftId : Uuid) : Tx Draft := do
  let row ← lockDraftRow draftId
  if row.deletedAt ≠ none then
    throw draftNotFound
  if row.lockedBySend ≠ none then
    throw draftLocked
  return row

def requireAccount (accountId : Uuid) (db : Database) : Except Failure Account :=
  match db.accounts.find? accountId with
  | some row => .ok row
  | none => .error (.compose .notFound "No account exists with this identifier." none)

def requireUpload (uploadId : Uuid) : Tx Upload := do
  match (← get).uploads.find? uploadId with
  | some row => return row
  | none => throw (.compose .notFound "No upload exists with this identifier." none)

/-- The attachment links of one draft, in ordinal order. -/
def draftLinks (draftId : Uuid) (db : Database) : List DraftUpload :=
  (db.draftUploads.select fun l => l.draftId == draftId).insertionSort (·.ordinal ≤ ·.ordinal)

/-- The attachment links of one outbound snapshot, in ordinal order. -/
def outboundLinks (outboundId : Uuid) (db : Database) : List OutboundUpload :=
  (db.outboundUploads.select fun l => l.outboundId == outboundId).insertionSort
    (·.ordinal ≤ ·.ordinal)

/-- Insert one draft. -/
def insertDraft (row : Draft) : Tx Unit := do
  let drafts ← Tx.inserted "drafts_pkey" (← get).drafts row
  modify fun db => { db with drafts }

/-- Insert one attachment link; a draft holds each upload and each position at most once. -/
def insertDraftUpload (link : DraftUpload) : Tx Unit := do
  if (← get).draftUploads.rows.any fun l => l.draftId == link.draftId && l.ordinal == link.ordinal
  then throw (.uniqueViolation "draft_uploads_draft_id_ordinal_key")
  let draftUploads ← Tx.inserted "draft_uploads_pkey" (← get).draftUploads link
  modify fun db => { db with draftUploads }

/-- Rewrite one draft row. -/
def updateDraftRow (draftId : Uuid) (f : Draft → Draft) (hf : ∀ r, (f r).id = r.id) : Tx Unit :=
  modify fun db => { db with drafts := db.drafts.update (·.id == draftId) f hf }

/-! ## Creating drafts -/

/-- Insert one new draft with its event, and report it. -/
def commitNewDraft (row : Draft) (event : String) : Tx DraftRecord := do
  insertDraft row
  Tx.recordEvent .user event "draft" row.id
  toDraftRecord row

/-- Input for one new draft. -/
structure CreateDraftInput where
  accountId : Uuid
  /-- The From choice. Absent takes the account's default identity. -/
  identity : Option String
  recipients : Option Recipients
  subject : Option String
  markdown : Option String

/-- Create one draft. -/
def createDraft (d : Deployment) (requestGeneration : Option Uuid) (input : CreateDraftInput) :
    MailProgram DraftRecord := do
  let _ ← d.gate requestGeneration
  let account ← MailProgram.query (requireAccount input.accountId)
  let account ← MailProgram.lift account
  let identity ← MailProgram.lift (resolveIdentity account.identities input.identity)
  let recipients ← MailProgram.lift (normalizeRecipients input.recipients)
  let subject ← MailProgram.lift (normalizeSubject input.subject)
  let markdown ← MailProgram.lift (normalizeMarkdown input.markdown)
  let id ← MailProgram.generateId
  let now ← MailProgram.now
  let row : Draft :=
    { id, accountId := account.id, identity, threadId := none, replyParentId := none,
      inReplyTo := none, referenceIds := [], recipients, subject, markdown, revision := 1,
      lockedBySend := none, updatedAt := now, deletedAt := none }
  MailProgram.transact (commitNewDraft row "draft.created")

/-- Input for one reply draft. -/
structure CreateReplyDraftInput where
  /-- The selected parent message. -/
  messageId : Uuid
  /-- The holding account, required when a grouped row has copies in several accounts. -/
  accountId : Option Uuid
  mode : ReplyMode
  identity : Option String
  recipients : Option Recipients
  markdown : Option String

/-- Whether the same original bytes also exist under another account. -/
def hasGroupedCopies (row : Message) (db : Database) : Bool :=
  row.originalSha256.any fun sha =>
    db.messages.rows.any fun m => m.originalSha256 == some sha && m.accountId != row.accountId

/-- Resolve the parent one reply targets, together with its holding account. -/
def resolveReplyParent (input : CreateReplyDraftInput) (db : Database) : Except Failure Message :=
  match db.messages.find? input.messageId with
  | none => .error (.compose .notFound "No message exists with this identifier." none)
  | some selected =>
      let chosen := input.accountId.getD selected.accountId
      if chosen = selected.accountId then
        if input.accountId = none ∧ hasGroupedCopies selected db then
          .error (.compose .accountChoiceRequired ("This message has copies in several accounts; " ++
              "choose the account to reply from.") none)
        else .ok selected
      else
        let missing := invalidCompose "The chosen account does not hold a copy of this message."
        match selected.originalSha256 with
        | none => .error missing
        | some sha =>
            match db.messages.rows.find? fun m =>
              m.accountId == chosen && m.originalSha256 == some sha with
            | some copy => .ok copy
            | none => .error missing

/-- The line that marks a derived quote as trimmed. -/
def quoteMarker : String := "\n> […]"

/-- A derived quote respects the Markdown ceiling an explicit draft obeys. -/
def capDerivedQuote (markdown : String) : String :=
  if textLength markdown ≤ markdownMax then markdown
  else
    let kept := markdown.toList.take (markdownMax - textLength quoteMarker)
    let lines := splitList '\n' kept
    let whole := if lines.length ≤ 1 then kept else List.intercalate ['\n'] lines.dropLast
    String.ofList whole ++ quoteMarker

/-- The From identity of one reply: the requested one, or the one that the parent selects. -/
def replyIdentity (input : CreateReplyDraftInput) (parent : Message)
    (identities : List AccountIdentity) : Except Failure EmailAddress :=
  match input.identity with
  | some requested => resolveIdentity identities (some requested)
  | none =>
      match preselectReplyIdentity parent identities with
      | some identity => .ok identity.toEmailAddress
      | none => .error (.compose .identityChoiceRequired ("No single identity of this account " ++
          "matches the parent message; choose the From identity.") none)

/-- The recipients of one reply: the requested ones, or those that the parent derives. -/
def replyRecipients (input : CreateReplyDraftInput) (parent : Message)
    (identities : List AccountIdentity) : Except Failure Recipients :=
  match input.recipients with
  | some recipients => normalizeRecipients (some recipients)
  | none => deriveReplyRecipients parent identities input.mode

/-- The text of one reply: the requested one, or a quote of the parent. -/
def replyMarkdown (libs : Libraries) (input : CreateReplyDraftInput) (parent : Message)
    (db : Database) : Except Failure String :=
  match input.markdown with
  | some markdown => normalizeMarkdown (some markdown)
  | none =>
      let body := db.bodies.find? parent.id
      .ok (capDerivedQuote (libs.extractReplyQuote (body.bind (·.htmlSanitized))
        (body.bind (·.textPlain))))

/-- The transaction of one reply draft; the reply context freezes with the draft. -/
def commitReplyDraft (libs : Libraries) (input : CreateReplyDraftInput) (id : Uuid)
    (now : Time) : Tx DraftRecord := do
  let db ← get
  let parent ← resolveReplyParent input db
  let account ← requireAccount parent.accountId db
  let identity ← replyIdentity input parent account.identities
  let recipients ← replyRecipients input parent account.identities
  let markdown ← replyMarkdown libs input parent db
  let references := freezeReplyReferences parent
  commitNewDraft
    { id, accountId := account.id, identity, threadId := parent.threadId,
      replyParentId := some parent.id, inReplyTo := references.inReplyTo,
      referenceIds := references.referenceIds, recipients,
      subject := replySubject parent.subject, markdown, revision := 1, lockedBySend := none,
      updatedAt := now, deletedAt := none }
    "draft.reply_created"

/-- Create one reply draft from a single selected parent. -/
def createReplyDraft (d : Deployment) (requestGeneration : Option Uuid)
    (input : CreateReplyDraftInput) : MailProgram DraftRecord := do
  let _ ← d.gate requestGeneration
  let id ← MailProgram.generateId
  let now ← MailProgram.now
  MailProgram.transact (commitReplyDraft d.libs input id now)

/-! ## Editing drafts -/

/-- Editable draft fields: an absent field stays, a present `none` clears it. -/
structure UpdateDraftInput where
  /-- The revision the caller bases this edit on. -/
  baseRevision : ℕ
  identity : Option (Option String)
  recipients : Option (Option Recipients)
  subject : Option (Option String)
  markdown : Option (Option String)

/-- Whether an edit names any field. -/
def UpdateDraftInput.namesField (input : UpdateDraftInput) : Bool :=
  input.identity.isSome || input.recipients.isSome || input.subject.isSome ||
    input.markdown.isSome

/-- The largest integer that a request number may be. -/
def maxSafeInteger : ℕ := 2 ^ 53 - 1

/-- The new value of a field: the current one, unless the edit names the field. -/
def patched {α β : Type} (current : α) (input : Option β) (normalize : β → Except Failure α) :
    Except Failure α :=
  match input with
  | none => .ok current
  | some value => normalize value

/-- The transaction of one revision-aware draft edit. -/
def commitDraftUpdate (draftId : Uuid) (input : UpdateDraftInput) (now : Time) :
    Tx DraftRecord := do
  let db ← get
  let row ← lockEditableDraft draftId
  if row.revision ≠ input.baseRevision then
    throw (.compose .draftStale
      s!"This draft changed elsewhere; the server holds revision {row.revision}."
      (some row.revision))
  let identity ← patched row.identity input.identity fun requested => do
    let account ← requireAccount row.accountId db
    resolveIdentity account.identities requested
  let recipients ← patched row.recipients input.recipients normalizeRecipients
  let subject ← patched row.subject input.subject normalizeSubject
  let markdown ← patched row.markdown input.markdown normalizeMarkdown
  if input.namesField then
    let edit (r : Draft) : Draft :=
      { r with identity, recipients, subject, markdown, revision := row.revision + 1,
               updatedAt := now }
    updateDraftRow draftId edit fun _ => rfl
    Tx.recordEvent .user "draft.updated" "draft" draftId
    toDraftRecord (edit row)
  else toDraftRecord row

/-- Apply one revision-aware draft edit. -/
def updateDraft (d : Deployment) (requestGeneration : Option Uuid) (draftId : Uuid)
    (input : UpdateDraftInput) : MailProgram DraftRecord := do
  let _ ← d.gate requestGeneration
  if input.baseRevision < 1 ∨ maxSafeInteger < input.baseRevision then
    throw (invalidCompose "The base revision must be a positive integer.")
  let now ← MailProgram.now
  MailProgram.transact (commitDraftUpdate draftId input now)

/-- The transaction of one soft deletion. -/
def commitDraftDeletion (draftId : Uuid) (now : Time) : Tx Unit := do
  let _ ← lockEditableDraft draftId
  updateDraftRow draftId (fun r => { r with deletedAt := some now }) fun _ => rfl
  Tx.recordEvent .user "draft.deleted" "draft" draftId

/-- Soft-delete one draft. -/
def deleteDraft (d : Deployment) (requestGeneration : Option Uuid) (draftId : Uuid) :
    MailProgram Unit := do
  let _ ← d.gate requestGeneration
  let now ← MailProgram.now
  MailProgram.transact (commitDraftDeletion draftId now)

/-! ## Uploads and attachments -/

/-- Input for one upload. -/
structure CreateUploadInput where
  accountId : Uuid
  filename : String
  contentType : Option String
  bytes : Bytes

/-- The transaction that acknowledges one upload. -/
def commitUpload (row : Upload) : Tx Upload := do
  if (← get).uploads.rows.any fun u => u.storageKey == row.storageKey then
    throw (.uniqueViolation "uploads_storage_key_key")
  let uploads ← Tx.inserted "uploads_pkey" (← get).uploads row
  modify fun db => { db with uploads }
  Tx.recordEvent .user "upload.created" "upload" row.id
  return row

/-- Write the bytes of one upload; storage that ran full is recorded before the failure goes on. -/
def storeUpload (storageKey : String) (bytes : Bytes) (id : Uuid) : MailProgram StoredObject :=
  tryCatch (MailProgram.storagePut storageKey bytes) fun (cause : Failure) => do
    if cause.isInsufficientSpace then
      tryCatch (MailProgram.transact (Tx.recordEvent .system "storage.paused" "upload" id))
        fun _ => pure ()
    throw cause

/-- Store one upload durably, then acknowledge it. -/
def createUpload (d : Deployment) (requestGeneration : Option Uuid) (input : CreateUploadInput) :
    MailProgram Upload := do
  let _ ← d.gate requestGeneration
  let account ← MailProgram.query (requireAccount input.accountId)
  let _ ← MailProgram.lift account
  let filename ← MailProgram.lift (normalizeFilename input.filename)
  let contentType ← MailProgram.lift (normalizeContentType input.contentType)
  MailProgram.lift (validateUploadBytes input.bytes)
  let id ← MailProgram.generateId
  let storageKey := uploadKey id
  let sha256 := d.libs.sha256Hex input.bytes
  let stored ← storeUpload storageKey input.bytes id
  if stored.sha256 ≠ sha256 ∨ stored.sizeBytes ≠ input.bytes.length then
    throw (.compose .uploadUnverified ("The stored upload did not match its computed hash or size; " ++
        "the upload was not acknowledged.") none)
  let now ← MailProgram.now
  MailProgram.transact (commitUpload
    { id, accountId := input.accountId, filename, contentType, sizeBytes := input.bytes.length,
      storageKey, sha256, createdAt := now })

/-- The bytes that the attachments of one draft hold in total. -/
def attachmentBytes (draftId : Uuid) (db : Database) : ℕ :=
  ((draftLinks draftId db).filterMap fun l => db.uploads.find? l.uploadId).map (·.sizeBytes)
    |>.sum

/-- The aggregate attachment bound. -/
def requireAttachmentBudget (draftId : Uuid) (incoming : Upload) : Tx Unit := do
  if attachmentsTotalMaxBytes < attachmentBytes draftId (← get) + incoming.sizeBytes then
    throw (invalidCompose ("The attachments of one draft may hold at most " ++
        s!"{attachmentsTotalMaxBytes} bytes in total; {incoming.filename} was not attached."))

/-- The next attachment position of one draft: one past the current highest. -/
def nextOrdinal (draftId : Uuid) (db : Database) : ℕ :=
  match ((draftLinks draftId db).map (·.ordinal)).max? with
  | none => 0
  | some highest => highest + 1

/-- The transaction of one attachment: the upload and its position. -/
def commitAttachment (draftId uploadId : Uuid) : Tx (Upload × ℕ) := do
  let draft ← lockEditableDraft draftId
  let upload ← requireUpload uploadId
  if upload.accountId ≠ draft.accountId then
    throw (invalidCompose "The upload belongs to a different account than the draft.")
  match (← get).draftUploads.find? (draftId, uploadId) with
  -- The recorded row is the answer; its bytes already sit inside the budget.
  | some attached => return (upload, attached.ordinal)
  | none =>
      requireAttachmentBudget draftId upload
      let next := nextOrdinal draftId (← get)
      insertDraftUpload ⟨draftId, uploadId, next⟩
      Tx.recordEvent .user "draft.upload_attached" "draft" draftId
      return (upload, next)

/-- Attach one upload to a draft at the next position. -/
def attachUpload (d : Deployment) (requestGeneration : Option Uuid) (draftId uploadId : Uuid) :
    MailProgram (Upload × ℕ) := do
  let _ ← d.gate requestGeneration
  MailProgram.transact (commitAttachment draftId uploadId)

/-- The transaction of one detachment. -/
def commitDetachment (draftId uploadId : Uuid) : Tx Unit := do
  let _ ← lockEditableDraft draftId
  if (← get).draftUploads.find? (draftId, uploadId) = none then
    throw (.compose .notFound "The draft does not reference this upload." none)
  modify fun db => { db with
    draftUploads := db.draftUploads.delete fun l => l.draftId == draftId && l.uploadId == uploadId }
  Tx.recordEvent .user "draft.upload_detached" "draft" draftId

/-- Detach one upload from a draft. The upload row and its bytes remain. -/
def detachUpload (d : Deployment) (requestGeneration : Option Uuid) (draftId uploadId : Uuid) :
    MailProgram Unit := do
  let _ ← d.gate requestGeneration
  MailProgram.transact (commitDetachment draftId uploadId)

/-! ## Sends -/

/-- Copy the frozen links of a snapshot to a draft. -/
def copyLinks (draftId : Uuid) : List OutboundUpload → Tx Unit
  | [] => pure ()
  | link :: links => do
      insertDraftUpload ⟨draftId, link.uploadId, link.ordinal⟩
      copyLinks draftId links

/-- The rejection of a resend whose outcome is known. -/
def resendRefused : Failure :=
  invalidCompose ("Only a send whose outcome is unknown can be resent from a copy; a " ++
    "failed send unlocks its draft for editing instead.")

/-- The transaction of one deliberate resend; the snapshot, not the locked draft, is the source. -/
def commitResend (outboundId id : Uuid) (now : Time) : Tx DraftRecord := do
  match (← get).outboundMessages.find? outboundId with
  | none => throw outboundNotFound
  | some outbound =>
      if outbound.status ≠ .outcomeUnknown then
        throw resendRefused
      let links := outboundLinks outboundId (← get)
      let recipients ← normalizeRecipients (some outbound.recipients)
      let row : Draft :=
        { id, accountId := outbound.accountId, identity := outbound.identity,
          threadId := outbound.threadId, replyParentId := outbound.replyParentId,
          inReplyTo := outbound.inReplyTo, referenceIds := outbound.referenceIds, recipients,
          subject := outbound.subject, markdown := outbound.markdownSource, revision := 1,
          lockedBySend := none, updatedAt := now, deletedAt := none }
      insertDraft row
      copyLinks id links
      Tx.recordEvent .user "draft.resend_created" "draft" id
      toDraftRecord row

/-- Issue the deliberate resend of one unresolved send as a fresh, unlocked draft. -/
def createResendDraft (d : Deployment) (requestGeneration : Option Uuid) (outboundId : Uuid) :
    MailProgram DraftRecord := do
  let _ ← d.gate requestGeneration
  let id ← MailProgram.generateId
  let now ← MailProgram.now
  MailProgram.transact (commitResend outboundId id now)

/-- Lock one draft for its queued send, inside the transaction that commits the snapshot. -/
def lockDraftForSend (draftId : Uuid) (revision : ℕ) (outboundId : Uuid) : Tx DraftRecord := do
  let row ← lockDraftRow draftId
  if row.revision ≠ revision then
    throw (.compose .draftStale
      s!"The draft moved to revision {row.revision}; the send snapshot is stale."
      (some row.revision))
  if row.lockedBySend = some outboundId then
    return ← toDraftRecord row
  if row.lockedBySend ≠ none then
    throw (.compose .draftLocked "This draft is already locked by another send attempt." none)
  updateDraftRow draftId (fun r => { r with lockedBySend := some outboundId }) fun _ => rfl
  Tx.recordEvent .system "draft.locked" "draft" draftId
  toDraftRecord { row with lockedBySend := some outboundId }

/-- The rejection of a release whose send has another status. -/
def releaseRefused : Failure :=
  invalidCompose ("Only a send with a definitive outcome unlocks its draft; " ++
    "unresolved attempts stay locked.")

/-- The one lock release: only the outbound row that owns the lock drops it, and only with the
required status. -/
def releaseDraftLock (outboundId : Uuid) (requiresStatus : OutboundStatus) : Tx ℕ := do
  match (← get).outboundMessages.find? outboundId with
  | none => throw outboundNotFound
  | some row =>
      if row.status ≠ requiresStatus then
        throw releaseRefused
      let released := (← get).drafts.select fun d => d.lockedBySend == some outboundId
      modify fun db => { db with
        drafts := db.drafts.update (fun d => d.lockedBySend == some outboundId)
          (fun d => { d with lockedBySend := none }) fun _ => rfl
        events := db.events ++
          released.map fun d => ⟨.system, "draft.unlocked", "draft", d.id⟩ }
      return released.length

/-- Unlock a draft after its send definitively failed. -/
def unlockDraftAfterFailure (outboundId : Uuid) : Tx ℕ := releaseDraftLock outboundId .failed

/-- Unlock a draft its send accepted. -/
def unlockDraftAfterSend (outboundId : Uuid) : Tx ℕ := releaseDraftLock outboundId .sent

end MailHub
