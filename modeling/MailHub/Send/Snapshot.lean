import MailHub.Compose.Service

/-!
# Queueing sends

`queueSend` validates one request, freezes the draft into an immutable snapshot, composes the exact
MIME bytes, stores them durably, and commits the snapshot with its draft lock. A repeated
idempotency key answers from the stored row.
-/

namespace MailHub

open Relational Interleaving

/-! ## Constants -/

/-- Longest idempotency key accepted. -/
def maxIdempotencyKeyLength : ℕ := 200

/-- A send rejection of a malformed request. -/
def invalidSend (message : String) : Failure := .send .invalidRequest message none

/-! ## Records -/

/-- One outbound snapshot as reported. -/
structure OutboundRecord where
  id : Uuid
  draftId : Option Uuid
  accountId : Uuid
  status : OutboundStatus
  sentCopyStatus : SentCopyStatus
  identity : EmailAddress
  recipients : Recipients
  subject : Option String
  rfcMessageId : String
  recipientResults : List RecipientResult
  smtpResponse : Option SmtpResponse
  lastError : Option StoredError
  createdAt : Time
  sentAt : Option Time
  deriving DecidableEq, Repr

def toOutboundRecord (row : OutboundMessage) : OutboundRecord :=
  ⟨row.id, row.draftId, row.accountId, row.status, row.sentCopyStatus, row.identity,
    row.recipients, row.subject, row.rfcMessageId, row.recipientResults, row.smtpResponse,
    row.lastError, row.createdAt, row.sentAt⟩

/-- One queued-send request as a client submits it. -/
structure QueueSendInput where
  draftId : Uuid
  idempotencyKey : String
  /-- The draft revision the sender based this request on. -/
  baseRevision : ℕ

/-- What `queueSend` returns: the snapshot, and whether this call created it. -/
structure QueueSendResult where
  created : Bool
  outbound : OutboundRecord
  deriving DecidableEq, Repr

/-- One attachment verified against durable storage. -/
structure VerifiedAttachment where
  upload : Upload
  ordinal : ℕ
  bytes : Bytes

/-! ## The request and its hash -/

/-- The envelope recipients of one draft: visible and blind, in list order. -/
def envelopeOf (draft : Draft) : List String :=
  (draft.recipients.«to» ++ draft.recipients.cc ++ draft.recipients.bcc).map (·.address)

/-- The uploads and positions of attachment links. -/
def linkPairs (links : List DraftUpload) : List (Uuid × ℕ) :=
  links.map fun l => (l.uploadId, l.ordinal)

/-- The request one idempotency key commits to, as JSON text. -/
def requestText (draftId : Uuid) (baseRevision : ℕ) (attachments : List (Uuid × ℕ)) : String :=
  "\x7b\"draftId\":\"" ++ toString draftId ++ "\",\"baseRevision\":" ++ toString baseRevision ++
    ",\"attachments\":[" ++
    ",".intercalate (attachments.map fun a => s!"[\"{a.1}\",{a.2}]") ++ "]\x7d"

/-- The hash of the draft, the revision and the attachment set of one request. -/
def hashRequest (libs : Libraries) (draftId : Uuid) (baseRevision : ℕ)
    (attachments : List (Uuid × ℕ)) : String :=
  libs.sha256Hex (utf8 (requestText draftId baseRevision attachments))

/-- The row of one idempotency key. -/
def findByIdempotencyKey (idempotencyKey : String) (db : Database) : Option OutboundMessage :=
  db.outboundMessages.rows.find? fun row => row.idempotencyKey == idempotencyKey

def idempotencyConflict : Failure :=
  .send .idempotencyConflict "This idempotency key belongs to a different send request." none

/-- The shared idempotency answer: replay the snapshot, or conflict. -/
def existingSnapshot (row : OutboundMessage) (requestHash : String) :
    Except Failure OutboundRecord :=
  if row.requestHash ≠ requestHash then .error idempotencyConflict
  else .ok (toOutboundRecord row)

/-! ## Freezing one draft -/

def sendDraftNotFound : Failure := .send .notFound "No draft exists with this identifier." none

/-- The rejection of a request based on another revision than the server holds. -/
def sendDraftStale (revision : ℕ) : Failure :=
  .send .draftStale s!"This draft changed elsewhere; the server holds revision {revision}."
    (some revision)

def sendDraftLocked : Failure :=
  .send .draftLocked "This draft is already locked by a queued send." none

/-- Load the draft a send freezes, without locking it yet. -/
def loadEditableDraft (draftId : Uuid) (db : Database) : Except Failure Draft :=
  match db.drafts.find? draftId with
  | some row => if row.deletedAt = none then .ok row else .error sendDraftNotFound
  | none => .error sendDraftNotFound

/-- The links of a draft to uploads of one account, in ordinal order. -/
def attachmentRows (accountId draftId : Uuid) (db : Database) : List (Upload × ℕ) :=
  (draftLinks draftId db).filterMap fun l =>
    (db.uploads.find? l.uploadId).bind fun upload =>
      if upload.accountId = accountId then some (upload, l.ordinal) else none

/-- Verify every linked upload against its recorded size and hash. -/
def verifyAttachments : List (Upload × ℕ) → MailProgram (List VerifiedAttachment)
  | [] => pure []
  | (upload, ordinal) :: rows => do
      let stat ← MailProgram.storageStat upload.storageKey
      if stat ≠ some upload.sizeBytes then
        throw (Failure.send .uploadUnverified (s!"The file {upload.filename} is missing from " ++
            "durable storage; the send was not queued.") none)
      let verified ← MailProgram.storageVerify upload.storageKey upload.sha256
      if verified = false then
        throw (Failure.send .uploadUnverified (s!"The file {upload.filename} no longer matches " ++
            "its recorded hash; the send was not queued.") none)
      let bytes ← MailProgram.storageGet upload.storageKey
      let rest ← verifyAttachments rows
      return ⟨upload, ordinal, bytes⟩ :: rest

/-- One `<random@domain>` identifier, generated once per snapshot. -/
def rfcMessageIdOf (identityAddress : String) (id : Uuid) : String :=
  let domain := ((split '@' identityAddress)[1]?).getD "localhost"
  s!"<{id}@{domain}>"

/-- Verify the composed bytes before they are stored. -/
def verifyComposedMessage (libs : Libraries) (bytes : Bytes) (rfcMessageId : String)
    (attachments : ℕ) : Except Failure Unit := do
  let parsed ← libs.parseMime bytes
  if parsed.messageId ≠ some rfcMessageId then
    throw (invalidSend "The composed message lost its generated identifier.")
  if parsed.attachments.length ≠ attachments then
    throw (invalidSend "The composed message did not carry every attachment.")

/-- Whether the live upload links still name the frozen attachment set, position for position. -/
def matchesFrozenAttachments (links : List DraftUpload) (frozen : List VerifiedAttachment) : Bool :=
  linkPairs links == frozen.map fun a => (a.upload.id, a.ordinal)

/-- Insert one outbound row; idempotency keys and generated identifiers are unique. -/
def insertOutbound (row : OutboundMessage) : Tx Unit := do
  let db ← get
  if db.outboundMessages.rows.any fun o => o.idempotencyKey == row.idempotencyKey then
    throw (.uniqueViolation "outbound_messages_idempotency_key_unique")
  if db.outboundMessages.rows.any fun o => o.rfcMessageId == row.rfcMessageId then
    throw (.uniqueViolation "outbound_messages_rfc_message_id_unique")
  let outboundMessages ← Tx.inserted "outbound_messages_pkey" db.outboundMessages row
  modify fun db => { db with outboundMessages }

/-- Insert the frozen links of a snapshot. -/
def insertOutboundUploads (outboundId : Uuid) : List VerifiedAttachment → Tx Unit
  | [] => pure ()
  | attachment :: rest => do
      let link : OutboundUpload := ⟨outboundId, attachment.upload.id, attachment.ordinal⟩
      if (← get).outboundUploads.rows.any fun l =>
          l.outboundId == outboundId && l.ordinal == attachment.ordinal then
        throw (.uniqueViolation "outbound_uploads_outbound_id_ordinal_key")
      let outboundUploads ← Tx.inserted "outbound_uploads_pkey" (← get).outboundUploads link
      modify fun db => { db with outboundUploads }
      insertOutboundUploads outboundId rest

/-- The rejection of a snapshot whose attachments changed since they were read. -/
def attachmentsStale (revision : ℕ) : Failure :=
  .send .draftStale ("This draft's attachments changed while the send was being frozen; " ++
    "read the draft again and retry.") (some revision)

/-- The transaction that commits one snapshot with its draft lock. -/
def commitSnapshot (row : OutboundMessage) (draftId : Uuid) (baseRevision : ℕ)
    (attachments : List VerifiedAttachment) : Tx OutboundRecord := do
  let db ← get
  let locked ← loadEditableDraft draftId db
  if locked.revision ≠ baseRevision then
    throw (sendDraftStale locked.revision)
  if locked.lockedBySend ≠ none then
    throw sendDraftLocked
  if matchesFrozenAttachments (draftLinks draftId db) attachments = false then
    throw (attachmentsStale locked.revision)
  insertOutbound row
  insertOutboundUploads row.id attachments
  let _ ← lockDraftForSend draftId baseRevision row.id
  Tx.recordEvent .user "send.queued" "outbound_message" row.id
  return toOutboundRecord row

/-- Compose and durably store one snapshot of a draft, then commit it with its draft lock. -/
def freezeDraft (d : Deployment) (input : QueueSendInput) (generation : Uuid) (draft : Draft) :
    MailProgram OutboundRecord := do
  if draft.revision ≠ input.baseRevision then
    throw (sendDraftStale draft.revision)
  if draft.lockedBySend ≠ none then
    throw sendDraftLocked
  let envelope := envelopeOf draft
  if envelope = [] then
    throw (Failure.send .recipientsRequired "A send needs at least one recipient." none)
  let rows ← MailProgram.query (attachmentRows draft.accountId draft.id)
  let attachments ← verifyAttachments rows
  let attachmentBytes := (attachments.map (·.upload.sizeBytes)).sum
  if attachmentsTotalMaxBytes < attachmentBytes then
    throw (invalidSend (s!"The attachments of this draft hold {attachmentBytes} bytes in total, " ++
        s!"above the {attachmentsTotalMaxBytes}-byte ceiling one message may carry; remove files " ++
        "before sending."))
  let html := d.libs.renderMarkdownHtml draft.markdown
  let rfcId ← MailProgram.generateId
  let rfcMessageId := rfcMessageIdOf draft.identity.address rfcId
  let date ← MailProgram.now
  let bytes ← MailProgram.lift (d.libs.composeOutboundMime
    { identity := draft.identity, «to» := draft.recipients.«to», cc := draft.recipients.cc,
      subject := draft.subject, markdown := draft.markdown, html, rfcMessageId, date,
      inReplyTo := draft.inReplyTo, referenceIds := draft.referenceIds,
      attachments := attachments.map fun a => ⟨a.upload.filename, a.upload.contentType, a.bytes⟩ })
  if maxMessageBytes < bytes.length then
    throw (invalidSend (s!"The composed message is {bytes.length} bytes, above the " ++
        s!"{maxMessageBytes}-byte ceiling this deployment sends; remove files before sending."))
  MailProgram.lift (verifyComposedMessage d.libs bytes rfcMessageId attachments.length)
  let outboundId ← MailProgram.generateId
  let requestHash := hashRequest d.libs input.draftId input.baseRevision
    (attachments.map fun a => (a.upload.id, a.ordinal))
  let storageKey := outboundMimeKey outboundId
  let mimeSha256 := d.libs.sha256Hex bytes
  let stored ← MailProgram.storagePut storageKey bytes
  if stored.sha256 ≠ mimeSha256 ∨ stored.sizeBytes ≠ bytes.length then
    throw (Failure.send .uploadUnverified ("The stored MIME bytes did not match their computed " ++
        "hash or size; the send was not queued.") none)
  let createdAt ← MailProgram.now
  MailProgram.transact (commitSnapshot
    { id := outboundId, accountId := draft.accountId, recoveryGeneration := generation,
      idempotencyKey := input.idempotencyKey, requestHash, draftId := some draft.id,
      draftRevision := draft.revision, identity := draft.identity,
      envelopeSender := draft.identity.address, envelopeRecipients := envelope,
      threadId := draft.threadId, replyParentId := draft.replyParentId,
      inReplyTo := draft.inReplyTo, referenceIds := draft.referenceIds,
      recipients := draft.recipients, subject := draft.subject,
      markdownSource := draft.markdown, html := some html, rfcMessageId,
      mimeStorageKey := storageKey, mimeSha256, createdAt, status := .queued }
    draft.id input.baseRevision attachments)

/-- Freeze the draft that a request names. -/
def freezeSnapshot (d : Deployment) (input : QueueSendInput) (generation : Uuid) :
    MailProgram OutboundRecord := do
  let draft ← MailProgram.query (loadEditableDraft input.draftId)
  let draft ← MailProgram.lift draft
  freezeDraft d input generation draft

/-- Queue one send. -/
def queueSend (d : Deployment) (requestGeneration : Option Uuid) (input : QueueSendInput) :
    MailProgram QueueSendResult := do
  -- The generation check precedes the idempotency lookup.
  let generation ← d.gate requestGeneration
  if textLength input.idempotencyKey = 0 ∨
      maxIdempotencyKeyLength < textLength input.idempotencyKey then
    throw (invalidSend
      s!"The idempotency key must hold 1 to {maxIdempotencyKeyLength} characters.")
  if input.baseRevision < 1 ∨ maxSafeInteger < input.baseRevision then
    throw (invalidSend "The base revision must be a positive integer.")
  let links ← MailProgram.query (draftLinks input.draftId)
  let requestHash := hashRequest d.libs input.draftId input.baseRevision (linkPairs links)
  let existing ← MailProgram.query (findByIdempotencyKey input.idempotencyKey)
  match existing with
  | some row =>
      let outbound ← MailProgram.lift (existingSnapshot row requestHash)
      return ⟨false, outbound⟩
  | none =>
      tryCatch
        (do
          let outbound ← freezeSnapshot d input generation
          return ⟨true, outbound⟩)
        fun cause => do
          -- A concurrent request with this key may have created the snapshot first.
          if cause.isUniqueViolation ∨ cause.isLostLockRace then
            let raced ← MailProgram.query (findByIdempotencyKey input.idempotencyKey)
            match raced with
            | some row =>
                let outbound ← MailProgram.lift (existingSnapshot row requestHash)
                return ⟨false, outbound⟩
            | none => throw cause
          else throw cause

end MailHub
