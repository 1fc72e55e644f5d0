import MailHub.Ingestion.ThreadJobs
import MailHub.Ports

/-!
# Applying originals

One transaction persists a parsed original: it writes the headers, the sanitized body and the
attachment locators of its message, or merges the message into the one of the account that already
holds the same bytes. Both paths mark their thread jobs in the same transaction.
-/

namespace MailHub

open Relational

/-! ## Values -/

/-- The ingestion service of one process. -/
structure IngestionService where
  libs : Libraries
  /-- Removes active content from an HTML fragment. -/
  sanitizeHtml : String → String

/-- The durable key for the complete original MIME bytes of a message. -/
def originalMessageKey (messageId : Uuid) : String := s!"originals/{messageId}.eml"

/-- One original durably stored and hashed, not yet parsed or applied. -/
structure StagedOriginal where
  messageId : Uuid
  storageKey : String
  sha256 : String
  sizeBytes : ℕ
  deriving DecidableEq, Repr

/-- Normalized body derivatives. -/
structure DerivedBody where
  textPlain : Option String
  htmlSanitized : Option String
  deriving DecidableEq, Repr

inductive IngestResultKind
  | ingested | merged
  deriving DecidableEq, Repr

/-- Outcome of one ingestion call; `messageId` is always the surviving row. -/
structure IngestResult where
  result : IngestResultKind
  messageId : Uuid
  /-- The provisional row that merged away. -/
  removedMessageId : Option Uuid
  sha256 : String
  sizeBytes : ℕ
  attachmentCount : ℕ
  deriving DecidableEq, Repr

/-- The rejection every entry point shares for originals above the bound. -/
def tooLarge (sizeBytes : ℕ) : Failure :=
  .ingestion .messageTooLarge (s!"The message is {sizeBytes} bytes, above the " ++
    s!"{maxMessageBytes}-byte maximum this deployment parses.") (some sizeBytes)

/-- Normalized body derivatives for the body row. -/
def IngestionService.deriveBody (s : IngestionService) (parsed : ParsedMessage) : DerivedBody :=
  ⟨parsed.textPlain, parsed.html.map s.sanitizeHtml⟩

/-! ## Statements -/

/-- Read one logical message row and confirm it belongs to the account. -/
def lockMessage (accountId messageId : Uuid) : Tx Message := do
  match ((← get).messages.find? messageId).filter (·.accountId == accountId) with
  | some row => return row
  | none => throw (.ingestion .notFound
      "No message of this account exists with that identifier." none)

/-- A locked message row leaves the database as it was. -/
theorem lockMessage_run {accountId messageId : Uuid} {row : Message} {db db' : Database}
    (h : (lockMessage accountId messageId).run db = .ok (row, db')) : db' = db := by
  unfold lockMessage at h
  cases hrow : (db.messages.find? messageId).filter (·.accountId == accountId) with
  | none => simp [hrow] at h
  | some found =>
      obtain ⟨-, rfl⟩ : found = row ∧ db = db' := by simpa [hrow] using h
      rfl

/-- Another message of the account that holds the same original. -/
def findDuplicate (accountId messageId : Uuid) (sha256 : String) (db : Database) :
    Option Message :=
  db.messages.rows.find? fun m =>
    m.accountId == accountId && m.originalSha256 == some sha256 && m.id != messageId

/-- Insert or refresh the part rows of a message and remove the ones that the parse no longer
reports. -/
def upsertAttachments (messageId : Uuid) (parts : List LocatedPart)
    (attachments : Table Attachment) : Table Attachment :=
  let refreshed := parts.foldl (fun t part =>
    t.put ⟨messageId, part.partPath, locatorVersion, part.decodedSha256, part.contentId,
      part.disposition, part.filename, some part.contentType, part.sizeBytes⟩) attachments
  refreshed.delete fun a => a.messageId == messageId && a.partPath ∉ parts.map (·.partPath)

/-- The message row with the parsed content and the locator of its original. -/
def ingestedRow (parsed : ParsedMessage) (storageKey sha256 : String) (sizeBytes : ℕ)
    (m : Message) : Message :=
  { m with
    messageId := parsed.messageId, inReplyTo := parsed.inReplyTo,
    referenceIds := parsed.referenceIds, sender := parsed.sender, replyTo := parsed.replyTo,
    recipients := parsed.recipients, subject := parsed.subject,
    sentAt := parsed.sentAt.or m.sentAt, hasAttachments := !parsed.attachments.isEmpty,
    sizeBytes := some sizeBytes, fetchedBody := true, originalStorageKey := some storageKey,
    originalSha256 := some sha256 }

/-- Update one logical message with parsed content. -/
def applyIngested (accountId : Uuid) (row : Message) (parsed : ParsedMessage)
    (derived : DerivedBody) (storageKey sha256 : String) (sizeBytes : ℕ) : Tx IngestResult := do
  modify fun db =>
    { db with
      messages := db.messages.update (·.id == row.id)
        (ingestedRow parsed storageKey sha256 sizeBytes) fun _ => rfl
      bodies := db.bodies.put ⟨row.id, derived.textPlain, derived.htmlSanitized, sanitizerVersion⟩
      attachments := upsertAttachments row.id parsed.attachments db.attachments }
  -- this row decides its parent link again, and so does every row that names either identifier
  markThreadJobsDirty accountId ⟨[row.id], [row.messageId, parsed.messageId]⟩
  Tx.recordEvent .system "message.ingested" "message" row.id
  return ⟨.ingested, row.id, none, sha256, sizeBytes, parsed.attachments.length⟩

/-! ## Merging duplicates -/

/-- Whether a saved work record would make a second open record of its kind at the survivor. -/
def losesAnchor (survivorId : Uuid) (db : Database) (work : HomeWork) : Bool :=
  work.status == .open && db.homeWork.rows.any fun other =>
    other.accountId == work.accountId && other.kind == work.kind && other.status == .open &&
      other.anchorMessageId == survivorId && other.id != work.id

/-- Whether the survivor has a dismissal of the account already. -/
def isDismissed (survivorId : Uuid) (db : Database) (dismissal : HomeDismissal) : Bool :=
  db.homeDismissals.rows.any fun other =>
    other.accountId == dismissal.accountId && other.messageId == survivorId

/-- Move everything that names the removed message to the surviving one. -/
def moveReferences (removedId survivorId : Uuid) (now : Instant) (db : Database) : Database :=
  { db with
    messages := (db.messages.update
        -- a survivor below the removed row would close a cycle; it becomes pending
        (fun m => m.id == survivorId && m.parentMessageId == some removedId)
        (fun m => { m with parentMessageId := none, threadLinkState := .pending })
        fun _ => rfl).update
      (fun m => m.parentMessageId == some removedId && m.id != survivorId)
      (fun m => { m with parentMessageId := some survivorId }) fun _ => rfl
    messageOccurrences := db.messageOccurrences.update (·.messageId == removedId)
      (fun o => { o with messageId := survivorId }) fun _ => rfl
    drafts := db.drafts.update (·.replyParentId == some removedId)
      (fun d => { d with replyParentId := some survivorId }) fun _ => rfl
    outboundMessages := db.outboundMessages.update (·.replyParentId == some removedId)
      (fun o => { o with replyParentId := some survivorId }) fun _ => rfl
    homeWork := db.homeWork.update
      (fun work => work.anchorMessageId == removedId && !losesAnchor survivorId db work)
      (fun work => { work with anchorMessageId := survivorId, updatedAt := now }) fun _ => rfl
    homeDismissals := (db.homeDismissals.delete fun dismissal =>
        dismissal.messageId == removedId && isDismissed survivorId db dismissal).update
      (·.messageId == removedId) (fun dismissal => { dismissal with messageId := survivorId })
      fun _ => rfl }

/-- A message row after its references moved. -/
def movedRow (removedId survivorId : Uuid) (m : Message) : Message :=
  let detached := if m.id == survivorId && m.parentMessageId == some removedId then
    { m with parentMessageId := none, threadLinkState := .pending } else m
  if detached.parentMessageId == some removedId && detached.id != survivorId then
    { detached with parentMessageId := some survivorId } else detached

/-- What moving the references does to the message rows. -/
theorem messages_moveReferences {id survivorId : Uuid} {now : Instant} {db : Database} :
    (moveReferences id survivorId now db).messages.rows =
      db.messages.rows.map (movedRow id survivorId) := by
  unfold moveReferences Table.update
  dsimp only
  rw [List.map_map]
  rfl

/-- Delete a message row with its derived rows, unless another table still names it. -/
def deleteMessage (removedId : Uuid) : Tx Unit := do
  let db ← get
  if db.outboundMessages.rows.any (·.logicalMessageId == some removedId) then
    throw (.constraintViolation
      "outbound_messages_logical_message_id_account_id_messages_id_account_id_fk")
  if db.decisions.rows.any (·.messageId == removedId) then
    throw (.constraintViolation "decisions_message_id_messages_id_fk")
  set { db with
    attachments := db.attachments.delete (·.messageId == removedId)
    bodies := db.bodies.delete (·.messageId == removedId)
    messages := db.messages.delete (·.id == removedId) }

/-- Merge a byte-identical duplicate into the surviving logical message. -/
def mergeDuplicate (accountId : Uuid) (provisional : Message) (survivorId : Uuid)
    (sha256 : String) (sizeBytes : ℕ) (parsed : ParsedMessage) (now : Instant) :
    Tx IngestResult := do
  modify (moveReferences provisional.id survivorId now)
  deleteMessage provisional.id
  markThreadJobsDirty accountId ⟨[survivorId], [provisional.messageId, parsed.messageId]⟩
  Tx.recordEvent .system "message.merged" "message" survivorId
  return ⟨.merged, survivorId, some provisional.id, sha256, sizeBytes, parsed.attachments.length⟩

/-- The transaction that commits one parsed original. -/
def commitOriginal (accountId messageId : Uuid) (parsed : ParsedMessage) (derived : DerivedBody)
    (storageKey sha256 : String) (sizeBytes : ℕ) (now : Instant) : Tx IngestResult := do
  let row ← lockMessage accountId messageId
  match findDuplicate accountId messageId sha256 (← get) with
  | some duplicate =>
      mergeDuplicate accountId row duplicate.id sha256 sizeBytes parsed now
  | none => applyIngested accountId row parsed derived storageKey sha256 sizeBytes

end MailHub
