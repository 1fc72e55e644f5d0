import MailHub.Ingestion.Originals

/-!
# Importing headers

A window of header records is imported in one transaction: every record that is new in its folder
generation becomes a provisional message with one occurrence, and the identifiers of the window are
marked before the transaction ends.
-/

namespace MailHub

open Relational Interleaving

/-- The provisional columns one imported header block produces. -/
structure ImportedHeaders where
  /-- Grouping hint from `Message-ID`. -/
  messageId : Option String
  inReplyTo : Option String
  referenceIds : List String
  sender : Option EmailAddress
  /-- `none` when the header is absent; an empty list when it was invalid or empty. -/
  replyTo : Option (List EmailAddress)
  recipients : Option Recipients
  subject : Option String
  sentAt : Option Time
  deriving DecidableEq, Repr

/-- One header record as a mailbox session returns it. -/
structure MailboxHeaders where
  uid : ℕ
  unread : Bool
  flagged : Bool
  internalDate : Time
  sizeBytes : ℕ
  /-- The raw header lines exactly as the server returned them. -/
  rawHeaders : Bytes
  deriving DecidableEq, Repr

/-- The row of an imported message; it is provisional until thread reconciliation links it. -/
def importedRow (id accountId : Uuid) (ingestedAt : Instant) (header : ImportedHeaders)
    (record : MailboxHeaders) : Message :=
  { Message.bare id accountId ingestedAt with
    messageId := header.messageId
    inReplyTo := header.inReplyTo
    referenceIds := header.referenceIds
    threadLinkState := .pending
    sender := header.sender
    replyTo := header.replyTo
    recipients := header.recipients
    subject := header.subject
    sentAt := some (header.sentAt.getD record.internalDate)
    sizeBytes := some record.sizeBytes }

/-- The generated values of one imported record. -/
structure ImportIds where
  messageId : Uuid
  occurrenceId : Uuid
  /-- The clock of the database. -/
  now : Instant
  deriving DecidableEq, Repr

section

variable (parseHeaderBlock : Bytes → ImportedHeaders) (accountId folderId : Uuid)
  (uidvalidity : ℕ)

/-- Import one header record into one folder generation; the result says whether the record was
imported and names the identifier it carried. -/
def importHeaderRecord (ids : ImportIds) (record : MailboxHeaders) : Tx (Bool × Option String) := do
  let db ← get
  if db.messageOccurrences.rows.any fun o =>
      o.folderId == folderId && o.uidvalidity == uidvalidity && o.uid == record.uid then
    return (false, none)
  let header := parseHeaderBlock record.rawHeaders
  let messages ← Tx.inserted "messages_pkey" db.messages
    (importedRow ids.messageId accountId ids.now header record)
  let messageOccurrences ← Tx.inserted "message_occurrences_pkey" db.messageOccurrences
    ⟨ids.occurrenceId, accountId, ids.messageId, folderId, uidvalidity, record.uid,
      record.internalDate, record.unread, record.flagged, none, 1, none, none⟩
  set { db with messages, messageOccurrences }
  if maxMessageBytes < record.sizeBytes then
    Tx.recordEvent .system "message.body_skipped" "message" ids.messageId
  return (true, header.messageId)

/-- Import the records of one window; the result is the identifiers of the new messages. -/
def importRecords : List (ImportIds × MailboxHeaders) → Tx (List String)
  | [] => pure []
  | (ids, record) :: rest => do
      let (_, identifier) ←
        importHeaderRecord parseHeaderBlock accountId folderId uidvalidity ids record
      return identifier.toList ++ (← importRecords rest)

/-- Import one window and mark the thread jobs of its identifiers. -/
def importWindow (records : List (ImportIds × MailboxHeaders)) : Tx Unit := do
  let identifiers ← importRecords parseHeaderBlock accountId folderId uidvalidity records
  if identifiers ≠ [] then
    markThreadJobsDirty accountId ⟨[], identifiers.map some⟩

end

/-! ## What an import leaves alone -/

section

variable {parseHeaderBlock : Bytes → ImportedHeaders} {accountId folderId : Uuid}
  {uidvalidity : ℕ} {R : Database → Database → Prop} [Std.Refl R] [IsTrans Database R]

/-- An import is a step of a relation when the insertion of a provisional message with its
occurrence is one, an event is one, and a mark is one. -/
theorem steps_importWindow {records : List (ImportIds × MailboxHeaders)}
    (hinsert : ∀ (db : Database) (ids : ImportIds) header record messages messageOccurrences,
      db.messages.insert? (importedRow ids.messageId accountId ids.now header record) =
        some messages → R db { db with messages, messageOccurrences })
    (hevent : ∀ (db : Database) events, R db { db with events })
    (hmark : ∀ (db : Database) (marking : ThreadJobMarking),
      R db (markDirty (marking.marks accountId) db))
    (db : Database) :
    Steps R db (importWindow parseHeaderBlock accountId folderId uidvalidity records) := by
  have hrecord : ∀ ids record (db : Database), Steps R db
      (importHeaderRecord parseHeaderBlock accountId folderId uidvalidity ids record) := by
    intro ids record db
    refine .get_bind (.ite (fun _ => .pure _) fun _ => ?_)
    refine ⟨fun result db' hrun => ?_⟩
    simp at hrun
    obtain ⟨messages, hmessages, messageOccurrences, -, hrun⟩ := hrun
    have hrow := hinsert db ids _ record messages messageOccurrences hmessages
    rcases hrun with ⟨-, -, rfl⟩ | ⟨-, -, rfl⟩
    · exact IsTrans.trans _ _ _ hrow (hevent _ _)
    · exact hrow
  have hrecords : ∀ db : Database, Steps R db
      (importRecords parseHeaderBlock accountId folderId uidvalidity records) := by
    induction records with
    | nil => exact fun db => .pure _
    | cons entry rest ih =>
        intro db
        exact .bind (hrecord _ _ db) fun _ db₁ _ => .bind (ih db₁) fun _ _ _ => .pure _
  refine .bind (hrecords db) fun identifiers db₁ _ => ?_
  exact .ite (fun _ => markThreadJobsDirty_steps (hmark db₁ _)) fun _ => .pure _

end

end MailHub
