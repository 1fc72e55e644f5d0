import MailHub.Ingestion.Originals
import MailHub.Interleaving.Pool

/-!
# Opening attachments

An opened attachment comes from its disposable copy, verified against the row that the reader holds,
or is regenerated from the durable original, verified against the row that the regeneration reads.
Each statement and each request to storage is a step of its own, and an ingestion can rewrite or
remove the row between any two of them.
-/

namespace MailHub.Reading

open MailHub Relational Interleaving

/-! ## Rows -/

/-- One row of the attachments: the columns that a parse writes, and the ones of the disposable
copy. -/
structure AttachmentRow where
  id : Uuid
  part : Attachment
  /-- Disposable extracted copy; regenerate from the original when absent. -/
  storageKey : Option String
  fetchedAt : Option Time
  deriving DecidableEq, Repr

instance : Keyed AttachmentRow (Uuid × String) := ⟨fun a => Keyed.key a.part⟩

/-- The database with the full rows of the attachments. -/
structure ReadingTables where
  db : Database
  rows : Table AttachmentRow

/-- The row of an attachment. -/
def ReadingTables.attachment? (s : ReadingTables) (id : Uuid) : Option AttachmentRow :=
  s.rows.rows.find? (·.id == id)

/-- One attachment as the reader shows it. -/
structure MessageAttachment where
  id : Uuid
  filename : Option String
  contentType : Option String
  sizeBytes : ℕ
  contentId : Option String
  disposition : Option String
  inlineResolvable : Bool
  deriving DecidableEq, Repr

/-- One download: the attachment view and its decoded bytes. -/
structure OpenedAttachment where
  attachment : MessageAttachment
  bytes : Bytes
  deriving DecidableEq, Repr

def isImageContentType (contentType : Option String) : Bool :=
  contentType.any fun text => "image/".toList.isPrefixOf (toLowerCase (trim text)).toList

/-- The view of one part among the parts of its message. -/
def inlineView (parts : List AttachmentRow) (row : AttachmentRow) : MessageAttachment where
  id := row.id
  filename := row.part.filename
  contentType := row.part.contentType
  sizeBytes := row.part.sizeBytes
  contentId := row.part.contentId
  disposition := row.part.disposition
  inlineResolvable :=
    row.part.contentId.isSome &&
      parts.countP (fun other => other.part.contentId == row.part.contentId) == 1 &&
      isImageContentType row.part.contentType

/-! ## Programs -/

/-- One part of a parsed original, with its decoded bytes. -/
structure MimePart where
  partPath : String
  content : Bytes
  filename : Option String
  contentType : String
  contentId : Option String
  disposition : Option String
  deriving DecidableEq, Repr

/-- The functions of third-party libraries that the reader computes with. -/
structure ReadingLibraries where
  /-- The SHA-256 digest in hexadecimal. -/
  sha256Hex : Bytes → String
  /-- The located parts of a parsed original. -/
  simpleParser : Bytes → Except String (List MimePart)

/-- Where a part was found, with the hash and the size of its bytes. -/
def ReadingLibraries.locate (libs : ReadingLibraries) (part : MimePart) : LocatedPart :=
  ⟨part.partPath, libs.sha256Hex part.content, part.content.length, part.filename,
    part.contentType, part.contentId, part.disposition⟩

/-- The parts of a parsed original. -/
def ReadingLibraries.parseMime (libs : ReadingLibraries) (bytes : Bytes) :
    Except Failure (List MimePart) :=
  match libs.simpleParser bytes with
  | .ok parts => .ok parts
  | .error cause => .error (.ingestion .parseFailed
      s!"The stored original could not be parsed: {cause}" none)

/-- One request of a reader to storage, to the clock or to its client. -/
inductive ReadingCall
  | now
  | disposableGet (key : String)
  | disposablePut (key : String) (bytes : Bytes)
  | durableGet (key : String)
  /-- The download of an attachment goes to the client. -/
  | serve (id : Uuid) (opened : OpenedAttachment)
  /-- The failure of a download goes to the client. -/
  | refuse (e : Failure)
  deriving DecidableEq, Repr

/-- The type of the answer to each request. -/
def ReadingCall.Answer : ReadingCall → Type
  | now => Time
  | disposableGet _ | durableGet _ => Bytes
  | disposablePut .. | serve .. | refuse _ => Unit

/-- The statements of a reader that a specification names. -/
inductive ReadingTag
  /-- The row of a regenerated attachment is updated; the part is the one that was verified. -/
  | storeCopy (id : Uuid) (verified : Attachment)
  deriving DecidableEq, Repr

/-- The reader, as programs on the database. -/
abbrev readingSignature : Signature where
  Store := ReadingTables
  Failure := Failure
  Tag := ReadingTag
  Call := ReadingCall
  Answer := ReadingCall.Answer

/-- An operation of the reader. -/
abbrev ReadingProgram := Program readingSignature

namespace ReadingProgram

variable {α : Type}

/-- A computation that may fail. -/
def lift (r : Except Failure α) : ReadingProgram α := Program.ofExcept r

/-- Read the database outside any transaction. -/
def query (f : ReadingTables → α) : ReadingProgram α := Program.read f

/-- Send one request and wait for its answer. -/
def ask (c : ReadingCall) : ReadingProgram c.Answer := Program.request (S := readingSignature) c

end ReadingProgram

open ReadingProgram (lift query ask)

/-! ## Regeneration -/

/-- What a regeneration returns: the first row that its update returned, and the bytes. -/
structure RegeneratedAttachment where
  attachment : Option AttachmentRow
  bytes : Bytes
  deriving DecidableEq, Repr

/-- Disposable key for the extracted copy of one attachment. -/
def attachmentCacheKey (id : Uuid) : String := s!"attachments/{id}.bin"

/-- The row of an attachment with the row of its message. -/
def attachmentWithMessage (id : Uuid) (s : ReadingTables) : Option (AttachmentRow × Message) := do
  let row ← s.attachment? id
  let message ← s.db.messages.find? row.part.messageId
  return (row, message)

/-- Point the row of an attachment to its disposable copy; returns the updated row. -/
def storeCopy (id : Uuid) (key : String) (now : Time) :
    Transaction readingSignature (Option AttachmentRow) := do
  let s ← get
  let rows := s.rows.update (·.id == id)
    (fun a => { a with storageKey := some key, fetchedAt := some now }) fun _ => rfl
  set { s with rows := rows }
  return rows.rows.find? (·.id == id)

/-- Recompute the hash of a stored original. -/
def verify (libs : ReadingLibraries) (key sha256 : String) : ReadingProgram Bool := do
  let bytes : Bytes ← ask (.durableGet key)
  return libs.sha256Hex bytes == sha256

/-- Rebuild one attachment's disposable copy from the verified original. -/
def regenerateAttachment (libs : ReadingLibraries) (attachmentId : Uuid) :
    ReadingProgram RegeneratedAttachment := do
  match ← query (attachmentWithMessage attachmentId) with
  | none => throw (.ingestion .notFound "No attachment exists with this identifier." none)
  | some (attachment, message) =>
      if attachment.part.locatorVersion ≠ locatorVersion then
        throw (.ingestion .unsupportedLocator (s!"Attachment locator version " ++
          s!"{attachment.part.locatorVersion} is not supported; this version resolves " ++
          s!"{locatorVersion}.") none)
      match message.originalStorageKey, message.originalSha256 with
      | some originalStorageKey, some originalSha256 =>
          if (← verify libs originalStorageKey originalSha256) = false then
            throw (.ingestion .originalMismatch
              "The stored original no longer matches its recorded hash." none)
          let original : Bytes ← ask (.durableGet originalStorageKey)
          let parts ← lift (libs.parseMime original)
          match parts.find? (·.partPath == attachment.part.partPath) with
          | none => throw (.ingestion .locatorUnresolved (s!"Part path " ++
              s!"{attachment.part.partPath} resolved to nothing in the stored original.") none)
          | some part =>
              let located := libs.locate part
              if located.decodedSha256 ≠ attachment.part.decodedSha256 ∨
                  located.sizeBytes ≠ attachment.part.sizeBytes then
                throw (.ingestion .bytesMismatch
                  "Regenerated bytes do not match the recorded decoded hash or size." none)
              let cacheKey := attachmentCacheKey attachment.id
              let _ : Unit ← ask (.disposablePut cacheKey part.content)
              let now : Time ← ask .now
              let updated ← Program.transaction (some (.storeCopy attachment.id attachment.part))
                (storeCopy attachment.id cacheKey now)
              return ⟨updated, part.content⟩
      | _, _ => throw (.ingestion .originalMissing
          "The message original has not been stored yet." none)

/-! ## Downloads -/

/-- Read the disposable copy and verify it; any unreadable or mismatched one counts as a miss. -/
def readVerifiedCache (libs : ReadingLibraries) (attachment : AttachmentRow) (storageKey : String) :
    ReadingProgram (Option Bytes) := do
  match ← (ask (.disposableGet storageKey)).attempt with
  | .error _ => return none
  | .ok (bytes : Bytes) =>
      if libs.sha256Hex bytes ≠ attachment.part.decodedSha256 ∨
          bytes.length ≠ attachment.part.sizeBytes then return none
      return some bytes

/-- The verified disposable copy of an attachment, when the row names one. -/
def cachedCopy (libs : ReadingLibraries) (attachment : AttachmentRow) :
    ReadingProgram (Option Bytes) :=
  match attachment.storageKey with
  | none => pure none
  | some storageKey => readVerifiedCache libs attachment storageKey

/-- The rows of the parts of a message. -/
def partsOf (messageId : Uuid) (s : ReadingTables) : List AttachmentRow :=
  s.rows.select (·.part.messageId == messageId)

/-- Serve one attachment's decoded bytes after verifying them against the recorded hash and size. -/
def openAttachment (libs : ReadingLibraries) (messageId attachmentId : Uuid) :
    ReadingProgram OpenedAttachment := do
  let parts ← query (partsOf messageId)
  match parts.find? (·.id == attachmentId) with
  | none => throw (.reading .notFound
      "No attachment of this message exists with this identifier.")
  | some stored =>
      let view := inlineView parts stored
      match ← cachedCopy libs stored with
      | some bytes => return ⟨view, bytes⟩
      | none =>
          let regenerated ← regenerateAttachment libs attachmentId
          match regenerated.attachment with
          | none => throw (.typeError "Cannot read properties of undefined (reading 'filename')")
          | some row =>
              return ⟨{ view with
                filename := row.part.filename
                contentType := row.part.contentType }, regenerated.bytes⟩

/-- The download route: the opened attachment or the failure goes to the client. -/
def download (libs : ReadingLibraries) (messageId attachmentId : Uuid) :
    ReadingProgram Unit := do
  match ← (openAttachment libs messageId attachmentId).attempt with
  | .ok opened => ask (.serve attachmentId opened)
  | .error e => ask (.refuse e)

/-! ## Ingestion -/

/-- The full rows after an ingestion wrote the parts: a part that was there keeps its identifier
and its copy, a new one gets a fresh identifier. -/
def refreshRows (fresh : Uuid × String → Uuid) (parts : Table Attachment)
    (rows : Table AttachmentRow) : Table AttachmentRow where
  rows := parts.rows.map fun part =>
    match rows.find? (Keyed.key part) with
    | some row => { row with part := part }
    | none => ⟨fresh (Keyed.key part), part, none, none⟩
  nodup := by
    have hkeys : (parts.rows.map fun part =>
        match rows.find? (Keyed.key part) with
        | some row => ({ row with part := part } : AttachmentRow)
        | none => ⟨fresh (Keyed.key part), part, none, none⟩).map Keyed.key =
          parts.rows.map Keyed.key := by
      rw [List.map_map]
      refine List.map_congr_left fun part _ => ?_
      simp only [Function.comp_apply]
      split <;> rfl
    rw [hkeys]
    exact parts.nodup

/-- The transaction of an ingestion that commits one parsed original, on the full rows: the message
is updated with its parts, or merged away with them. -/
def ingest (fresh : Uuid × String → Uuid) (accountId messageId : Uuid) (parsed : ParsedMessage)
    (derived : DerivedBody) (storageKey sha256 : String) (sizeBytes : ℕ) (now : Instant) :
    Transaction readingSignature Unit := do
  let s ← get
  let (_, db) ← (commitOriginal accountId messageId parsed derived storageKey sha256 sizeBytes
    now).run s.db
  let rows := refreshRows fresh db.attachments s.rows
  if (rows.rows.map (·.id)).Nodup then set (ReadingTables.mk db rows)
  else throw (.uniqueViolation "attachments_pkey")

end MailHub.Reading
