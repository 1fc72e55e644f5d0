import MailHub.Ingestion.Originals

/-!
# Staging and applying originals

An original is streamed into durable storage under a key that belongs to its message, verified
against the hash of the staging, parsed, and applied in one transaction. A durable write fills a
temporary file, renames it into place and writes the metadata beside it; each of these is a step of
its own.
-/

namespace MailHub

open Relational Interleaving

/-! ## Streams -/

/-- The bytes that a source delivers chunk by chunk, and the failure that ends it early. -/
structure ByteSource where
  chunks : List Bytes
  failure : Option Failure
  deriving DecidableEq, Repr

/-- Present complete bytes to a streaming stage. -/
def oneChunk (bytes : Bytes) : ByteSource := ⟨[bytes], none⟩

/-- The rest of a bounded source after some bytes have passed. -/
def boundedFrom (failure : Option Failure) : ℕ → List Bytes → ByteSource
  | streamed, [] =>
      match failure with
      | some e => ⟨[], some e⟩
      | none =>
          if streamed = 0 then
            ⟨[], some (.ingestion .invalidRequest "Original message bytes are empty." none)⟩
          else ⟨[], none⟩
  | streamed, chunk :: chunks =>
      if maxMessageBytes < streamed + chunk.length then
        ⟨[], some (tooLarge (streamed + chunk.length))⟩
      else
        let rest := boundedFrom failure (streamed + chunk.length) chunks
        ⟨chunk :: rest.chunks, rest.failure⟩

/-- Pass chunks through while they stay inside the maximum message size, and refuse a source that
ends without any bytes. -/
def bounded (source : ByteSource) : ByteSource := boundedFrom source.failure 0 source.chunks

/-- The complete bytes of a source, unless it fails. -/
def ByteSource.collect (source : ByteSource) : Except Failure Bytes :=
  match source.failure with
  | some e => .error e
  | none => .ok source.chunks.flatten

/-- One original as a server sends it. -/
structure OriginalDownload where
  /-- The size that the server reported with the download, when it did. -/
  expectedSize : Option ℕ
  chunks : ByteSource
  deriving DecidableEq, Repr

/-! ## Requests -/

/-- One request of the ingestion to durable storage, to a mail server or to the clock. -/
inductive IngestCall
  | now
  /-- The free-space check before a durable write. -/
  | assertWritable
  /-- Fills a temporary file. -/
  | writeTemp (bytes : Bytes)
  /-- Makes a filled temporary file the object of a key. -/
  | rename (key : String) (bytes : Bytes)
  | writeSidecar (key : String) (metadata : StoredObject)
  | fsyncDirectory (key : String)
  | storageGet (key : String)
  | select (folder : String)
  | streamOriginal (uid : ℕ)
  | discard
  | revalidate
  deriving DecidableEq, Repr

/-- The type of the answer to each request. -/
def IngestCall.Answer : IngestCall → Type
  | now => Time
  | assertWritable | writeTemp _ | rename .. | writeSidecar .. | fsyncDirectory _ | discard => Unit
  | storageGet _ => Bytes
  | select _ | revalidate => SelectedFolder
  | streamOriginal _ => Option OriginalDownload

/-- The transactions of the ingestion that a specification names. -/
inductive IngestTag
  /-- A parsed original is applied to its message. -/
  | commitParsed (accountId messageId : Uuid) (storageKey sha256 : String)
  deriving DecidableEq, Repr

/-- The ingestion, as programs on the database. -/
abbrev ingestSignature : Signature where
  Store := Database
  Failure := Failure
  Tag := IngestTag
  Call := IngestCall
  Answer := IngestCall.Answer

/-- An operation of the ingestion. -/
abbrev IngestProgram := Program ingestSignature

namespace IngestProgram

variable {α : Type}

/-- A computation that may fail. -/
def lift (r : Except Failure α) : IngestProgram α := Program.ofExcept r

/-- Run one transaction without a name. -/
def transact (t : Tx α) : IngestProgram α := Program.transaction none t

/-- Read the database outside any transaction. -/
def query (f : Database → α) : IngestProgram α := Program.read f

/-- Send one request and wait for its answer. -/
def ask (c : IngestCall) : IngestProgram c.Answer := Program.request (S := ingestSignature) c

def now : IngestProgram Time := ask .now

def storageGet (key : String) : IngestProgram Bytes := ask (.storageGet key)

def select (folder : String) : IngestProgram SelectedFolder := ask (.select folder)

def revalidate : IngestProgram SelectedFolder := ask .revalidate

def streamOriginal (uid : ℕ) : IngestProgram (Option OriginalDownload) := ask (.streamOriginal uid)

def discard : IngestProgram Unit := ask .discard

end IngestProgram

open IngestProgram (lift ask)

/-! ## Durable writes -/

namespace IngestionService

variable (s : IngestionService)

/-- Write one durable object: it becomes visible only through the rename. -/
def writeObject (key : String) (source : ByteSource) : IngestProgram StoredObject := do
  let _ : Unit ← ask .assertWritable
  let bytes ← lift source.collect
  let _ : Unit ← ask (.writeTemp bytes)
  let _ : Unit ← ask (.rename key bytes)
  let metadata : StoredObject := ⟨s.libs.sha256Hex bytes, bytes.length⟩
  let _ : Unit ← ask (.writeSidecar key metadata)
  let _ : Unit ← ask (.fsyncDirectory key)
  return metadata

/-! ## Originals -/

/-- Stream one original into durable storage. -/
def stageOriginal (messageId : Uuid) (source : ByteSource) (expectedSize : Option ℕ) :
    IngestProgram StagedOriginal := do
  match expectedSize with
  | some size => if maxMessageBytes < size then throw (tooLarge size)
  | none => pure ()
  let storageKey := originalMessageKey messageId
  let stored ← s.writeObject storageKey (bounded source)
  return ⟨messageId, storageKey, stored.sha256, stored.sizeBytes⟩

/-- Commit one parsed original; a lost race on the index of hashes is run once more. -/
def commitParsed (accountId messageId : Uuid) (parsed : ParsedMessage) (derived : DerivedBody)
    (storageKey sha256 : String) (sizeBytes : ℕ) : IngestProgram IngestResult := do
  let now ← IngestProgram.now
  let attempt : IngestProgram IngestResult :=
    Program.transaction (S := ingestSignature)
      (some (.commitParsed accountId messageId storageKey sha256))
      (commitOriginal accountId messageId parsed derived storageKey sha256 sizeBytes (now * 1000))
  match ← attempt.attempt with
  | .ok result => return result
  | .error cause => if cause.isUniqueViolation then attempt else throw cause

/-- Parse one staged original and persist its derived records. -/
def applyStagedOriginal (accountId messageId : Uuid) (staged : StagedOriginal) :
    IngestProgram IngestResult := do
  if staged.messageId ≠ messageId then
    throw (.ingestion .invalidRequest "The staged original belongs to a different message." none)
  let original ← IngestProgram.storageGet staged.storageKey
  if maxMessageBytes < original.length then
    throw (tooLarge original.length)
  if original.length ≠ staged.sizeBytes ∨ s.libs.sha256Hex original ≠ staged.sha256 then
    throw (.ingestion .originalMismatch
      "The stored original no longer matches its staged hash or size." none)
  let parsed ← lift (s.libs.parseMime original)
  commitParsed accountId messageId parsed (s.deriveBody parsed) staged.storageKey staged.sha256
    staged.sizeBytes

/-- Store one original durably, then persist every derived record for it. -/
def ingestOriginal (accountId messageId : Uuid) (bytes : Bytes) : IngestProgram IngestResult := do
  if bytes.length = 0 then
    throw (.ingestion .invalidRequest "Original message bytes are empty." none)
  if maxMessageBytes < bytes.length then
    throw (tooLarge bytes.length)
  let staged ← s.stageOriginal messageId (oneChunk bytes) (some bytes.length)
  s.applyStagedOriginal accountId messageId staged

end IngestionService

/-! ## Bounded sources -/

/-- A source that passes the bound delivers all of its bytes, some byte at least, and no more than
the maximum. -/
theorem boundedFrom_collect {failure : Option Failure} {streamed : ℕ} {chunks : List Bytes}
    {bytes : Bytes} (h : (boundedFrom failure streamed chunks).collect = .ok bytes) :
    bytes = chunks.flatten ∧ streamed + bytes.length ≠ 0 ∧
      (streamed ≤ maxMessageBytes → streamed + bytes.length ≤ maxMessageBytes) := by
  induction chunks generalizing streamed bytes with
  | nil =>
      cases failure with
      | some e => simp [boundedFrom, ByteSource.collect] at h
      | none =>
          unfold boundedFrom at h
          by_cases hzero : streamed = 0
          · simp [hzero, ByteSource.collect] at h
          · obtain rfl : [] = bytes := by simpa [hzero, ByteSource.collect] using h
            simpa using hzero
  | cons chunk chunks ih =>
      unfold boundedFrom at h
      by_cases hlarge : maxMessageBytes < streamed + chunk.length
      · simp [hlarge, ByteSource.collect] at h
      · rw [if_neg hlarge] at h
        cases hfail : (boundedFrom failure (streamed + chunk.length) chunks).failure with
        | some e => simp [ByteSource.collect, hfail] at h
        | none =>
            obtain rfl : chunk ++ (boundedFrom failure (streamed + chunk.length)
                chunks).chunks.flatten = bytes := by
              simpa [ByteSource.collect, hfail] using h
            have hcollect : (boundedFrom failure (streamed + chunk.length) chunks).collect =
                .ok (boundedFrom failure (streamed + chunk.length) chunks).chunks.flatten := by
              simp [ByteSource.collect, hfail]
            obtain ⟨hbytes, hne, hle⟩ := ih hcollect
            rw [List.length_append, ← Nat.add_assoc, List.flatten_cons, ← hbytes]
            exact ⟨rfl, hne, fun _ => hle (by omega)⟩

/-- What a bounded source delivers is the whole original, not empty and inside the maximum. -/
theorem bounded_collect {source : ByteSource} {bytes : Bytes}
    (h : (bounded source).collect = .ok bytes) :
    bytes = source.chunks.flatten ∧ bytes ≠ [] ∧ bytes.length ≤ maxMessageBytes := by
  obtain ⟨hbytes, hne, hle⟩ := boundedFrom_collect h
  refine ⟨hbytes, ?_, ?_⟩
  · rintro rfl
    simp at hne
  · simpa using hle (Nat.zero_le _)

end MailHub
