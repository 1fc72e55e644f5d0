import MailHub.Ingestion.Service
import MailHub.Interleaving.Pool
import Mathlib.Logic.Function.Basic

/-!
# The object store on a file system

The file system store keeps the bytes of a key in one file and its metadata in a sidecar file. A
write fills a temporary file, renames it over the object, and then replaces the sidecar in the same
way. Every call of the file system is a step of its own.
-/

namespace MailHub.Storage

open MailHub Interleaving

/-! ## Values -/

/-- Which volume an object belongs to. -/
inductive StorageClass
  | durable | disposable
  deriving DecidableEq, Repr

/-- Metadata recorded when an object is written. -/
structure StoredObjectMetadata where
  key : String
  sha256 : String
  sizeBytes : ℕ
  storageClass : StorageClass
  deriving DecidableEq, Repr

inductive StorageErrorCode
  | invalidKey | notFound | ioFailed | insufficientSpace
  deriving DecidableEq, Repr

/-- What a store operation throws. -/
inductive StoreFailure
  /-- A failure raised by the store. -/
  | storage (code : StorageErrorCode) (message : String)
  /-- An error of the file system, with its code. -/
  | system (code : String) (message : String)
  /-- A failure of the stream that the caller passed. -/
  | caller (cause : Failure)
  deriving DecidableEq, Repr

/-- The text of a failure. -/
def errorText : StoreFailure → String
  | .storage _ message | .system _ message => message
  | .caller cause => cause.message

def isENOENT : StoreFailure → Bool
  | .system code _ => code == "ENOENT"
  | _ => false

/-- Whether a write failure came from the store or the file system it uses. -/
def fromStorageLayer : StoreFailure → Bool
  | .storage .. | .system .. => true
  | .caller _ => false

def classifyReadError (key : String) (cause : StoreFailure) : StoreFailure :=
  if isENOENT cause then .storage .notFound s!"Object not found: {key}"
  else .storage .ioFailed s!"Failed to read object {key}: {errorText cause}"

/-! ## Keys -/

def maxKeyLength : ℕ := 200

/-- A character that a key segment may start with. -/
def isSegmentStart (c : Char) : Bool :=
  ('A' ≤ c && c ≤ 'Z') || ('a' ≤ c && c ≤ 'z') || ('0' ≤ c && c ≤ '9')

/-- The pattern of one key segment. -/
def isSafeSegment : List Char → Bool
  | [] => false
  | c :: cs =>
      isSegmentStart c && cs.all fun c => isSegmentStart c || c == '.' || c == '_' || c == '-'

/-- Accept only relative keys with safe segments; reject sidecar suffixes. -/
def assertValidKey (key : String) : Except StoreFailure Unit :=
  if textLength key = 0 ∨ maxKeyLength < textLength key then
    .error (.storage .invalidKey s!"Storage key length must be 1 to {maxKeyLength}: {key}")
  else if (splitList '/' key.toList).all isSafeSegment = false then
    .error (.storage .invalidKey s!"Storage key contains unsafe characters: {key}")
  else if ".meta.json".toList.isSuffixOf key.toList then
    .error (.storage .invalidKey "Storage key suffix .meta.json is reserved for metadata.")
  else .ok ()

/-! ## Files -/

/-- What a temporary file holds: bytes of an object, or the text of metadata once it is written. -/
inductive TempFile
  | object (bytes : Bytes)
  | sidecar (metadata : Option StoredObjectMetadata)
  deriving DecidableEq, Repr

/-- The files under the root of one store. -/
structure FileSystem where
  /-- The object of each key. -/
  objects : String → Option Bytes
  /-- The metadata in the sidecar of each key. -/
  sidecars : String → Option StoredObjectMetadata
  /-- The temporary files by the identifier in their names. -/
  temps : Uuid → Option TempFile

/-- The root of a fresh installation. -/
def FileSystem.empty : FileSystem := ⟨fun _ => none, fun _ => none, fun _ => none⟩

/-- One request to the file system or the platform that changes no file that a reader sees. -/
inductive StoreCall
  | randomUuid
  /-- The free bytes of the volume. -/
  | freeBytes
  | mkdir
  /-- How many bytes of a buffer one write takes. -/
  | write (size : ℕ)
  | sync
  | close
  deriving DecidableEq, Repr

/-- The type of the answer to each request. -/
def StoreCall.Answer : StoreCall → Type
  | randomUuid => Uuid
  | freeBytes | write _ => ℕ
  | mkdir | sync | close => Unit

/-- The steps of a store that a specification names. -/
inductive StoreTag
  /-- A temporary file is created. -/
  | create (id : Uuid)
  /-- A temporary file becomes the object that the metadata describes. -/
  | replace (metadata : StoredObjectMetadata)
  /-- Metadata becomes the sidecar of its object. -/
  | record (metadata : StoredObjectMetadata)
  deriving DecidableEq, Repr

/-- Store operations, as programs on the files. -/
abbrev storeSignature : Signature where
  Store := FileSystem
  Failure := StoreFailure
  Tag := StoreTag
  Call := StoreCall
  Answer := StoreCall.Answer

/-- One operation of a store. -/
abbrev StoreProgram := Program storeSignature

namespace StoreProgram

/-- Send one request and wait for its answer. -/
def ask (c : StoreCall) : StoreProgram c.Answer := Program.request (S := storeSignature) c

def randomUuid : StoreProgram Uuid := ask .randomUuid

def freeBytes : StoreProgram ℕ := ask .freeBytes

def mkdir : StoreProgram Unit := ask .mkdir

def sync : StoreProgram Unit := ask .sync

def close : StoreProgram Unit := ask .close

end StoreProgram

open StoreProgram (ask randomUuid freeBytes mkdir sync close)

/-- The error of a name that is not there. -/
def enoent : StoreFailure := .system "ENOENT" "no such file or directory"

/-- Create a temporary file, unless its name is taken. -/
def openExclusive (id : Uuid) (content : TempFile) : Transaction storeSignature Unit := do
  let fs ← get
  match fs.temps id with
  | some _ => throw (.system "EEXIST" "file already exists")
  | none => set { fs with temps := Function.update fs.temps id (some content) }

/-- Write the next bytes of a temporary file. -/
def appendTemp (id : Uuid) (bytes : Bytes) : Transaction storeSignature Unit := do
  let fs ← get
  match fs.temps id with
  | some (.object written) =>
      set { fs with temps := Function.update fs.temps id (some (.object (written ++ bytes))) }
  | _ => throw enoent

/-- Write the text of metadata to a temporary file. -/
def writeText (id : Uuid) (metadata : StoredObjectMetadata) : Transaction storeSignature Unit := do
  let fs ← get
  match fs.temps id with
  | some (.sidecar _) =>
      set { fs with temps := Function.update fs.temps id (some (.sidecar (some metadata))) }
  | _ => throw enoent

def unlinkTemp (id : Uuid) : Transaction storeSignature Unit := do
  let fs ← get
  match fs.temps id with
  | some _ => set { fs with temps := Function.update fs.temps id none }
  | none => throw enoent

/-- Rename a temporary file over the object of a key. -/
def renameObject (id : Uuid) (key : String) : Transaction storeSignature Unit := do
  let fs ← get
  match fs.temps id with
  | some (.object bytes) =>
      set { fs with
        temps := Function.update fs.temps id none
        objects := Function.update fs.objects key (some bytes) }
  | _ => throw enoent

/-- Rename a temporary file over the sidecar of a key. -/
def renameSidecar (id : Uuid) (key : String) : Transaction storeSignature Unit := do
  let fs ← get
  match fs.temps id with
  | some (.sidecar metadata) =>
      set { fs with
        temps := Function.update fs.temps id none
        sidecars := Function.update fs.sidecars key metadata }
  | _ => throw enoent

def unlinkObject (key : String) : Transaction storeSignature Unit := do
  let fs ← get
  match fs.objects key with
  | some _ => set { fs with objects := Function.update fs.objects key none }
  | none => throw enoent

def unlinkSidecar (key : String) : Transaction storeSignature Unit := do
  let fs ← get
  match fs.sidecars key with
  | some _ => set { fs with sidecars := Function.update fs.sidecars key none }
  | none => throw enoent

/-- Read a file that has to be there. -/
def readExisting {α : Type} (f : FileSystem → Option α) : StoreProgram α :=
  Program.transaction none do
    match f (← get) with
    | some content => return content
    | none => throw enoent

/-! ## The store -/

/-- A file system object store for one storage class under one root directory. -/
structure FsObjectStore where
  storageClass : StorageClass
  minFreeBytes : ℕ
  /-- The SHA-256 digest in hexadecimal. -/
  sha256Hex : Bytes → String

namespace FsObjectStore

variable (store : FsObjectStore)

/-- Durable objects are synced before their write resolves. -/
def durable : Bool := store.storageClass == .durable

/-- The metadata of bytes under a key. -/
def describe (key : String) (bytes : Bytes) : StoredObjectMetadata :=
  ⟨key, store.sha256Hex bytes, bytes.length, store.storageClass⟩

/-! ### Reading -/

def get (key : String) : StoreProgram Bytes := do
  Program.ofExcept (assertValidKey key)
  tryCatch (readExisting (·.objects key)) fun cause => throw (classifyReadError key cause)

/-- The sidecar of an object of a size, or `none` for a lost or stale one. -/
def readSidecar (key : String) (sizeBytes : ℕ) : StoreProgram (Option StoredObject) :=
  tryCatch (do
    let parsed ← readExisting (·.sidecars key)
    if parsed.sizeBytes < 2 ^ 53 && parsed.sizeBytes == sizeBytes then
      return some ⟨parsed.sha256, parsed.sizeBytes⟩
    else return none) fun _ => pure none

/-- Return metadata, or `none` when the object is absent. -/
def stat (key : String) : StoreProgram (Option StoredObjectMetadata) := do
  Program.ofExcept (assertValidKey key)
  let size ← tryCatch (do
      let bytes ← readExisting (·.objects key)
      return some bytes.length) fun cause =>
    if isENOENT cause then pure none else throw (classifyReadError key cause)
  match size with
  | none => return none
  | some size =>
      match ← readSidecar key size with
      | some recorded =>
          return some ⟨key, recorded.sha256, recorded.sizeBytes, store.storageClass⟩
      | none =>
          -- a lost or stale sidecar: recompute from the stored bytes
          let bytes ← get key
          return some (store.describe key bytes)

/-! ### Writing -/

/-- Refuse a durable write before it starts when the volume is too full. -/
def assertWritable : StoreProgram Unit := do
  if store.durable && decide (0 < store.minFreeBytes) then
    let _ ← mkdir.attempt
    match ← freeBytes.attempt with
    | .error _ => return
    | .ok available =>
        if available < store.minFreeBytes then
          throw (.storage .insufficientSpace (s!"The storage volume holds {available} free bytes, " ++
            s!"below the {store.minFreeBytes} byte pause threshold; the durable write was " ++
            "refused before it started."))

/-- The writes of a buffer that is still to be written; each one takes a part of it. -/
def writeRest (id : Uuid) : ℕ → Bytes → StoreProgram Unit
  | 0, _ => return
  | fuel + 1, rest => do
      if rest = [] then return
      let bytesWritten : ℕ ← ask (.write rest.length)
      if bytesWritten = 0 then throw (.storage .ioFailed "Object write made no progress")
      Program.transaction none (appendTemp id (rest.take bytesWritten))
      writeRest id fuel (rest.drop bytesWritten)

/-- Write the whole buffer; no buffer takes more writes than it has bytes. -/
def writeAll (id : Uuid) (bytes : Bytes) : StoreProgram Unit := writeRest id bytes.length bytes

/-- Write the chunks of a source, and return the bytes that the hash was updated with. -/
def writeChunks (id : Uuid) (failure : Option Failure) : Bytes → List Bytes → StoreProgram Bytes
  | hashed, [] =>
      match failure with
      | some cause => throw (.caller cause)
      | none => return hashed
  | hashed, chunk :: chunks => do
      writeAll id chunk
      writeChunks id failure (hashed ++ chunk) chunks

/-- Remove the temporary file of a failed write. -/
def discardTemp (id : Uuid) : StoreProgram Unit := do
  let _ ← close.attempt
  let _ ← (Program.transaction none (unlinkTemp id)).attempt
  return

def writeSidecar (metadata : StoredObjectMetadata) : StoreProgram Unit := do
  let id ← randomUuid
  Program.transaction (some (.create id)) (openExclusive id (.sidecar none))
  tryCatch (do
    Program.transaction none (writeText id metadata)
    if store.durable then sync
    close) fun cause => do
      discardTemp id
      throw (.storage .ioFailed s!"Failed to write object metadata: {errorText cause}")
  Program.transaction (some (.record metadata)) (renameSidecar id metadata.key)

/-- Write one object: it becomes visible only through the rename of a complete file. -/
def writeObject (key : String) (source : ByteSource) : StoreProgram StoredObjectMetadata := do
  store.assertWritable
  Program.ofExcept (assertValidKey key)
  mkdir
  let id ← randomUuid
  Program.transaction (some (.create id)) (openExclusive id (.object []))
  let hashed ← tryCatch (do
      let hashed ← writeChunks id source.failure [] source.chunks
      if store.durable then sync
      close
      return hashed) fun cause => do
        discardTemp id
        if fromStorageLayer cause then
          throw (.storage .ioFailed s!"Failed to write object {key}: {errorText cause}")
        throw cause
  let metadata := store.describe key hashed
  Program.transaction (some (.replace metadata)) (renameObject id key)
  store.writeSidecar metadata
  if store.durable then sync
  return metadata

def put (key : String) (bytes : Bytes) : StoreProgram StoredObjectMetadata :=
  store.writeObject key (oneChunk bytes)

def putStream (key : String) (chunks : ByteSource) : StoreProgram StoredObjectMetadata :=
  store.writeObject key chunks

/-- Remove an object; returns whether it existed. -/
def remove (key : String) : StoreProgram Bool := do
  Program.ofExcept (assertValidKey key)
  let removed ← tryCatch (do
      Program.transaction none (unlinkObject key)
      return true) fun cause =>
    if isENOENT cause then pure false
    else throw (.storage .ioFailed s!"Failed to remove object {key}: {errorText cause}")
  let _ ← (Program.transaction none (unlinkSidecar key)).attempt
  if removed && store.durable then sync
  return removed

end FsObjectStore

end MailHub.Storage
