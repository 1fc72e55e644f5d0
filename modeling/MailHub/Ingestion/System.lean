import MailHub.Interleaving.Safety
import MailHub.Sync.Bodies
import Mathlib.Logic.Function.Basic

/-!
# Ingestion as a system

Any number of workers stage and apply originals on one database and one object store. A rename
changes the object of its key at once; the answers of a mail server are free, so a stream may be
truncated or changed. The object store records what each worker read from it last.
-/

namespace MailHub

open Relational Interleaving

/-! ## Locators -/

/-- Where a message marked fetched keeps its original, and the hash that it recorded. -/
structure Locator where
  storageKey : Option String
  sha256 : Option String
  deriving DecidableEq, Repr

/-- The locator of a message marked fetched. -/
def Message.locator (m : Message) : Option Locator :=
  if m.fetchedBody then some ⟨m.originalStorageKey, m.originalSha256⟩ else none

/-- The locators of the messages marked fetched. -/
def locators (db : Database) : Set Locator := { l | ∃ m ∈ db.messages, m.locator = some l }

/-! ## The system -/

/-- One operation of the ingestion. -/
inductive IngestOp
  | ingestOriginal (accountId messageId : Uuid) (bytes : Bytes)
  | fetchBody (accountId : Uuid) (pending : PendingBody)
  /-- A transaction of another service that marks no message fetched. -/
  | elsewhere (f : Database → Database) (hf : ∀ db, locators (f db) ⊆ locators db)

/-- The program of one operation; its result goes back to the caller. -/
def IngestOp.run (s : IngestionService) : IngestOp → IngestProgram Unit
  | ingestOriginal accountId messageId bytes => do
      let _ ← s.ingestOriginal accountId messageId bytes
  | fetchBody accountId pending => do let _ ← MailHub.fetchBody s accountId pending
  | elsewhere f _ => IngestProgram.transact (modify f)

/-- The object store. -/
structure ObjectStore where
  objects : String → Option Bytes
  /-- The metadata files beside the objects. -/
  sidecars : String → Option StoredObject
  /-- The object that a worker read last, with its key. -/
  reads : ℕ → Option (String × Bytes)

/-- The empty object store. -/
def ObjectStore.empty : ObjectStore := ⟨fun _ => none, fun _ => none, fun _ => none⟩

/-- The object store after one answer to worker `i`, or `none` when it cannot be given. -/
def ObjectStore.respond (i : ℕ) (o : ObjectStore) : (c : IngestCall) →
    Except Failure (IngestCall.Answer c) → Option ObjectStore
  | .rename key bytes, .ok _ =>
      some { o with objects := Function.update o.objects key (some bytes) }
  | .writeSidecar key metadata, .ok _ =>
      some { o with sidecars := Function.update o.sidecars key (some metadata) }
  | .storageGet key, .ok (bytes : Bytes) =>
      if o.objects key = some bytes then
        some { o with reads := Function.update o.reads i (some (key, bytes)) }
      else none
  | _, _ => some o

/-- The failures that a transaction may meet: a database fault, or a race on a unique index that a
concurrent transaction wins. -/
def ingestFault (e : Failure) : Bool := e.isDatabaseFault || e.isUniqueViolation

/-- The ingestion service: every request may fail, and a server may answer anything. -/
def ingestSystem (s : IngestionService) : System ingestSignature ObjectStore where
  Op := IngestOp
  program := IngestOp.run s
  Tick := Empty
  advance := fun t => nomatch t
  respond := fun i c r o => o.respond i c r
  fault := ingestFault
  observe := fun _ _ _ _ o => o
  observe_read := fun _ _ _ => rfl
  retire := fun _ o => o

/-- The database and the object store. -/
abbrev IngestWorld := World ingestSignature ObjectStore

end MailHub
