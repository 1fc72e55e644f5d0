import MailHub.Sync.Mailbox

/-!
# Mailbox sessions

Folder synchronization reads one mailbox session and commits what it read to the rows of its
folder. The services share the requests to the session, the locked folder row and the import of a
batch of header records.
-/

namespace MailHub.FolderSync

open Relational Interleaving

/-! ## Requests -/

/-- One request of folder synchronization to a mailbox session, to the clock or to the process. -/
inductive SyncCall
  /-- The clock. -/
  | now
  /-- The identifiers and insertion times that the database will generate. -/
  | generateIds
  /-- Whether the cycle was told to stop. -/
  | aborted
  /-- Whether the poll interval of a folder has elapsed. -/
  | pollDue (folderId : Uuid)
  /-- Whether the inventory interval of a folder has elapsed. -/
  | inventoryDue (folderId : Uuid)
  /-- Selects a folder of an account. -/
  | select (accountId : Uuid) (folder : String)
  /-- Selects the current folder again. -/
  | revalidate
  | searchUids (low high : ℕ)
  | fetchHeaders (uids : List ℕ)
  | fetchFlags (uids : List ℕ)
  deriving DecidableEq, Repr

/-- The type of the answer to each request. -/
def SyncCall.Answer : SyncCall → Type
  | now => Time
  | generateIds => ℕ → ImportIds
  | aborted | pollDue _ | inventoryDue _ => Bool
  | select .. | revalidate => SelectedFolder
  | searchUids .. => List ℕ
  | fetchHeaders _ => List MailboxHeaders
  | fetchFlags _ => List ActionMailboxFlags

/-- The transactions of folder synchronization that a specification names. -/
inductive SyncTag
  /-- The first contact of a folder, with the generation that was selected. -/
  | contact (folderId : Uuid) (uidvalidity : ℕ)
  /-- A folder is closed out. -/
  | complete (folderId : Uuid)
  | window (folderId : Uuid)
  | arrivals (folderId : Uuid)
  | expunges (folderId : Uuid)
  | flags (folderId : Uuid)
  | inventory (folderId : Uuid)
  | reset (folderId : Uuid) (recorded observed : ℕ)
  /-- A milestone or an observed generation change is recorded. -/
  | event (folderId : Uuid)
  deriving DecidableEq, Repr

/-- Folder synchronization, as programs on the database. -/
abbrev syncSignature : Signature where
  Store := Database
  Failure := Failure
  Tag := SyncTag
  Call := SyncCall
  Answer := SyncCall.Answer

/-- An operation of folder synchronization. -/
abbrev SyncProgram := Program syncSignature

namespace SyncProgram

variable {α : Type}

/-- A computation that may fail. -/
def lift (r : Except Failure α) : SyncProgram α := Program.ofExcept r

/-- Run one transaction without a name. -/
def transact (t : Tx α) : SyncProgram α := Program.transaction none t

/-- Run one transaction with a name. -/
def commit (tag : SyncTag) (t : Tx α) : SyncProgram α :=
  Program.transaction (S := syncSignature) (some tag) t

/-- Read the database outside any transaction. -/
def query (f : Database → α) : SyncProgram α := Program.read f

/-- Send one request and wait for its answer. -/
def ask (c : SyncCall) : SyncProgram c.Answer := Program.request (S := syncSignature) c

def now : SyncProgram Time := ask .now

def generateIds : SyncProgram (ℕ → ImportIds) := ask .generateIds

def aborted : SyncProgram Bool := ask .aborted

def pollDue (folderId : Uuid) : SyncProgram Bool := ask (.pollDue folderId)

def inventoryDue (folderId : Uuid) : SyncProgram Bool := ask (.inventoryDue folderId)

def select (accountId : Uuid) (folder : String) : SyncProgram SelectedFolder :=
  ask (.select accountId folder)

def revalidate : SyncProgram SelectedFolder := ask .revalidate

def searchUids (low high : ℕ) : SyncProgram (List ℕ) := ask (.searchUids low high)

def fetchHeaders (uids : List ℕ) : SyncProgram (List MailboxHeaders) := ask (.fetchHeaders uids)

def fetchFlags (uids : List ℕ) : SyncProgram (List ActionMailboxFlags) := ask (.fetchFlags uids)

end SyncProgram

open SyncProgram (lift query)

/-! ## Services -/

/-- The synchronization services of one process, with the bounds that their constructors check. -/
structure SyncServices where
  /-- The normalization of one header block. -/
  parseHeaderBlock : Bytes → ImportedHeaders
  /-- The most UIDs that one backfill window covers. -/
  windowSize : ℕ
  /-- The most occurrences in one flag fetch. -/
  flagBatch : ℕ
  /-- The most UIDs that one arrival import fetches and commits. -/
  arrivalBatch : ℕ
  /-- The most missed UIDs that one inventory imports. -/
  repairLimit : ℕ
  /-- The most windows that one cycle fetches for one folder. -/
  batchesPerFolder : ℕ
  /-- The pages after which a worker that still reads counts as dead. -/
  pages : ℕ
  windowSize_pos : 0 < windowSize
  flagBatch_pos : 0 < flagBatch
  arrivalBatch_pos : 0 < arrivalBatch
  repairLimit_pos : 0 < repairLimit
  batchesPerFolder_pos : 0 < batchesPerFolder

/-! ## Folder rows -/

def folderMissing : Failure :=
  .sync .notFound "No folder of this account exists with that identifier."

/-- One folder of one account. -/
def findFolder (accountId folderId : Uuid) (db : Database) : Option Folder :=
  (db.folders.find? folderId).filter (·.accountId == accountId)

/-- Read one folder of one account. -/
def loadFolder (accountId folderId : Uuid) : SyncProgram Folder := do
  match ← query (findFolder accountId folderId) with
  | some row => return row
  | none => throw folderMissing

/-- Lock one folder row for a checkpoint write. -/
def lockFolder (accountId folderId : Uuid) : Tx Folder := do
  match findFolder accountId folderId (← get) with
  | some row => return row
  | none => throw folderMissing

/-- Write columns of one folder row. -/
def updateFolder (folderId : Uuid) (f : Folder → Folder) (hf : ∀ row, (f row).id = row.id) :
    Tx Unit :=
  modify fun db => { db with folders := db.folders.update (·.id == folderId) f hf }

/-- Record one folder synchronization milestone. -/
def recordFolderEvent (folderId : Uuid) (type : String) : Tx Unit :=
  Tx.recordEvent .system type "folder" folderId

/-! ## Importing a batch -/

/-- What the import of one batch did, with the identifiers of its new messages. -/
structure ImportCounts where
  imported : ℕ
  skipped : ℕ
  identifiers : List String
  deriving DecidableEq, Repr

/-- Count one record. -/
def ImportCounts.add (counts : ImportCounts) : Bool × Option String → ImportCounts
  | (true, identifier) => { counts with
      imported := counts.imported + 1
      identifiers := counts.identifiers ++ identifier.toList }
  | (false, _) => { counts with skipped := counts.skipped + 1 }

section

variable (s : SyncServices) (accountId folderId : Uuid) (uidvalidity : ℕ)

/-- Import one record; a row identifier that is taken breaks the primary key. -/
def importRecord (ids : ImportIds) (record : MailboxHeaders) : Tx (Bool × Option String) := do
  let taken ← Tx.read fun db => db.messageOccurrences.rows.any (·.id == ids.occurrenceId)
  let outcome ←
    importHeaderRecord s.parseHeaderBlock accountId folderId uidvalidity ids record
  if outcome.1 && taken then
    throw (.uniqueViolation "message_occurrences_pkey")
  return outcome

/-- Import the records of one batch from the position `n` on, after what was counted before. -/
def importFrom (newIds : ℕ → ImportIds) :
    ℕ → ImportCounts → List MailboxHeaders → Tx ImportCounts
  | _, counts, [] => return counts
  | n, counts, record :: rest => do
      let outcome ← importRecord s accountId folderId uidvalidity (newIds n) record
      importFrom newIds (n + 1) (counts.add outcome) rest

/-- Import one batch and mark its thread jobs with one call. -/
def importBatch (newIds : ℕ → ImportIds) (records : List MailboxHeaders) : Tx ImportCounts := do
  let counts ← importFrom s accountId folderId uidvalidity newIds 0 ⟨0, 0, []⟩ records
  if counts.identifiers ≠ [] then
    markThreadJobsDirty accountId ⟨[], counts.identifiers.map some⟩
  return counts

end

end MailHub.FolderSync
