import MailHub.Sync.Sessions
import Mathlib.Data.List.Sort

/-!
# Backfill

The history of a folder is imported in bounded windows, newest first: one transaction commits the
rows of a window with the next exclusive boundary, so a restart repeats only the window that was
not committed. The generation is checked on every selection and again before every commit.
-/

namespace MailHub.FolderSync

open Relational Interleaving

open SyncProgram (lift query commit)

/-! ## Outcomes -/

/-- A folder with initialized checkpoints. -/
structure InitializedFolder where
  id : Uuid
  name : String
  uidvalidity : ℕ
  backfillUpperUid : ℕ
  backfillBeforeUid : ℕ
  backfillComplete : Bool
  deriving DecidableEq, Repr

/-- What one batch did. -/
inductive BackfillBatchOutcome
  /-- First contact. -/
  | initialized (folderId : Uuid) (uidvalidity upperUid beforeUid : ℕ) (complete : Bool)
  /-- One window was fetched and committed with its boundary. -/
  | imported (folderId : Uuid) (uidvalidity low high found imported skipped beforeUid : ℕ)
      (complete : Bool)
  | complete (folderId : Uuid)
  /-- The folder generation changed; nothing from this call was applied. -/
  | generationChanged (folderId : Uuid) (recorded observed : ℕ)
  deriving DecidableEq, Repr

/-- Record an observed generation change, then report it. -/
def generationChanged (folderId : Uuid) (recorded observed : ℕ) : Tx BackfillBatchOutcome := do
  recordFolderEvent folderId "sync.folder_generation_changed"
  return .generationChanged folderId recorded observed

/-! ## First contact -/

/-- Narrow a folder row to its initialized checkpoint fields. -/
def toInitialized (folder : Folder) : Except Failure InitializedFolder :=
  match folder.uidvalidity, folder.backfillUpperUid, folder.backfillBeforeUid with
  | some uidvalidity, some upper, some before =>
      .ok ⟨folder.id, folder.name, uidvalidity, upper, before, folder.backfillComplete⟩
  | _, _, _ => .error (.sync .invalidRequest (s!"Folder {folder.id} has incomplete backfill " ++
      "checkpoints; initialization writes them together."))

/-- What the first contact of a folder found. -/
inductive Initialization
  | generationChanged (recorded observed : ℕ)
  | initialized (fresh : Bool) (folder : InitializedFolder)
  deriving DecidableEq, Repr

/-- The row of a folder after its first contact. -/
def initializedRow (mailbox : SelectedFolder) (row : Folder) : Folder :=
  { row with
    uidvalidity := some mailbox.uidValidity
    backfillUpperUid := some (mailbox.uidNext - 1)
    -- exclusive bound above the newest UID; windows run below it
    backfillBeforeUid := some (mailbox.uidNext - 1 + 1)
    -- arrivals above the bound belong to the polls
    arrivalScannedUid := mailbox.uidNext - 1
    backfillComplete := mailbox.uidNext - 1 == 0 }

theorem initializedRow_id (mailbox : SelectedFolder) (row : Folder) :
    (initializedRow mailbox row).id = row.id := rfl

/-- Initialize the checkpoints of a folder, or take over what another worker committed first. -/
def initializeCheckpoints (folder : Folder) (mailbox : SelectedFolder) : Tx Initialization := do
  let locked ← lockFolder folder.accountId folder.id
  match locked.uidvalidity.filter (· ≠ mailbox.uidValidity) with
  | some held => return .generationChanged mailbox.uidValidity held
  | none =>
      if locked.uidvalidity.isSome ∧ locked.backfillBeforeUid.isSome then
        return .initialized false (← toInitialized locked)
      updateFolder folder.id (initializedRow mailbox) (initializedRow_id mailbox)
      recordFolderEvent folder.id "sync.backfill_initialized"
      return .initialized true (← toInitialized (initializedRow mailbox locked))

/-! ## Windows -/

section

variable (s : SyncServices) (accountId folderId : Uuid)

/-- The row of a folder that is closed out. -/
def closedRow (row : Folder) : Folder := { row with backfillComplete := true }

theorem closedRow_id (row : Folder) : (closedRow row).id = row.id := rfl

/-- The row of a folder after a window. -/
def windowRow (beforeUid : ℕ) (complete : Bool) (row : Folder) : Folder :=
  { row with backfillBeforeUid := some beforeUid, backfillComplete := complete }

theorem windowRow_id (beforeUid : ℕ) (complete : Bool) (row : Folder) :
    (windowRow beforeUid complete row).id = row.id := rfl

/-- Close a folder out once every range down to UID 1 is scanned. -/
def closeOut (mailbox : SelectedFolder) : Tx Unit := do
  let locked ← lockFolder accountId folderId
  if locked.uidvalidity = some mailbox.uidValidity ∧ locked.backfillComplete = false then
    updateFolder folderId closedRow closedRow_id
    recordFolderEvent folderId "sync.backfill_complete"

/-- Commit the records of one window with the boundary below it. -/
def commitWindow (mailbox : SelectedFolder) (low high found : ℕ) (newIds : ℕ → ImportIds)
    (records : List MailboxHeaders) : Tx BackfillBatchOutcome := do
  let locked ← lockFolder accountId folderId
  if locked.uidvalidity ≠ some mailbox.uidValidity then
    -- another cycle moved the folder: what it committed stands and is reported as observed
    let observed := locked.uidvalidity.getD mailbox.uidValidity
    return ← generationChanged folderId mailbox.uidValidity observed
  let counts ← importBatch s accountId folderId mailbox.uidValidity newIds records
  let beforeUid := min (locked.backfillBeforeUid.getD low) low
  let complete := decide (beforeUid ≤ 1) || locked.backfillComplete
  updateFolder folderId (windowRow beforeUid complete) (windowRow_id beforeUid complete)
  recordFolderEvent folderId
    (if complete then "sync.backfill_complete" else "sync.backfill_batch")
  return .imported folderId mailbox.uidValidity low high found counts.imported counts.skipped
    beforeUid complete

/-- Fetch and commit the window below the boundary. -/
def scanWindow (mailbox : SelectedFolder) (effective : InitializedFolder) :
    SyncProgram BackfillBatchOutcome := do
  if effective.backfillComplete then
    return .complete folderId
  let high := effective.backfillBeforeUid - 1
  if high < 1 then
    commit (.complete folderId) (closeOut accountId folderId mailbox)
    return .complete folderId
  let low := max 1 (high + 1 - s.windowSize)
  let uids ← SyncProgram.searchUids low high
  let ordered := uids.insertionSort (· ≥ ·)
  let records ← if ordered = [] then pure [] else SyncProgram.fetchHeaders ordered
  let recheck ← SyncProgram.revalidate
  if recheck.uidValidity ≠ mailbox.uidValidity then
    return ← commit (.event folderId)
      (generationChanged folderId mailbox.uidValidity recheck.uidValidity)
  let newIds ← SyncProgram.generateIds
  commit (.window folderId)
    (commitWindow s accountId folderId mailbox low high ordered.length newIds records)

/-- Run one bounded batch for one folder: initialize the checkpoints on first contact, or fetch and
commit the next window. -/
def runBatch : SyncProgram BackfillBatchOutcome := do
  let folder ← loadFolder accountId folderId
  let mailbox ← SyncProgram.select accountId folder.name
  match folder.uidvalidity.filter (· ≠ mailbox.uidValidity) with
  | some recorded =>
      commit (.event folderId) (generationChanged folderId recorded mailbox.uidValidity)
  | none =>
      if folder.backfillComplete then
        return .complete folderId
      if folder.uidvalidity.isNone ∨ folder.backfillBeforeUid.isNone then
        match ← commit (.contact folderId mailbox.uidValidity)
            (initializeCheckpoints folder mailbox) with
        | .generationChanged recorded observed =>
            commit (.event folderId) (generationChanged folderId recorded observed)
        | .initialized true effective =>
            return .initialized folderId effective.uidvalidity effective.backfillUpperUid
              effective.backfillBeforeUid effective.backfillComplete
        -- another worker initialized between the read and the lock; its values stand
        | .initialized false effective => scanWindow s accountId folderId mailbox effective
      else
        scanWindow s accountId folderId mailbox (← lift (toInitialized folder))

end

end MailHub.FolderSync
