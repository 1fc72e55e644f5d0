import MailHub.Sync.Inventory

/-!
# Folder cycles

One cycle of an account drives each folder through its backfill windows, one poll and one inventory
with a shared window budget. A detected generation change resets the folder, and what is left of
the budget backfills the new generation right away. A folder that fails is contained.
-/

namespace MailHub.FolderSync

open Relational Interleaving

open SyncProgram (query commit)

/-- Whether a folder still owes backfill windows. -/
def needsBackfill (folder : Folder) : Bool := folder.uidvalidity.isNone || !folder.backfillComplete

/-- Whether a batch ended the backfill of its folder. -/
def BackfillBatchOutcome.completes : BackfillBatchOutcome → Bool
  | .initialized _ _ _ _ done => done
  | .imported _ _ _ _ _ _ _ _ done => done
  | .complete _ | .generationChanged .. => false

section

variable (s : SyncServices) (accountId folderId : Uuid)

/-- Apply one folder generation reset; the recorded generation guards it. -/
def applyReset (recorded observed : ℕ) : SyncProgram Unit := do
  let now ← SyncProgram.now
  let _ ← commit (.reset folderId recorded observed)
    (resetFolderGeneration accountId folderId recorded observed now)

/-- Backfill a folder within a budget of windows; the result is the budget that is left. Only a
generation change loads the folder again: the loop goes on until a batch completes the folder. -/
def backfillWithin : ℕ → Folder → SyncProgram ℕ
  | 0, _ => return 0
  | budget + 1, current => do
      if !needsBackfill current then
        return budget + 1
      if ← SyncProgram.aborted then
        return budget + 1
      match ← runBatch s accountId folderId with
      | .generationChanged _ recorded observed =>
          applyReset accountId folderId recorded observed
          backfillWithin budget (← loadFolder accountId folderId)
      | outcome =>
          if outcome.completes then
            return budget
          backfillWithin budget current

/-- Backfill a folder that was just reset with the budget that the cycle has left. -/
def runResetBackfill (budget : ℕ) : SyncProgram Folder := do
  let current ← loadFolder accountId folderId
  let _ ← backfillWithin s accountId folderId budget current
  loadFolder accountId folderId

/-- Poll a folder that is due; the result is the folder as the cycle goes on with it. -/
def pollStage (budget : ℕ) (current : Folder) : SyncProgram Folder := do
  if ← SyncProgram.aborted then
    return current
  if current.uidvalidity.isNone then
    return current
  if !(← SyncProgram.pollDue folderId) then
    return current
  match ← pollFolder s accountId folderId with
  | .generationChanged _ recorded observed =>
      applyReset accountId folderId recorded observed
      runResetBackfill s accountId folderId budget
  | _ => return current

/-- Take the inventory of a folder whose history is imported when it is due. -/
def inventoryStage (budget : ℕ) (current : Folder) : SyncProgram Unit := do
  if ← SyncProgram.aborted then
    return
  if !current.backfillComplete then
    return
  if !(← SyncProgram.inventoryDue folderId) then
    return
  match ← inventoryFolder s accountId folderId with
  | .generationChanged _ recorded observed =>
      applyReset accountId folderId recorded observed
      let _ ← runResetBackfill s accountId folderId budget
  | _ => return

/-- Drive one folder through backfill, poll and inventory. -/
def synchronizeFolder (folder : Folder) : SyncProgram Unit := do
  let budget ← backfillWithin s accountId folderId s.batchesPerFolder folder
  let loaded ← loadFolder accountId folderId
  let current ← pollStage s accountId folderId budget loaded
  inventoryStage s accountId folderId budget current

/-- The folders of an account. -/
def accountFolders (db : Database) : List Folder := db.folders.select (·.accountId == accountId)

/-- The folder loop of one account cycle: one failing folder never stops the folders that follow. -/
def synchronizeFolders : SyncProgram Unit := do
  for folder in ← query (accountFolders accountId) do
    if ← SyncProgram.aborted then
      break
    let _ ← (synchronizeFolder s accountId folder.id folder).attempt

end

end MailHub.FolderSync
