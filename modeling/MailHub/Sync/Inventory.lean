import MailHub.Sync.Steady

/-!
# Folder reconciliation

A generation change resets one folder: the occurrences of the old generation are invalidated, both
checkpoints return to their first-contact state, and the next backfill walks the new generation. A
reset applies only from the generation that its caller recorded. The nightly inventory compares one
full UID set with the rows of the folder, marks expunges, and imports missed UIDs inside the range
that the checkpoints cover.
-/

namespace MailHub.FolderSync

open Relational Interleaving

open SyncProgram (query commit)

/-! ## Outcomes -/

/-- What one generation reset did. -/
inductive ResetOutcome
  | reset (folderId : Uuid) (recorded observed invalidated : ℕ)
  | alreadyCurrent (folderId : Uuid) (uidvalidity : ℕ)
  /-- The folder no longer holds the recorded generation: another cycle moved it. -/
  | superseded (folderId : Uuid) (uidvalidity : ℕ)
  | uninitialized (folderId : Uuid)
  deriving DecidableEq, Repr

/-- What one inventory did. -/
inductive InventoryOutcome
  | inventoried (folderId : Uuid) (uidvalidity present active expunged repaired skipped
      pendingRepairs : ℕ)
  | generationChanged (folderId : Uuid) (recorded observed : ℕ)
  | uninitialized (folderId : Uuid)
  deriving DecidableEq, Repr

/-- The rows that one inventory page reads. -/
def inventoryPage : ℕ := 5000

/-! ## Resets -/

section

variable (accountId folderId : Uuid)

/-- The rows of a folder generation that are not invalidated. -/
def isValidIn (uidvalidity : ℕ) (o : MessageOccurrence) : Bool :=
  o.accountId == accountId && o.folderId == folderId && o.uidvalidity == uidvalidity &&
    o.invalidatedAt.isNone

/-- The row of a folder after a reset to another generation. -/
def resetRow (observed : ℕ) (row : Folder) : Folder :=
  { row with
    uidvalidity := some observed
    backfillUpperUid := none
    backfillBeforeUid := none
    backfillComplete := false
    arrivalScannedUid := 0 }

theorem resetRow_id (observed : ℕ) (row : Folder) : (resetRow observed row).id = row.id := rfl

/-- Apply one observed generation change, unless the folder left the recorded generation. -/
def resetFolderGeneration (recorded observed : ℕ) (now : Time) : Tx ResetOutcome := do
  let locked ← lockFolder accountId folderId
  match locked.uidvalidity with
  | none => return .uninitialized folderId
  | some held =>
      if held = observed then
        return .alreadyCurrent folderId observed
      if held ≠ recorded then
        return .superseded folderId held
      let db ← get
      let invalidated := db.messageOccurrences.select (isValidIn accountId folderId held)
      set { db with
        messageOccurrences := db.messageOccurrences.update (isValidIn accountId folderId held)
          (fun o => { o with invalidatedAt := some now }) fun _ => rfl }
      updateFolder folderId (resetRow observed) (resetRow_id observed)
      recordFolderEvent folderId "sync.folder_generation_reset"
      return .reset folderId held observed invalidated.length

end

/-! ## Inventories -/

/-- What the pages of one inventory found: the UIDs of all rows, the active rows that the server
does not list, and the number of active rows. -/
structure InventoryScan where
  known : List ℕ
  absentIds : List Uuid
  active : ℕ
  deriving DecidableEq, Repr

/-- What one inventory transaction committed. -/
structure InventoryCommit where
  repaired : ℕ
  skipped : ℕ
  expunged : ℕ
  deriving DecidableEq, Repr

/-- Whether the checkpoints of a folder have promised to cover a UID. -/
def coveredRange (folder : Folder) (uid : ℕ) : Bool :=
  let upper := folder.backfillUpperUid.getD 0
  decide (upper < uid ∧ uid ≤ folder.arrivalScannedUid) ||
    folder.backfillComplete && decide (uid ≤ max upper folder.arrivalScannedUid)

section

variable (s : SyncServices) (accountId folderId : Uuid)

/-- One page of the rows of one folder generation. -/
def rowPage (generation uidAfter : ℕ) (db : Database) : List MessageOccurrence :=
  (rowsAbove accountId folderId generation uidAfter db).take inventoryPage

/-- Compare the pages of rows with a snapshot of the server. -/
def scanRows (generation bound : ℕ) (present : List ℕ) : ℕ → ℕ → SyncProgram InventoryScan
  | 0, _ => Program.halt
  | pages + 1, uidAfter => do
      let page ← query (rowPage accountId folderId generation uidAfter)
      if page = [] then
        return ⟨[], [], 0⟩
      let active := page.filter (·.isActive)
      let rest ← scanRows generation bound present pages (lastUid page)
      return ⟨page.map (·.uid) ++ rest.known, absentRows bound present active ++ rest.absentIds,
        active.length + rest.active⟩

/-- Commit the repairs and the expunges of one inventory. -/
def commitInventory (generation : ℕ) (now : Time) (newIds : ℕ → ImportIds)
    (records : List MailboxHeaders) (absentIds : List Uuid) : Tx (Option InventoryCommit) := do
  let locked ← lockFolder accountId folderId
  if locked.uidvalidity ≠ some generation then
    return none
  let counts ← importBatch s accountId folderId generation newIds records
  let expunged ← expungeRows now absentIds
  recordFolderEvent folderId "sync.folder_inventory"
  return some ⟨counts.imported, counts.skipped, expunged⟩

/-- The inventory of an initialized folder. -/
def inventoryGeneration (folder : Folder) (mailbox : SelectedFolder) (generation : ℕ) :
    SyncProgram InventoryOutcome := do
  let bound := mailbox.uidNext - 1
  let present ← if bound ≥ 1 then SyncProgram.searchUids 1 bound else pure []
  let scan ← scanRows accountId folderId generation bound present s.pages 0
  let missed := (present.filter fun uid => uid ∉ scan.known ∧ coveredRange folder uid).insertionSort
    (· ≥ ·)
  let repairs := missed.take s.repairLimit
  let records ← if repairs = [] then pure [] else SyncProgram.fetchHeaders repairs
  let recheck ← SyncProgram.revalidate
  if recheck.uidValidity ≠ generation then
    return .generationChanged folderId generation recheck.uidValidity
  let newIds ← SyncProgram.generateIds
  let now ← SyncProgram.now
  match ← commit (.inventory folderId)
      (commitInventory s accountId folderId generation now newIds records scan.absentIds) with
  | none => return .generationChanged folderId generation generation
  | some committed =>
      return .inventoried folderId generation present.length scan.active committed.expunged
        committed.repaired committed.skipped (missed.length - repairs.length)

/-- Run one full inventory of one folder. -/
def inventoryFolder : SyncProgram InventoryOutcome := do
  let folder ← loadFolder accountId folderId
  let mailbox ← SyncProgram.select accountId folder.name
  match folder.uidvalidity with
  | none => return .uninitialized folderId
  | some recorded =>
      if recorded ≠ mailbox.uidValidity then
        return .generationChanged folderId recorded mailbox.uidValidity
      if folder.backfillBeforeUid.isNone then
        return .uninitialized folderId
      inventoryGeneration s accountId folderId folder mailbox recorded

end

end MailHub.FolderSync
