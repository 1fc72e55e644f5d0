import MailHub.Ordering.Slices
import MailHub.Sync.Backfill

/-!
# Polls

A poll imports the arrivals above the scanned range through the bound that it captured, marks the
occurrences that the server no longer has as expunged, and refreshes flags. The rows of a folder
are read in pages, each page above the newest UID of the one before; every commit rechecks the
generation under the folder lock.
-/

namespace MailHub.FolderSync

open Relational Interleaving Ordering

open SyncProgram (query commit)

/-! ## Outcomes -/

/-- A part of a poll either applied or found the generation changed. -/
inductive PassOutcome (α : Type)
  | ok (result : α)
  | generationChanged (recorded observed : ℕ)
  deriving DecidableEq, Repr

/-- What one poll did. -/
inductive PollOutcome
  | polled (folderId : Uuid) (uidvalidity bound found imported skipped flagsObserved flagsChanged
      expunged : ℕ)
  | generationChanged (folderId : Uuid) (recorded observed : ℕ)
  | uninitialized (folderId : Uuid)
  deriving DecidableEq, Repr

/-- What the arrivals of one poll came to. -/
structure ArrivalCounts where
  bound : ℕ
  found : ℕ
  imported : ℕ
  skipped : ℕ
  deriving DecidableEq, Repr

/-- One flag observation for one occurrence. -/
structure FlagChange where
  occurrenceId : Uuid
  unread : Bool
  flagged : Bool
  deriving DecidableEq, Repr

/-- How many of the answers were observations, and how many of them changed a row. -/
structure FlagCounts where
  observed : ℕ
  changed : ℕ
  deriving DecidableEq, Repr

/-- The most occurrence identifiers that one statement binds. -/
def occurrenceSlice : ℕ := 5000

section

variable (s : SyncServices) (accountId folderId : Uuid) (generation : ℕ)

/-! ## Pages -/

/-- The rows of one folder generation above a UID, in the order of their UIDs. -/
def rowsAbove (uidAfter : ℕ) (db : Database) : List MessageOccurrence :=
  (db.messageOccurrences.select fun o => o.accountId == accountId && o.folderId == folderId &&
    o.uidvalidity == generation && uidAfter < o.uid).insertionSort (·.uid ≤ ·.uid)

/-- One page of the active rows of one folder generation. -/
def activePage (uidAfter : ℕ) (db : Database) : List MessageOccurrence :=
  ((rowsAbove accountId folderId generation uidAfter db).filter (·.isActive)).take s.flagBatch

/-- The newest UID of a page. -/
def lastUid (page : List MessageOccurrence) : ℕ := (page.getLast?.map (·.uid)).getD 0

/-! ## Arrivals -/

/-- The row of a folder after a batch of arrivals. -/
def scannedRow (scanned : ℕ) (row : Folder) : Folder := { row with arrivalScannedUid := scanned }

theorem scannedRow_id (scanned : ℕ) (row : Folder) : (scannedRow scanned row).id = row.id := rfl

/-- Commit one batch of arrivals with the checkpoint that it covers. -/
def commitArrivals (covered : ℕ) (newIds : ℕ → ImportIds) (records : List MailboxHeaders) :
    Tx (Option ImportCounts) := do
  let locked ← lockFolder accountId folderId
  if locked.uidvalidity ≠ some generation then
    return none
  let counts ← importBatch s accountId folderId generation newIds records
  let scanned := max locked.arrivalScannedUid covered
  updateFolder folderId (scannedRow scanned) (scannedRow_id scanned)
  return some counts

/-- Import the windows of the arrival range one after the other; the last one carries the bound. -/
def importWindows (bound : ℕ) :
    List (List ℕ) → ArrivalCounts → SyncProgram (PassOutcome ArrivalCounts)
  | [], counts => return .ok counts
  | window :: rest, counts => do
      let records ← SyncProgram.fetchHeaders window
      let recheck ← SyncProgram.revalidate
      if recheck.uidValidity ≠ generation then
        return .generationChanged generation recheck.uidValidity
      let covered := if rest = [] then bound else window.getLast?.getD 0
      let newIds ← SyncProgram.generateIds
      match ← commit (.arrivals folderId)
          (commitArrivals s accountId folderId generation covered newIds records) with
      | none =>
          let moved ← loadFolder accountId folderId
          return .generationChanged generation (moved.uidvalidity.getD generation)
      | some committed =>
          importWindows bound rest { counts with
            found := counts.found + window.length
            imported := counts.imported + committed.imported
            skipped := counts.skipped + committed.skipped }

/-- The arrivals of a range in ascending windows; a range without any still needs one commit. -/
def arrivalWindows (uids : List ℕ) : List (List ℕ) :=
  match slices s.arrivalBatch (uids.insertionSort (· ≤ ·)) with
  | [] => [[]]
  | windows => windows

/-- Import the arrivals above the scanned range through the captured bound. -/
def importArrivals (folder : Folder) (uidNext : ℕ) : SyncProgram (PassOutcome ArrivalCounts) := do
  let bound := uidNext - 1
  if bound ≤ folder.arrivalScannedUid then
    return .ok ⟨bound, 0, 0, 0⟩
  let uids ← SyncProgram.searchUids (folder.arrivalScannedUid + 1) bound
  importWindows s accountId folderId generation bound (arrivalWindows s uids) ⟨bound, 0, 0, 0⟩

/-! ## Expunges -/

/-- The active rows inside the snapshot that it does not list. -/
def absentRows (bound : ℕ) (present : List ℕ) (page : List MessageOccurrence) : List Uuid :=
  (page.filter fun row => row.uid ≤ bound ∧ row.uid ∉ present).map (·.id)

/-- Compare the pages of active rows with a snapshot of the server. -/
def findAbsent (bound : ℕ) (present : List ℕ) : ℕ → ℕ → SyncProgram (List Uuid)
  | 0, _ => Program.halt
  | pages + 1, uidAfter => do
      let page ← query (activePage s accountId folderId generation uidAfter)
      if page = [] then
        return []
      let rest ← findAbsent bound present pages (lastUid page)
      return absentRows bound present page ++ rest

/-- Mark one slice of rows expunged; the result is the number of rows that were not yet. -/
def expungeSlice (now : Time) (slice : List Uuid) : Tx ℕ := do
  let db ← get
  let marked := db.messageOccurrences.select fun o => o.id ∈ slice && o.expungedAt.isNone
  set { db with
    messageOccurrences := db.messageOccurrences.update
      (fun o => o.id ∈ slice && o.expungedAt.isNone)
      (fun o => { o with expungedAt := some now }) fun _ => rfl }
  return marked.length

/-- Mark rows expunged, slice by slice. -/
def expungeRows (now : Time) (ids : List Uuid) : Tx ℕ :=
  (slices occurrenceSlice ids).foldlM (fun updated slice => do
    return updated + (← expungeSlice now slice)) 0

/-- Commit the expunges of one poll. -/
def commitExpunges (now : Time) (absentIds : List Uuid) : Tx (Option ℕ) := do
  let locked ← lockFolder accountId folderId
  if locked.uidvalidity ≠ some generation then
    return none
  return some (← expungeRows now absentIds)

/-- Mark the active rows that the server no longer has. -/
def markExpunges : SyncProgram (PassOutcome ℕ) := do
  let bound := (← SyncProgram.revalidate).uidNext - 1
  let present ← if bound ≥ 1 then SyncProgram.searchUids 1 bound else pure []
  let absentIds ← findAbsent s accountId folderId generation bound present s.pages 0
  if absentIds = [] then
    return .ok 0
  let recheck ← SyncProgram.revalidate
  if recheck.uidValidity ≠ generation then
    return .generationChanged generation recheck.uidValidity
  let now ← SyncProgram.now
  match ← commit (.expunges folderId)
      (commitExpunges accountId folderId generation now absentIds) with
  | none => return .generationChanged generation generation
  | some count => return .ok count

/-! ## Flags -/

/-- The answer that a batch got for a UID; of several the last. -/
def answerFor (answers : List ActionMailboxFlags) (uid : ℕ) : Option ActionMailboxFlags :=
  answers.reverse.find? (·.uid == uid)

/-- The rows of a batch that got an answer, and those whose flags the answer changes. -/
def observedIn (answers : List ActionMailboxFlags) (batch : List MessageOccurrence) :
    List MessageOccurrence :=
  batch.filter fun row => (answerFor answers row.uid).isSome

def flagChanges (answers : List ActionMailboxFlags) (batch : List MessageOccurrence) :
    List FlagChange :=
  batch.filterMap fun row =>
    match answerFor answers row.uid with
    | none => none
    | some answer =>
        if answer.unread ≠ row.unread ∨ answer.flagged ≠ row.flagged then
          some ⟨row.id, answer.unread, answer.flagged⟩
        else none

/-- The observation for a row among the changes of a batch. -/
def changeFor (changes : List FlagChange) (o : MessageOccurrence) : Option FlagChange :=
  changes.find? (·.occurrenceId == o.id)

/-- A row with an observation written to it. -/
def observeRow (changes : List FlagChange) (o : MessageOccurrence) : MessageOccurrence :=
  match changeFor changes o with
  | none => o
  | some change => { o with
      unread := change.unread
      flagged := change.flagged
      revision := o.revision + 1 }

theorem observeRow_key (changes : List FlagChange) (o : MessageOccurrence) :
    Keyed.key (observeRow changes o) = Keyed.key o := by
  unfold observeRow
  split <;> rfl

/-- Commit the changes of one batch; rows that are no longer active are left alone. -/
def commitFlags (changes : List FlagChange) : Tx (Option ℕ) := do
  let locked ← lockFolder accountId folderId
  if locked.uidvalidity ≠ some generation then
    return none
  let db ← get
  let written := db.messageOccurrences.select fun o => o.isActive && (changeFor changes o).isSome
  set { db with
    messageOccurrences := db.messageOccurrences.update
      (fun o => o.isActive && (changeFor changes o).isSome) (observeRow changes)
      (observeRow_key changes) }
  return some written.length

/-- Refresh the flags page by page. -/
def refreshPages : ℕ → ℕ → FlagCounts → SyncProgram (PassOutcome FlagCounts)
  | 0, _, _ => Program.halt
  | pages + 1, uidAfter, counts => do
      let batch ← query (activePage s accountId folderId generation uidAfter)
      if batch = [] then
        return .ok counts
      let answers ← SyncProgram.fetchFlags (batch.map (·.uid))
      let observed := counts.observed + (observedIn answers batch).length
      let changes := flagChanges answers batch
      if changes = [] then
        refreshPages pages (lastUid batch) ⟨observed, counts.changed⟩
      else
        let recheck ← SyncProgram.revalidate
        if recheck.uidValidity ≠ generation then
          return .generationChanged generation recheck.uidValidity
        match ← commit (.flags folderId) (commitFlags accountId folderId generation changes) with
        | none => return .generationChanged generation generation
        | some applied => refreshPages pages (lastUid batch) ⟨observed, counts.changed + applied⟩

/-- Refresh the observed flags of the active rows. -/
def refreshFlags : SyncProgram (PassOutcome FlagCounts) :=
  refreshPages s accountId folderId generation s.pages 0 ⟨0, 0⟩

end

/-! ## One poll -/

section

variable (s : SyncServices) (accountId folderId : Uuid)

/-- The poll of an initialized folder: arrivals, expunges, then flags. -/
def pollGeneration (folder : Folder) (mailbox : SelectedFolder) (generation : ℕ) :
    SyncProgram PollOutcome := do
  match ← importArrivals s accountId folderId generation folder mailbox.uidNext with
  | .generationChanged recorded observed => return .generationChanged folderId recorded observed
  | .ok arrivals =>
  match ← markExpunges s accountId folderId generation with
  | .generationChanged recorded observed => return .generationChanged folderId recorded observed
  | .ok expunged =>
  match ← refreshFlags s accountId folderId generation with
  | .generationChanged recorded observed => return .generationChanged folderId recorded observed
  | .ok flags =>
      commit (.event folderId) (recordFolderEvent folderId "sync.folder_polled")
      return .polled folderId generation arrivals.bound arrivals.found arrivals.imported
        arrivals.skipped flags.observed flags.changed expunged

/-- Poll one folder. -/
def pollFolder : SyncProgram PollOutcome := do
  let folder ← loadFolder accountId folderId
  let mailbox ← SyncProgram.select accountId folder.name
  match folder.uidvalidity with
  -- first contact belongs to backfill
  | none => return .uninitialized folderId
  | some recorded =>
      if recorded ≠ mailbox.uidValidity then
        return .generationChanged folderId recorded mailbox.uidValidity
      if folder.backfillBeforeUid.isNone then
        return .uninitialized folderId
      pollGeneration s accountId folderId folder mailbox recorded

end

end MailHub.FolderSync
