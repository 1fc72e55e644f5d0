import MailHub.Interleaving.Safety
import MailHub.Sync.Runner

/-!
# Synchronization workers

Any number of workers synchronize folders on one database while the servers change. The record of a
run says which generations a folder row has left, which header records each worker has fetched
under which generation, and which first contact was refused because another worker had made it.
-/

namespace MailHub.FolderSync

open Relational Interleaving Ordering

/-! ## Transactions of other services -/

/-- What folder synchronization keeps on a folder row. -/
def checkpointsOf (f : Folder) : Folder := { f with role := none }

/-- A folder that no worker has contacted. -/
structure IsUntouched (f : Folder) : Prop where
  uidvalidity : f.uidvalidity = none
  backfillBeforeUid : f.backfillBeforeUid = none
  backfillComplete : f.backfillComplete = false
  arrivalScannedUid : f.arrivalScannedUid = 0

/-- An occurrence row later on: it stays at its place, and marks are never taken back. -/
structure RowLater (o o' : MessageOccurrence) : Prop where
  id : o'.id = o.id
  accountId : o'.accountId = o.accountId
  folderId : o'.folderId = o.folderId
  uidvalidity : o'.uidvalidity = o.uidvalidity
  uid : o'.uid = o.uid
  invalidated : o.invalidatedAt.isSome → o'.invalidatedAt.isSome
  expunged : o.expungedAt.isSome → o'.expungedAt.isSome

theorem RowLater.refl (o : MessageOccurrence) : RowLater o o :=
  ⟨rfl, rfl, rfl, rfl, rfl, fun h => h, fun h => h⟩

theorem RowLater.trans {o₁ o₂ o₃ : MessageOccurrence} (h₁ : RowLater o₁ o₂)
    (h₂ : RowLater o₂ o₃) : RowLater o₁ o₃ :=
  ⟨h₂.id.trans h₁.id, h₂.accountId.trans h₁.accountId, h₂.folderId.trans h₁.folderId,
    h₂.uidvalidity.trans h₁.uidvalidity, h₂.uid.trans h₁.uid,
    fun h => h₂.invalidated (h₁.invalidated h), fun h => h₂.expunged (h₁.expunged h)⟩

theorem RowLater.key {o o' : MessageOccurrence} (h : RowLater o o') :
    Keyed.key o' = Keyed.key o := by
  change (o'.folderId, o'.uidvalidity, o'.uid) = (o.folderId, o.uidvalidity, o.uid)
  rw [h.folderId, h.uidvalidity, h.uid]

/-- An invalidated row stays so. -/
theorem RowLater.valid {o o' : MessageOccurrence} (h : RowLater o o')
    (hnone : o'.invalidatedAt = none) : o.invalidatedAt = none := by
  by_contra hne
  have hsome := h.invalidated (Option.isSome_iff_ne_none.mpr hne)
  simp [hnone] at hsome

/-- What marks an occurrence as no longer on the server is never taken back. -/
theorem RowLater.active {o o' : MessageOccurrence} (h : RowLater o o') (ho : o'.isActive = true) :
    o.isActive = true := by
  simp only [MessageOccurrence.isActive, Bool.and_eq_true, Option.isNone_iff_eq_none] at ho ⊢
  refine ⟨?_, ?_⟩
  · by_contra hne
    have hsome := h.expunged (Option.isSome_iff_ne_none.mpr hne)
    simp [ho.1] at hsome
  · by_contra hne
    have hsome := h.invalidated (Option.isSome_iff_ne_none.mpr hne)
    simp [ho.2] at hsome

/-- A transaction of another service: it may assign roles, add folders, move occurrences to other
messages, write flags and mark occurrences expunged, but it leaves checkpoints and places alone. -/
structure Elsewhere (db db' : Database) : Prop where
  folders : ∀ f ∈ db.folders, ∃ f' ∈ db'.folders, checkpointsOf f' = checkpointsOf f
  folders_from : ∀ f' ∈ db'.folders,
    (∃ f ∈ db.folders, checkpointsOf f' = checkpointsOf f) ∨ IsUntouched f'
  rows : ∀ o ∈ db.messageOccurrences, ∃ o' ∈ db'.messageOccurrences, RowLater o o'
  rows_from : ∀ o' ∈ db'.messageOccurrences, ∃ o ∈ db.messageOccurrences,
    RowLater o o' ∧ o'.invalidatedAt = o.invalidatedAt

/-! ## The record of a run -/

/-- The place of a folder: its account and its name. -/
abbrev Place := Uuid × String

/-- The place of a folder row. -/
def placeOf (f : Folder) : Place := (f.accountId, f.name)

/-- What a search was asked and what it was answered, with the selection before it. -/
structure Snapshot where
  selected : SelectedFolder
  low : ℕ
  high : ℕ
  uids : List ℕ
  deriving DecidableEq, Repr

/-- One mailbox session. -/
structure SyncSession where
  /-- The folder that is selected. -/
  folder : Option Place
  /-- What the last selection answered. -/
  selected : Option SelectedFolder
  /-- The last search. -/
  searched : Option Snapshot
  /-- Every header record that was answered, with the place and the generation it came from. -/
  fetched : List (Place × ℕ × MailboxHeaders)

/-- The servers, the sessions of the workers, and what is recorded about folder rows. -/
structure MailServers where
  folders : Place → ServerFolder
  sessions : ℕ → SyncSession
  /-- The generations that a folder row has left. -/
  left : Uuid → List ℕ
  /-- The last first contact of a worker, if it found the folder initialized under another
  generation: the folder, the generation that was selected and the one that was found. -/
  refused : ℕ → Option (Uuid × ℕ × ℕ)

namespace MailServers

variable (o : MailServers)

/-- The collections at a place. -/
def succession (place : Place) : Succession ℕ := (o.folders place).succession

/-- Change the session of one worker. -/
def withSession (i : ℕ) (session : SyncSession) : MailServers :=
  { o with sessions := Function.update o.sessions i session }

/-- The mailbox that a worker has selected. -/
def selectedBox (i : ℕ) : Option (Place × Mailbox) := do
  let place ← (o.sessions i).folder
  let box ← (o.folders place).box
  return (place, box)

/-- The servers after a selection. -/
def respondSelect (i : ℕ) (place : Place) (state : SelectedFolder) : Option MailServers :=
  match (o.folders place).box with
  | some box =>
      if state = box.state then
        some (o.withSession i
          { o.sessions i with folder := some place, selected := some state })
      else none
  | none => none

/-- The servers after one answer to worker `i`, or `none` when it cannot be given. A read is
answered from the mailbox that has the selected name at that moment; every request may fail. -/
def respond (i : ℕ) : (c : SyncCall) → Except Failure c.Answer → Option MailServers
  | .select accountId folder, .ok state => o.respondSelect i (accountId, folder) state
  | .revalidate, .ok state =>
      (o.sessions i).folder.bind fun place => o.respondSelect i place state
  | .searchUids low high, .ok (uids : List ℕ) =>
      (o.selectedBox i).bind fun (_, box) =>
        if uids.Perm (box.uidsBetween low high) then
          some (o.withSession i
            { o.sessions i with
              searched := (o.sessions i).selected.map (⟨·, low, high, uids⟩) })
        else none
  | .fetchHeaders uids, .ok (records : List MailboxHeaders) =>
      (o.selectedBox i).bind fun (place, box) =>
        if records.Perm (box.withUids uids) then
          some (o.withSession i { o.sessions i with
            fetched := (o.sessions i).fetched ++
              records.map fun record => (place, box.uidValidity, record) })
        else none
  | .fetchFlags uids, .ok (answers : List ActionMailboxFlags) =>
      (o.selectedBox i).bind fun (_, box) =>
        if answers.Perm ((box.withUids uids).map Mailbox.flagsOf) then some o else none
  | _, _ => some o

end MailServers

/-- The generation of a folder row. -/
def generationOf (folderId : Uuid) (db : Database) : Option ℕ :=
  (db.folders.find? folderId).bind (·.uidvalidity)

/-- The generations that a folder has left after a commit. -/
def leftAfter (db db' : Database) (left : Uuid → List ℕ) (folderId : Uuid) : List ℕ :=
  match generationOf folderId db with
  | some g => if generationOf folderId db' = some g then left folderId else g :: left folderId
  | none => left folderId

/-- The refused first contacts after a commit of worker `i`. -/
def refusedAfter (i : ℕ) (db : Database) (refused : ℕ → Option (Uuid × ℕ × ℕ)) :
    Option SyncTag → ℕ → Option (Uuid × ℕ × ℕ)
  | some (.contact folderId uidvalidity) =>
      Function.update refused i (((generationOf folderId db).filter (· ≠ uidvalidity)).map
        fun held => (folderId, uidvalidity, held))
  | _ => refused

/-- The record after a commit of worker `i`. -/
def MailServers.observe (i : ℕ) (tag : Option SyncTag) (db db' : Database) (o : MailServers) :
    MailServers :=
  { o with left := leftAfter db db' o.left, refused := refusedAfter i db o.refused tag }

theorem MailServers.observe_read (i : ℕ) (db : Database) (o : MailServers) :
    o.observe i none db db = o := by
  have hleft : leftAfter db db o.left = o.left := by
    funext folderId
    unfold leftAfter
    cases generationOf folderId db <;> simp
  simp [MailServers.observe, hleft, refusedAfter]

/-! ## The system -/

/-- One operation on the rows that folder synchronization shares with other services. -/
inductive SyncOp
  | runBatch (accountId folderId : Uuid)
  | pollFolder (accountId folderId : Uuid)
  | inventoryFolder (accountId folderId : Uuid)
  | synchronizeFolders (accountId : Uuid)
  /-- A transaction of another service. -/
  | elsewhere (f : Database → Database) (hf : ∀ db, Elsewhere db (f db))

/-- The program of one operation; its result goes back to the caller. -/
def SyncOp.run (s : SyncServices) : SyncOp → SyncProgram Unit
  | runBatch accountId folderId => do
      let _ ← FolderSync.runBatch s accountId folderId
  | pollFolder accountId folderId => do
      let _ ← FolderSync.pollFolder s accountId folderId
  | inventoryFolder accountId folderId => do
      let _ ← FolderSync.inventoryFolder s accountId folderId
  | synchronizeFolders accountId => FolderSync.synchronizeFolders s accountId
  | elsewhere f _ => SyncProgram.transact (modify f)

/-- Folder synchronization: every request may fail, and every transaction may meet a fault. -/
def syncSystem (s : SyncServices) : System syncSignature MailServers where
  Op := SyncOp
  program := SyncOp.run s
  Tick := Place × ServerEvent
  advance := fun (place, e) o =>
    ((o.folders place).after e).map fun folder =>
      { o with folders := Function.update o.folders place folder }
  respond := fun i c r o => o.respond i c r
  fault := Failure.isDatabaseFault
  observe := fun i tag db db' o => o.observe i tag db db'
  observe_read := fun i db o => o.observe_read i db
  retire := fun _ o => o

/-- The database and the servers. -/
abbrev SyncWorld := World syncSignature MailServers

end MailHub.FolderSync
