import MailHub.Accounts.Folders
import MailHub.Actions.Service
import MailHub.Sync.Commits

/-!
# Neighbours of synchronization

The other services that write folders and occurrences: account imports and role choices, the
dispositions of actions, and the merges of ingestion. Each of their transactions leaves checkpoints
and places alone, so that the results about synchronization hold in their presence.
-/

namespace MailHub.FolderSync

open Relational Interleaving

variable {db db' : Database} {accountId : Uuid}

/-! ## Composition -/

theorem Elsewhere.refl (db : Database) : Elsewhere db db := .of_same rfl rfl

/-- A folder that differs from an untouched one in its role is untouched. -/
theorem IsUntouched.congr {f f' : Folder} (h : IsUntouched f)
    (hsame : checkpointsOf f' = checkpointsOf f) : IsUntouched f' := by
  simp only [checkpointsOf, Folder.mk.injEq] at hsame
  obtain ⟨-, -, -, -, hgen, hscanned, -, hbefore, hcomplete⟩ := hsame
  exact ⟨hgen.trans h.uidvalidity, hbefore.trans h.backfillBeforeUid,
    hcomplete.trans h.backfillComplete, hscanned.trans h.arrivalScannedUid⟩

theorem Elsewhere.trans {db₁ db₂ db₃ : Database} (h₁ : Elsewhere db₁ db₂)
    (h₂ : Elsewhere db₂ db₃) : Elsewhere db₁ db₃ := by
  refine ⟨fun f hf => ?_, fun f₃ hf₃ => ?_, fun o ho => ?_, fun o₃ ho₃ => ?_⟩
  · obtain ⟨f₂, hf₂, hsame₁⟩ := h₁.folders f hf
    obtain ⟨f₃, hf₃, hsame₂⟩ := h₂.folders f₂ hf₂
    exact ⟨f₃, hf₃, hsame₂.trans hsame₁⟩
  · rcases h₂.folders_from f₃ hf₃ with ⟨f₂, hf₂, hsame₂⟩ | hnew
    · rcases h₁.folders_from f₂ hf₂ with ⟨f, hf, hsame₁⟩ | hnew
      · exact .inl ⟨f, hf, hsame₂.trans hsame₁⟩
      · exact .inr (hnew.congr hsame₂)
    · exact .inr hnew
  · obtain ⟨o₂, ho₂, hrow₁⟩ := h₁.rows o ho
    obtain ⟨o₃, ho₃, hrow₂⟩ := h₂.rows o₂ ho₂
    exact ⟨o₃, ho₃, hrow₁.trans hrow₂⟩
  · obtain ⟨o₂, ho₂, hrow₂, hvalid₂⟩ := h₂.rows_from o₃ ho₃
    obtain ⟨o, ho, hrow₁, hvalid₁⟩ := h₁.rows_from o₂ ho₂
    exact ⟨o, ho, hrow₁.trans hrow₂, hvalid₂.trans hvalid₁⟩

instance : Std.Refl Elsewhere := ⟨Elsewhere.refl⟩

instance : IsTrans Database Elsewhere := ⟨fun _ _ _ => .trans⟩

/-- A transaction that leaves checkpoints and places alone can run elsewhere; a failed one changes
nothing. -/
theorem elsewhere_of_steps {α : Type} {t : Tx α} (h : ∀ db, Steps Elsewhere db t)
    (db : Database) : Elsewhere db (match t.run db with | .ok (_, db') => db' | .error _ => db) := by
  split
  next b db' hrun => exact (h db).step b db' hrun
  next => exact .refl db

/-! ## Accounts -/

/-- Roles are written, checkpoints are not. -/
theorem elsewhere_roles {p : Folder → Bool} {role : Option FolderRole} :
    Elsewhere db
      { db with folders := db.folders.update p (fun f => { f with role }) fun _ => rfl } := by
  have hmem : ∀ f', f' ∈ db.folders.update p (fun f => { f with role }) (fun _ => rfl) ↔
      ∃ f ∈ db.folders, (if p f = true then { f with role } else f) = f' := fun f' => by
    simp only [Table.mem_update]
  have hsame : ∀ f : Folder,
      checkpointsOf (if p f = true then { f with role } else f) = checkpointsOf f := by
    intro f
    split <;> rfl
  refine ⟨fun f hf => ⟨_, (hmem _).mpr ⟨f, hf, rfl⟩, hsame f⟩, fun f' hf' => ?_,
    fun o ho => ⟨o, ho, .refl o⟩, fun o ho => ⟨o, ho, .refl o, rfl⟩⟩
  obtain ⟨f, hf, rfl⟩ := (hmem f').mp hf'
  exact .inl ⟨f, hf, hsame f⟩

/-- A folder that is new was never contacted. -/
theorem elsewhere_insertFolder {id : Uuid} {name : String} {folders : Table Folder}
    (h : Accounts.insertFolder? db.folders (Accounts.Folder.named id accountId name) = some folders) :
    Elsewhere db { db with folders } := by
  unfold Accounts.insertFolder? at h
  split at h
  · simp at h
  refine ⟨fun f hf => ⟨f, (Table.mem_insert? h).mpr (.inl hf), rfl⟩, fun f' hf' => ?_,
    fun o ho => ⟨o, ho, .refl o⟩, fun o ho => ⟨o, ho, .refl o, rfl⟩⟩
  rcases (Table.mem_insert? h).mp hf' with hold | rfl
  · exact .inl ⟨f', hold, rfl⟩
  · exact .inr ⟨rfl, rfl, rfl, rfl⟩

section

open Accounts

variable {service : AccountService} {requestGeneration : Option Uuid} {folderId : Uuid}

theorem elsewhere_setRole {role : Option FolderRole} :
    Steps Elsewhere db (setRole folderId role) := by
  refine .get_bind ?_
  split
  · exact .pure _
  next folder _ =>
    by_cases htaken : (role.isSome && db.folders.rows.any fun f =>
        f.accountId == folder.accountId && f.role == role && f.id != folderId) = true
    · rw [if_pos htaken]
      exact .throw_bind
    · rw [if_neg htaken]
      exact .set elsewhere_roles

theorem elsewhere_gateMutation : Steps Elsewhere db (Accounts.gateMutation service requestGeneration) := by
  refine .get_bind ?_
  split
  · exact .pure _
  · exact .throw

theorem elsewhere_requireAccount : Steps Elsewhere db (Accounts.requireAccount accountId) :=
  .get_bind (.ite (fun _ => .throw) fun _ => .pure _)

theorem elsewhere_lockFolder : Steps Elsewhere db (Accounts.lockFolder accountId folderId) := by
  refine .get_bind ?_
  split
  · exact .throw
  · exact .pure _

theorem elsewhere_recordEvent {actor : Actor} {type entityType : String} {id : Uuid} :
    Steps Elsewhere db (Tx.recordEvent actor type entityType id) :=
  .modify (.of_same rfl rfl)

theorem elsewhere_insertFresh {newId : ℕ → Uuid} {names : List String} {n : ℕ} :
    Steps Elsewhere db (insertFresh accountId newId n names) := by
  induction names generalizing db n with
  | nil => exact .pure _
  | cons name rest ih =>
      refine .get_bind ?_
      split
      · exact ih
      next folders hinsert =>
        exact .set_bind (elsewhere_insertFolder hinsert) (.bind ih fun _ _ _ => .pure _)

theorem elsewhere_fillRoles {normalized : List NormalizedFolder} {roles : List FolderRole}
    {fill : RoleFill} : Steps Elsewhere db (fillRoles normalized fill roles) := by
  induction roles generalizing db fill with
  | nil => exact .pure _
  | cons role rest ih =>
      refine .bind ?_ fun _ _ _ => ih
      unfold fillRole
      split
      · exact .pure _
      · exact .bind elsewhere_setRole fun _ _ _ => .pure _
      · exact .pure _
      · exact .pure _

/-- The import of discovered folders. -/
theorem elsewhere_importFolders {newId : ℕ → Uuid} {discovered : List DiscoveredFolder} :
    Steps Elsewhere db
      (importFolders service requestGeneration accountId newId discovered) := by
  refine .bind elsewhere_gateMutation fun _ _ _ => .bind elsewhere_requireAccount fun _ _ _ => ?_
  split
  · exact .throw
  · refine .bind elsewhere_requireAccount fun _ _ _ => .get_bind ?_
    refine .bind elsewhere_insertFresh fun _ _ _ => .get_bind ?_
    refine .bind elsewhere_fillRoles fun _ _ _ => .get_bind ?_
    exact .bind elsewhere_recordEvent fun _ _ _ => .pure _

/-- A manual choice of a role. -/
theorem elsewhere_assignFolderRole {role : FolderRole} :
    Steps Elsewhere db (assignFolderRole service requestGeneration accountId folderId role) := by
  refine .bind elsewhere_gateMutation fun _ _ _ => .bind elsewhere_requireAccount fun _ _ _ => ?_
  refine .bind elsewhere_requireAccount fun _ _ _ => .bind elsewhere_lockFolder fun _ _ _ => ?_
  refine .ite (fun _ => .pure _) fun _ => ?_
  refine .bind (.modify elsewhere_roles) fun _ _ _ => .bind elsewhere_setRole fun _ _ _ => ?_
  exact .bind elsewhere_recordEvent fun _ _ _ => .pure _

theorem elsewhere_clearFolderRole :
    Steps Elsewhere db (clearFolderRole service requestGeneration accountId folderId) := by
  refine .bind elsewhere_gateMutation fun _ _ _ => .bind elsewhere_requireAccount fun _ _ _ => ?_
  refine .bind elsewhere_requireAccount fun _ _ _ => .bind elsewhere_lockFolder fun _ _ _ => ?_
  refine .ite (fun _ => .pure _) fun _ => .bind elsewhere_setRole fun _ _ _ => ?_
  exact .bind elsewhere_recordEvent fun _ _ _ => .pure _

end

/-! ## Actions and ingestion -/

/-- Rows that stay at their places and keep whether they are valid. -/
theorem elsewhere_rows {p : MessageOccurrence → Bool} {F : MessageOccurrence → MessageOccurrence}
    (hlater : ∀ o, RowLater o (F o)) (hvalid : ∀ o, (F o).invalidatedAt = o.invalidatedAt)
    (hfolders : db'.folders = db.folders)
    (hrows : db'.messageOccurrences = db.messageOccurrences.update p F fun o => (hlater o).key) :
    Elsewhere db db' := by
  refine ⟨fun f hf => ⟨f, hfolders ▸ hf, rfl⟩, fun f hf => .inl ⟨f, hfolders ▸ hf, rfl⟩, ?_,
    fun o' ho' => ?_⟩
  · rw [hrows]
    exact rows_update hlater
  · rw [hrows, Table.mem_update] at ho'
    obtain ⟨o, ho, rfl⟩ := ho'
    split
    · exact ⟨o, ho, hlater o, hvalid o⟩
    · exact ⟨o, ho, .refl o, rfl⟩

theorem rowLater_observeOccurrence (write : ItemWrite) (changed : Bool) (now : Time)
    (o : MessageOccurrence) : RowLater o (observeOccurrence write changed now o) := by
  refine ⟨rfl, rfl, rfl, rfl, rfl, fun h => h, fun h => ?_⟩
  unfold observeOccurrence
  dsimp only
  split
  · rfl
  · exact h

theorem elsewhere_recordObservation {occurrenceId : Uuid} {write : ItemWrite} {now : Time} :
    Steps Elsewhere db (recordObservation occurrenceId write now) := by
  refine .get_bind ?_
  split
  · exact .pure _
  next current _ =>
    exact .ite (fun _ => .set (elsewhere_rows
      (rowLater_observeOccurrence write (flagsChanged current write.observed) now)
      (fun _ => rfl) rfl rfl)) fun _ => .pure _

theorem elsewhere_finalizeActionStatus {actionId : Uuid} :
    Steps Elsewhere db (finalizeActionStatus actionId) := by
  refine .get_bind (.ite (fun _ => .set (.of_same rfl rfl)) fun _ => .ite (fun _ => ?_)
    fun _ => .pure _)
  exact .set_bind (.of_same rfl rfl) elsewhere_recordEvent

/-- The disposition of an action item. -/
theorem elsewhere_disposeItem {actionId : Uuid} {item : ActionItem} {write : ItemWrite}
    {now : Time} : Steps Elsewhere db (disposeItem actionId item write now) := by
  refine .get_bind (.ite (fun _ => ?_) fun _ => .pure _)
  refine .set_bind (.of_same rfl rfl) ?_
  have hlast : ∀ db, Steps Elsewhere db (if write.applied = true then do
      Tx.recordEvent .user "action.applied" "occurrence" item.target.occurrenceId
      finalizeActionStatus actionId
    else finalizeActionStatus actionId) := fun db =>
    .ite (fun _ => .bind elsewhere_recordEvent fun _ _ _ => elsewhere_finalizeActionStatus)
      fun _ => elsewhere_finalizeActionStatus
  exact .ite (fun _ => .bind elsewhere_recordObservation fun _ db _ => hlast db) fun _ => hlast _

theorem elsewhere_markThreadJobsDirty {marking : ThreadJobMarking} :
    Steps Elsewhere db (markThreadJobsDirty accountId marking) := by
  refine ⟨fun _ db' hrun => ?_⟩
  rw [markThreadJobsDirty_run] at hrun
  obtain rfl : markDirty (marking.marks accountId) db = db' := by simpa using hrun
  exact .of_same rfl rfl

/-- Moved occurrences name another message and stay where they are. -/
theorem elsewhere_moveReferences {removedId survivorId : Uuid} {now : Instant} :
    Elsewhere db (moveReferences removedId survivorId now db) :=
  elsewhere_rows (p := (·.messageId == removedId)) (fun o =>
    (⟨rfl, rfl, rfl, rfl, rfl, fun h => h, fun h => h⟩ :
      RowLater o { o with messageId := survivorId })) (fun _ => rfl) rfl rfl

/-- The commit of a parsed original, with or without a merge. -/
theorem elsewhere_commitOriginal {messageId : Uuid} {parsed : ParsedMessage}
    {derived : DerivedBody} {storageKey sha256 : String} {sizeBytes : ℕ} {now : Instant} :
    Steps Elsewhere db
      (commitOriginal accountId messageId parsed derived storageKey sha256 sizeBytes now) := by
  refine .bind ?_ fun row _ _ => .get_bind ?_
  · unfold lockMessage
    refine .get_bind ?_
    split
    · exact .pure _
    · exact .throw
  split
  next row _ =>
    refine .bind (.modify ?_) fun _ _ _ => .bind ?_ fun _ _ _ => ?_
    · exact elsewhere_moveReferences
    · exact .get_bind (.ite (fun _ => .throw_bind) fun _ => .ite (fun _ => .throw_bind)
        fun _ => .set (.of_same rfl rfl))
    · exact .bind elsewhere_markThreadJobsDirty fun _ _ _ =>
        .bind elsewhere_recordEvent fun _ _ _ => .pure _
  next =>
    refine .bind (.modify (.of_same rfl rfl)) fun _ _ _ => ?_
    exact .bind elsewhere_markThreadJobsDirty fun _ _ _ =>
      .bind elsewhere_recordEvent fun _ _ _ => .pure _

/-! ## Operations -/

/-- A neighbour's transaction as an operation of the pool. -/
def neighbour {α : Type} (t : Tx α) (h : ∀ db, Steps Elsewhere db t) : SyncOp :=
  .elsewhere _ (elsewhere_of_steps h)

/-- An action item is given its disposition. -/
def disposition (actionId : Uuid) (item : ActionItem) (write : ItemWrite) (now : Time) : SyncOp :=
  neighbour (disposeItem actionId item write now) fun _ => elsewhere_disposeItem

/-- Discovered folders are imported. -/
def folderImport (service : Accounts.AccountService) (requestGeneration : Option Uuid)
    (accountId : Uuid) (newId : ℕ → Uuid) (discovered : List Accounts.DiscoveredFolder) : SyncOp :=
  neighbour (Accounts.importFolders service requestGeneration accountId newId discovered) fun _ =>
    elsewhere_importFolders

/-- A role is chosen or cleared. -/
def roleChoice (service : Accounts.AccountService) (requestGeneration : Option Uuid)
    (accountId folderId : Uuid) : Option FolderRole → SyncOp
  | some role =>
      neighbour (Accounts.assignFolderRole service requestGeneration accountId folderId role) fun _ =>
        elsewhere_assignFolderRole
  | none =>
      neighbour (Accounts.clearFolderRole service requestGeneration accountId folderId) fun _ =>
        elsewhere_clearFolderRole

/-- A parsed original is committed. -/
def originalCommit (accountId messageId : Uuid) (parsed : ParsedMessage) (derived : DerivedBody)
    (storageKey sha256 : String) (sizeBytes : ℕ) (now : Instant) : SyncOp :=
  neighbour (commitOriginal accountId messageId parsed derived storageKey sha256 sizeBytes now)
    fun _ => elsewhere_commitOriginal

end MailHub.FolderSync
