import Mathlib.Algebra.Order.BigOperators.Group.List
import Mathlib.Algebra.Order.Group.Nat
import Mathlib.Logic.Relation
import MailHub.Accounts.RoleMaps

/-!
# Repeated imports

Importing one discovery run again may fill a role that the first import left ambiguous: the other
folders that it hinted at took later roles. The main result says for which account states and runs
an import settles the roles for every repeat.
-/

namespace MailHub.Accounts

open Relational Interleaving Ordering

variable {s : AccountService} {requestGeneration : Option Uuid} {accountId : Uuid}
variable {db db' : Database} {newId : ℕ → Uuid} {result : FolderImportResult}
variable {discovered : List DiscoveredFolder} {normalized : List NormalizedFolder}
variable {stored : List Folder} {folder : NormalizedFolder} {f : Folder} {role : FolderRole}

/-! ## Names -/

/-- The folders of a normalized run have keys of their own. -/
theorem normalizeFrom_keys {seen : List String} (h : normalizeFrom seen discovered = .ok normalized) :
    (normalized.map fun folder => folderKey folder.name).Nodup ∧
      ∀ folder ∈ normalized, folderKey folder.name ∉ seen := by
  induction discovered generalizing seen normalized with
  | nil =>
      cases h
      exact ⟨List.nodup_nil, fun _ h => absurd h List.not_mem_nil⟩
  | cons item rest ih =>
      unfold normalizeFrom at h
      obtain ⟨name, -, h⟩ := bind_eq_ok.mp h
      split at h
      · cases h
      · rename_i hseen
        obtain ⟨folders, hfolders, hreturn⟩ := bind_eq_ok.mp h
        cases hreturn
        obtain ⟨hnodup, hnew⟩ := ih hfolders
        constructor
        · rw [List.map_cons, List.nodup_cons]
          refine ⟨fun hmem => ?_, hnodup⟩
          obtain ⟨folder, hfolder, hkey⟩ := List.mem_map.mp hmem
          exact hnew folder hfolder (hkey ▸ List.mem_cons_self)
        · intro folder hfolder
          rcases List.mem_cons.mp hfolder with rfl | hfolder
          · exact hseen
          · exact fun hmem => hnew folder hfolder (List.mem_cons_of_mem _ hmem)

theorem normalizeDiscoveredFolders_keys (h : normalizeDiscoveredFolders discovered = .ok normalized) :
    (normalized.map fun folder => folderKey folder.name).Nodup := by
  unfold normalizeDiscoveredFolders at h
  split at h
  · cases h
  · exact (normalizeFrom_keys h).1

theorem storedByKey_some (hsnapshot : Snapshot accountId stored db) {key : String}
    (h : storedByKey stored key = some f) :
    f ∈ db.folders ∧ f.accountId = accountId ∧ folderKey f.name = key := by
  have hmem := (hsnapshot f).mp (List.mem_reverse.mp (List.mem_of_find?_eq_some h))
  have hkey : folderKey f.name = key := by simpa using List.find?_some h
  exact ⟨hmem.1, hmem.2, hkey⟩

theorem storedByKey_none (hsnapshot : Snapshot accountId stored db) {key : String}
    (h : storedByKey stored key = none) (hf : f ∈ db.folders) (haccount : f.accountId = accountId) :
    folderKey f.name ≠ key := by
  have hnone := List.find?_eq_none.mp h f (List.mem_reverse.mpr ((hsnapshot f).mpr ⟨hf, haccount⟩))
  exact fun hkey => hnone (beq_iff_eq.mpr hkey)

/-- The name of the stored row has the key that the run gave. -/
theorem resolveName_key (hsnapshot : Snapshot accountId stored db) :
    folderKey (resolveName stored folder).name = folderKey folder.name := by
  unfold resolveName
  split
  · rfl
  · rename_i present hpresent
    exact (storedByKey_some hsnapshot hpresent).2.2

theorem resolveName_roles : (resolveName stored folder).roles = folder.roles := by
  unfold resolveName
  split <;> rfl

/-- The names of the stored rows change nothing in the hints. -/
theorem hintsOf_resolved (hsnapshot : Snapshot accountId stored db) :
    hintsOf (normalized.map (resolveName stored)) = hintsOf normalized := by
  funext role
  unfold hintsOf
  rw [List.filter_map, List.map_map]
  have hroles : (fun folder => decide (role ∈ folder.roles)) ∘ resolveName stored =
      fun folder => decide (role ∈ folder.roles) := by
    funext folder
    rw [Function.comp_apply, resolveName_roles]
  have hkeys : (fun folder => folderKey folder.name) ∘ resolveName stored =
      fun folder : NormalizedFolder => folderKey folder.name := by
    funext folder
    rw [Function.comp_apply, resolveName_key hsnapshot]
  rw [hroles, hkeys]

theorem mem_freshNames {name : String} : name ∈ freshNames stored normalized ↔
    ∃ folder ∈ normalized, storedByKey stored (folderKey folder.name) = none ∧
      folder.name = name := by
  unfold freshNames
  rw [List.mem_map]
  simp only [List.mem_filter, Option.isNone_iff_eq_none, and_assoc]

theorem freshNames_nodup (h : (normalized.map fun folder => folderKey folder.name).Nodup) :
    ((freshNames stored normalized).map folderKey).Nodup := by
  unfold freshNames
  rw [List.map_map]
  exact h.sublist (List.filter_sublist.map _)

/-! ## One import -/

theorem requireAccount_run (h : (db.accounts.find? accountId).isSome = true) :
    (requireAccount accountId).run db = .ok ((), db) := by
  obtain ⟨account, hsome⟩ := Option.isSome_iff_exists.mp h
  simp [requireAccount, hsome]

theorem WellFormed.of_folders (h : WellFormed accountId db) (hfolders : db'.folders = db.folders) :
    WellFormed accountId db' := by
  constructor
  · rw [hfolders]
    exact h.keys
  · rw [hfolders]
    exact h.roles

/-- What one import of a normalized run leaves: one round of turns on the role map. -/
theorem importNormalized_run (h : WellFormed accountId db)
    (haccount : (db.accounts.find? accountId).isSome = true) (hfresh : Fresh newId db)
    (hkeys : (normalized.map fun folder => folderKey folder.name).Nodup) :
    ∃ result db', (importNormalized s accountId newId normalized).run db = .ok (result, db') ∧
      WellFormed accountId db' ∧
      roleMap accountId db' = turns (hintsOf normalized) (roleMap accountId db) allRoles ∧
      db'.accounts = db.accounts ∧ db'.serviceState = db.serviceState ∧
      ∀ role ∈ result.ambiguousRoles, ∃ earlier later, allRoles = earlier ++ role :: later ∧
        2 ≤ (takers (hintsOf normalized)
          (turns (hintsOf normalized) (roleMap accountId db) earlier) role).length := by
  have hstored : Snapshot accountId (selectFolders s accountId db) db := snapshot_selectFolders
  have hnodup : ((freshNames (selectFolders s accountId db) normalized).map folderKey).Nodup :=
    freshNames_nodup hkeys
  obtain ⟨inserted, db₁, hinsert, hothers₁, h₁, hmap₁, hkept, hnamed⟩ :=
    insertFresh_run (n := 0) h hfresh.injective (fun m _ => hfresh.absent m) hnodup
      fun name hname f hf hacc => by
        obtain ⟨folder, -, hnone, rfl⟩ := mem_freshNames.mp hname
        exact storedByKey_none hstored hnone hf hacc
  have hcurrent : Snapshot accountId (selectFolders s accountId db₁) db₁ := snapshot_selectFolders
  have hresolved : Named (normalized.map (resolveName (selectFolders s accountId db)))
      (selectFolders s accountId db₁) := by
    intro folder hfolder
    obtain ⟨folder₀, hfolder₀, rfl⟩ := List.mem_map.mp hfolder
    unfold resolveName
    split
    · rename_i hnone
      obtain ⟨f, hf, hacc, hname⟩ :=
        hnamed folder₀.name (mem_freshNames.mpr ⟨folder₀, hfolder₀, hnone, rfl⟩)
      exact ⟨f, (hcurrent f).mpr ⟨hf, hacc⟩, hname⟩
    · rename_i present hpresent
      obtain ⟨hf, hacc, -⟩ := storedByKey_some hstored hpresent
      exact ⟨present, (hcurrent present).mpr ⟨hkept present hf, hacc⟩, rfl⟩
  obtain ⟨fill, db₂, hfill, hfills⟩ : ∃ fill db₂,
      (fillRoles (normalized.map (resolveName (selectFolders s accountId db)))
        ⟨selectFolders s accountId db₁, [], [], []⟩ allRoles).run db₁ = .ok (fill, db₂) ∧
      Fills accountId (normalized.map (resolveName (selectFolders s accountId db))) allRoles
        ⟨selectFolders s accountId db₁, [], [], []⟩ db₁ fill db₂ :=
    fillRoles_run h₁ hcurrent hresolved
  have hlock : (lockAccountRow accountId).run db = .ok ((), db) := requireAccount_run haccount
  have hmap := hfills.map
  have hambiguous := hfills.ambiguous
  rw [hintsOf_resolved hstored, hmap₁] at hmap hambiguous
  refine ⟨⟨((selectFolders s accountId db₂).filter fun f => f.id ∈ inserted).map toFolderSummary,
      fill.assignedRoles, fill.ambiguousRoles, fill.conflicts,
      (selectFolders s accountId db₂).map toFolderSummary,
      pendingRoleChoices (selectFolders s accountId db₂)⟩,
    { db₂ with events := db₂.events ++
      [⟨.user, "account.folders_imported", "account", accountId⟩] }, ?_,
    hfills.wellFormed.of_folders rfl, ?_, ?_, ?_, ?_⟩
  · simp only [importNormalized, StateT.run_bind, hlock, ok_bind, Tx.read, StateT.run_get, pure_bind,
      StateT.run_pure, hinsert, hfill]
    rfl
  · exact hmap
  · rw [hfills.others, hothers₁]
  · rw [hfills.others, hothers₁]
  · intro role hrole
    rcases hambiguous role hrole with hrole | hmany
    · cases hrole
    · exact hmany

/-- An import that the gate lets pass runs its transaction. -/
theorem importFolders_run {generation : Uuid}
    (hgate : MailHub.gateMutation s.generation requestGeneration db = .ok generation)
    (haccount : (db.accounts.find? accountId).isSome = true)
    (hnormalized : normalizeDiscoveredFolders discovered = .ok normalized) :
    (importFolders s requestGeneration accountId newId discovered).run db =
      (importNormalized s accountId newId normalized).run db := by
  have hpass : (gateMutation s requestGeneration).run db = .ok ((), db) := by
    simp [gateMutation, hgate]
  simp only [importFolders, StateT.run_bind, hpass, ok_bind, requireAccount_run haccount,
    hnormalized]

/-- Some identifiers are new in every database. -/
theorem exists_fresh (db : Database) : ∃ newId, Fresh newId db := by
  refine ⟨fun n => (db.folders.rows.map (·.id)).sum + 1 + n, fun n => ?_, fun m n h => ?_⟩
  · rw [Table.find?_eq_none_iff]
    intro f hf hid
    have hle : f.id ≤ (db.folders.rows.map (·.id)).sum :=
      List.le_sum_of_mem (List.mem_map_of_mem hf)
    have hlt : (db.folders.rows.map (·.id)).sum < f.id := by
      have hkey : f.id = (db.folders.rows.map (·.id)).sum + 1 + n := hid
      rw [hkey]
      exact Nat.lt_of_lt_of_le (Nat.lt_succ_self _) (Nat.le_add_right _ n)
    exact absurd hle (Nat.not_le.mpr hlt)
  · exact Nat.add_left_cancel h

/-! ## Repeats -/

/-- An import of a discovery run succeeds. -/
def Imports (s : AccountService) (requestGeneration : Option Uuid) (accountId : Uuid)
    (discovered : List DiscoveredFolder) (db : Database) (result : FolderImportResult)
    (db' : Database) : Prop :=
  ∃ newId, Fresh newId db ∧
    (importFolders s requestGeneration accountId newId discovered).run db = .ok (result, db')

/-- Any number of further imports of the run succeed. -/
def Repeats (s : AccountService) (requestGeneration : Option Uuid) (accountId : Uuid)
    (discovered : List DiscoveredFolder) : Database → Database → Prop :=
  Relation.ReflTransGen fun db db' =>
    ∃ result, Imports s requestGeneration accountId discovered db result db'

/-- An import settles the roles: a second one changes nothing, a role that it reports ambiguous and
that was unset stays unset, and every role has one holder at most. -/
structure ImportSettles (s : AccountService) (requestGeneration : Option Uuid) (accountId : Uuid)
    (discovered : List DiscoveredFolder) (db : Database) : Prop where
  idempotent : ∀ r₁ db₁ r₂ db₂, Imports s requestGeneration accountId discovered db r₁ db₁ →
    Imports s requestGeneration accountId discovered db₁ r₂ db₂ →
      roleMap accountId db₂ = roleMap accountId db₁
  ambiguous : ∀ r₁ db₁, Imports s requestGeneration accountId discovered db r₁ db₁ →
    ∀ role ∈ r₁.ambiguousRoles, ¬ Held (roleMap accountId db) role →
      ∀ db', Repeats s requestGeneration accountId discovered db₁ db' →
        ¬ Held (roleMap accountId db') role
  single : ∀ r₁ db₁, Imports s requestGeneration accountId discovered db r₁ db₁ →
    ∀ f ∈ db₁.folders, ∀ g ∈ db₁.folders, f.accountId = accountId → g.accountId = accountId →
      ∀ role, f.role = some role → g.role = some role → f = g

/-- What an import needs, and keeps for the next one. -/
structure Importable (s : AccountService) (requestGeneration : Option Uuid) (accountId : Uuid)
    (db : Database) : Prop where
  wellFormed : WellFormed accountId db
  gate : ∃ generation, MailHub.gateMutation s.generation requestGeneration db = .ok generation
  account : (db.accounts.find? accountId).isSome = true

theorem exists_imports (h : Importable s requestGeneration accountId db)
    (hnormalized : normalizeDiscoveredFolders discovered = .ok normalized) :
    ∃ result db', Imports s requestGeneration accountId discovered db result db' := by
  obtain ⟨newId, hfresh⟩ := exists_fresh db
  obtain ⟨generation, hgate⟩ := h.gate
  obtain ⟨result, db', hrun, -⟩ := importNormalized_run (s := s) h.wellFormed h.account hfresh
    (normalizeDiscoveredFolders_keys hnormalized)
  exact ⟨result, db', newId, hfresh, (importFolders_run hgate h.account hnormalized).trans hrun⟩

/-- One import is one round of turns on the role map, and leaves what the next one needs. -/
theorem Imports.spec (h : Importable s requestGeneration accountId db)
    (hnormalized : normalizeDiscoveredFolders discovered = .ok normalized)
    (himport : Imports s requestGeneration accountId discovered db result db') :
    Importable s requestGeneration accountId db' ∧
      roleMap accountId db' = turns (hintsOf normalized) (roleMap accountId db) allRoles ∧
      ∀ role ∈ result.ambiguousRoles, ∃ earlier later, allRoles = earlier ++ role :: later ∧
        2 ≤ (takers (hintsOf normalized)
          (turns (hintsOf normalized) (roleMap accountId db) earlier) role).length := by
  obtain ⟨newId, hfresh, hrun⟩ := himport
  obtain ⟨generation, hgate⟩ := h.gate
  obtain ⟨result', db₁, hrun', h₁, hmap, haccounts, hstate, hambiguous⟩ :=
    importNormalized_run (s := s) h.wellFormed h.account hfresh
      (normalizeDiscoveredFolders_keys hnormalized)
  rw [importFolders_run hgate h.account hnormalized, hrun'] at hrun
  cases hrun
  refine ⟨⟨h₁, ⟨generation, ?_⟩, ?_⟩, hmap, hambiguous⟩
  · rw [gateMutation_eq_ok_iff] at hgate ⊢
    rwa [hstate]
  · rw [haccounts]
    exact h.account

/-! ## Runs -/

/-- A transaction that keeps an account well formed. -/
def KeepsWellFormed (accountId : Uuid) (db db' : Database) : Prop :=
  WellFormed accountId db → WellFormed accountId db'

instance : Std.Refl (KeepsWellFormed accountId) := ⟨fun _ h => h⟩

instance : IsTrans Database (KeepsWellFormed accountId) := ⟨fun _ _ _ h h' hw => h' (h hw)⟩

/-- A database whose folders keep their identity has the keys as before. -/
theorem WellFormed.of_rewrite (h : WellFormed accountId db)
    (hback : ∀ f ∈ db'.folders, ∃ f₀ ∈ db.folders,
      f₀.id = f.id ∧ f₀.accountId = f.accountId ∧ f₀.name = f.name)
    (hroles : ∀ f ∈ db'.folders, ∀ g ∈ db'.folders, f.accountId = accountId →
      g.accountId = accountId → ∀ role, f.role = some role → g.role = some role → f.id = g.id) :
    WellFormed accountId db' := by
  constructor
  · intro f hf g hg haccountF haccountG hkey
    obtain ⟨f₀, hf₀, hidF, haccF, hnameF⟩ := hback f hf
    obtain ⟨g₀, hg₀, hidG, haccG, hnameG⟩ := hback g hg
    have heq : f₀ = g₀ := by
      refine h.keys f₀ hf₀ g₀ hg₀ (haccF.trans haccountF) (haccG.trans haccountG) ?_
      rw [hnameF, hnameG]
      exact hkey
    have hids : f.id = g.id := by rw [← hidF, ← hidG, heq]
    exact db'.folders.eq_of_key_eq hf hg hids
  · intro f hf g hg haccountF haccountG role hroleF hroleG
    exact db'.folders.eq_of_key_eq hf hg (hroles f hf g hg haccountF haccountG role hroleF hroleG)

/-- The folder that an update rewrote. -/
theorem mem_updated_role {p : Folder → Bool} {role : Option FolderRole}
    (h : f ∈ db.folders.update p (fun f => { f with role }) fun _ => rfl) :
    ∃ f₀ ∈ db.folders, (f₀.id = f.id ∧ f₀.accountId = f.accountId ∧ f₀.name = f.name) ∧
      (p f₀ = true ∧ f.role = role ∨ p f₀ = false ∧ f₀ = f) := by
  obtain ⟨f₀, hf₀, rfl⟩ := Table.mem_update.mp h
  refine ⟨f₀, hf₀, ?_⟩
  split
  · rename_i hp
    exact ⟨⟨rfl, rfl, rfl⟩, .inl ⟨hp, rfl⟩⟩
  · rename_i hp
    exact ⟨⟨rfl, rfl, rfl⟩, .inr ⟨Bool.eq_false_iff.mpr hp, rfl⟩⟩

/-- Without a role a folder is in the way of no other one. -/
theorem keeps_cleared {p : Folder → Bool} : KeepsWellFormed accountId db
    { db with folders := db.folders.update p (fun f => { f with role := none }) fun _ => rfl } := by
  intro h
  refine h.of_rewrite (fun f hf => ?_) fun f hf g hg haccountF haccountG role hroleF hroleG => ?_
  · obtain ⟨f₀, hf₀, hsame, -⟩ := mem_updated_role hf
    exact ⟨f₀, hf₀, hsame⟩
  · obtain ⟨f₀, hf₀, -, ⟨-, hnone⟩ | ⟨-, rfl⟩⟩ := mem_updated_role hf
    · rw [hnone] at hroleF
      cases hroleF
    · obtain ⟨g₀, hg₀, -, ⟨-, hnone⟩ | ⟨-, rfl⟩⟩ := mem_updated_role hg
      · rw [hnone] at hroleG
        cases hroleG
      · rw [h.roles f₀ hf₀ g₀ hg₀ haccountF haccountG role hroleF hroleG]

/-- A write of one role that the database accepts. -/
theorem steps_setRole {folderId : Uuid} {role : Option FolderRole} :
    Steps (KeepsWellFormed accountId) db (setRole folderId role) := by
  refine Steps.get_bind ?_
  split
  · exact Steps.pure _
  · rename_i folder hfolder
    by_cases htaken : (role.isSome && db.folders.rows.any fun f =>
        f.accountId == folder.accountId && f.role == role && f.id != folderId) = true
    · rw [if_pos htaken]
      exact Steps.throw_bind
    · rw [if_neg htaken]
      refine Steps.set fun h => h.of_rewrite (fun f hf => ?_) ?_
      · obtain ⟨f₀, hf₀, hsame, -⟩ := mem_updated_role hf
        exact ⟨f₀, hf₀, hsame⟩
      · have hother : ∀ g ∈ db.folders, g.accountId = folder.accountId → ∀ r, role = some r →
            g.role = some r → g.id = folderId := by
          rintro g hg haccount r rfl hrole
          by_contra hid
          refine htaken ?_
          rw [Option.isSome_some, Bool.true_and, List.any_eq_true]
          refine ⟨g, hg, ?_⟩
          simp [haccount, hrole, hid]
        have hwritten : ∀ f₀ ∈ db.folders, (f₀.id == folderId) = true → f₀ = folder :=
          fun f₀ hf₀ hid => db.folders.eq_of_key_eq hf₀ (Table.mem_of_find? hfolder)
            ((beq_iff_eq.mp hid).trans (Table.key_of_find? hfolder).symm)
        intro f hf g hg haccountF haccountG r hroleF hroleG
        obtain ⟨f₀, hf₀, ⟨hidF, haccF, -⟩, ⟨hpF, hwroteF⟩ | ⟨-, rfl⟩⟩ := mem_updated_role hf <;>
          obtain ⟨g₀, hg₀, ⟨hidG, haccG, -⟩, ⟨hpG, hwroteG⟩ | ⟨-, rfl⟩⟩ := mem_updated_role hg
        · rw [← hidF, ← hidG, beq_iff_eq.mp hpF, beq_iff_eq.mp hpG]
        · have haccount : g₀.accountId = folder.accountId := by
            rw [← hwritten f₀ hf₀ hpF, haccF, haccountF, haccountG]
          rw [← hidF, beq_iff_eq.mp hpF]
          exact (hother g₀ hg₀ haccount r (hwroteF ▸ hroleF) hroleG).symm
        · have haccount : f₀.accountId = folder.accountId := by
            rw [← hwritten g₀ hg₀ hpG, haccG, haccountG, haccountF]
          rw [← hidG, beq_iff_eq.mp hpG]
          exact hother f₀ hf₀ haccount r (hwroteG ▸ hroleG) hroleF
        · rw [h.roles f₀ hf₀ g₀ hg₀ haccountF haccountG r hroleF hroleG]

/-- The gate and the reads of an operation write nothing. -/
theorem steps_gateMutation : Steps (KeepsWellFormed accountId) db (gateMutation s requestGeneration) := by
  refine Steps.get_bind ?_
  split
  · exact Steps.pure _
  · exact Steps.throw

theorem steps_requireAccount {id : Uuid} :
    Steps (KeepsWellFormed accountId) db (requireAccount id) :=
  Steps.get_bind (Steps.ite (fun _ => Steps.throw) fun _ => Steps.pure _)

theorem steps_lockFolder {id folderId : Uuid} :
    Steps (KeepsWellFormed accountId) db (lockFolder id folderId) := by
  refine Steps.get_bind ?_
  split
  · exact Steps.throw
  · exact Steps.pure _

theorem steps_recordAccountEvent {type : String} {id : Uuid} :
    Steps (KeepsWellFormed accountId) db (recordAccountEvent type id) :=
  Steps.modify fun h => h.of_folders rfl

theorem steps_assignFolderRole {folderId : Uuid} {role : FolderRole} :
    Steps (KeepsWellFormed accountId) db
      (assignFolderRole s requestGeneration accountId folderId role) := by
  refine Steps.bind steps_gateMutation fun _ db₁ _ => ?_
  refine Steps.bind steps_requireAccount fun _ db₂ _ => ?_
  refine Steps.bind steps_requireAccount fun _ db₃ _ => ?_
  refine Steps.bind steps_lockFolder fun folder db₄ _ => ?_
  refine Steps.ite (fun _ => Steps.pure _) fun _ => ?_
  refine Steps.bind (Steps.modify keeps_cleared) fun _ db₅ _ => ?_
  refine Steps.bind steps_setRole fun _ db₆ _ => ?_
  exact Steps.bind steps_recordAccountEvent fun _ db₇ _ => Steps.pure _

theorem steps_clearFolderRole {folderId : Uuid} :
    Steps (KeepsWellFormed accountId) db
      (clearFolderRole s requestGeneration accountId folderId) := by
  refine Steps.bind steps_gateMutation fun _ db₁ _ => ?_
  refine Steps.bind steps_requireAccount fun _ db₂ _ => ?_
  refine Steps.bind steps_requireAccount fun _ db₃ _ => ?_
  refine Steps.bind steps_lockFolder fun folder db₄ _ => ?_
  refine Steps.ite (fun _ => Steps.pure _) fun _ => ?_
  refine Steps.bind steps_setRole fun _ db₆ _ => ?_
  exact Steps.bind steps_recordAccountEvent fun _ db₇ _ => Steps.pure _

/-- An import that succeeds passed the gate and found its account. -/
theorem Imports.admitted (h : Imports s requestGeneration accountId discovered db result db') :
    (∃ generation, MailHub.gateMutation s.generation requestGeneration db = .ok generation) ∧
      (db.accounts.find? accountId).isSome = true ∧
        ∃ normalized, normalizeDiscoveredFolders discovered = .ok normalized := by
  obtain ⟨newId, -, hrun⟩ := h
  cases hgate : MailHub.gateMutation s.generation requestGeneration db with
  | error e => simp [importFolders, gateMutation, hgate] at hrun
  | ok generation =>
      cases haccount : db.accounts.find? accountId with
      | none => simp [importFolders, gateMutation, hgate, requireAccount, haccount] at hrun
      | some account =>
          cases hnormalized : normalizeDiscoveredFolders discovered with
          | error e =>
              simp [importFolders, gateMutation, hgate, requireAccount, haccount,
                hnormalized] at hrun
          | ok normalized => exact ⟨⟨generation, rfl⟩, rfl, normalized, rfl⟩

/-- One step of the owner on the folders of an account. -/
inductive FolderStep (s : AccountService) (accountId : Uuid) (db db' : Database) : Prop
  | imported (requestGeneration : Option Uuid) (discovered : List DiscoveredFolder)
      (result : FolderImportResult)
      (h : Imports s requestGeneration accountId discovered db result db')
  | assigned (requestGeneration : Option Uuid) (folderId : Uuid) (role : FolderRole)
      (summary : FolderSummary)
      (h : (assignFolderRole s requestGeneration accountId folderId role).run db =
        .ok (summary, db'))
  | cleared (requestGeneration : Option Uuid) (folderId : Uuid) (summary : FolderSummary)
      (h : (clearFolderRole s requestGeneration accountId folderId).run db = .ok (summary, db'))

/-- Every step keeps the account well formed. -/
theorem FolderStep.wellFormed (hstep : FolderStep s accountId db db') (h : WellFormed accountId db) :
    WellFormed accountId db' := by
  cases hstep with
  | imported requestGeneration discovered result himport =>
      obtain ⟨hgate, haccount, normalized, hnormalized⟩ := himport.admitted
      exact (himport.spec ⟨h, hgate, haccount⟩ hnormalized).1.wellFormed
  | assigned requestGeneration folderId role summary hrun =>
      exact steps_assignFolderRole.step summary db' hrun h
  | cleared requestGeneration folderId summary hrun =>
      exact steps_clearFolderRole.step summary db' hrun h

/-- After any imports and manual choices no two folders of the account share a key or a role. -/
theorem wellFormed_of_steps (h : WellFormed accountId db)
    (hsteps : Relation.ReflTransGen (FolderStep s accountId) db db') : WellFormed accountId db' := by
  induction hsteps with
  | refl => exact h
  | tail _ hstep ih => exact hstep.wellFormed ih

/-- An import settles the roles exactly when it leaves no ambiguous role with one free folder. -/
theorem imports_settle_iff {s : AccountService} {requestGeneration : Option Uuid} {accountId : Uuid}
    {db : Database} {discovered : List DiscoveredFolder} {normalized : List NormalizedFolder}
    (h : Importable s requestGeneration accountId db)
    (hnormalized : normalizeDiscoveredFolders discovered = .ok normalized) :
    ImportSettles s requestGeneration accountId discovered db ↔
      ∀ role ∈ allRoles,
        ¬ LeftAlone (hintsOf normalized) (roleMap accountId db) allRoles role := by
  have hroles : allRoles.Nodup := by decide
  rw [← turns_turns_iff hroles]
  constructor
  · intro hsettles
    obtain ⟨r₁, db₁, himport₁⟩ := exists_imports h hnormalized
    obtain ⟨h₁, hmap₁, -⟩ := himport₁.spec h hnormalized
    obtain ⟨r₂, db₂, himport₂⟩ := exists_imports h₁ hnormalized
    obtain ⟨-, hmap₂, -⟩ := himport₂.spec h₁ hnormalized
    rw [← hmap₁, ← hmap₂]
    exact hsettles.idempotent r₁ db₁ r₂ db₂ himport₁ himport₂
  · intro hstable
    refine ⟨?_, ?_, ?_⟩
    · intro r₁ db₁ r₂ db₂ himport₁ himport₂
      obtain ⟨h₁, hmap₁, -⟩ := himport₁.spec h hnormalized
      obtain ⟨-, hmap₂, -⟩ := himport₂.spec h₁ hnormalized
      rw [hmap₂, hmap₁]
      exact hstable
    · intro r₁ db₁ himport₁ role hrole hempty db' hrepeats
      obtain ⟨h₁, hmap₁, hambiguous⟩ := himport₁.spec h hnormalized
      have hkept : Importable s requestGeneration accountId db' ∧
          roleMap accountId db' = roleMap accountId db₁ := by
        induction hrepeats with
        | refl => exact ⟨h₁, rfl⟩
        | tail _ hstep ih =>
            obtain ⟨result, himport⟩ := hstep
            obtain ⟨h₂, hmap₂, -⟩ := himport.spec ih.1 hnormalized
            refine ⟨h₂, ?_⟩
            rw [hmap₂, ih.2, hmap₁]
            exact hstable
      rw [hkept.2, hmap₁]
      -- a role with several takers at its turn is not given away then, nor later
      obtain ⟨earlier, later, hsplit, hmany⟩ := hambiguous role hrole
      rw [hsplit] at hroles ⊢
      exact not_held_of_many hroles hempty hmany
    · intro r₁ db₁ himport₁
      exact (himport₁.spec h hnormalized).1.wellFormed.roles

/-! ## Samples -/

/-- The service over a deployment. -/
def sampleAccounts : AccountService := ⟨some 7, fun a b => a ≤ b⟩

/-- An account without folders. -/
def newAccount : Database :=
  { Database.empty with
    serviceState := some ⟨7, .ready⟩
    accounts := Table.empty.put ⟨1, [], true⟩ }

/-- Two folders hint at the sent role, and one of them at the archive role, too. -/
def twoSentFolders : List DiscoveredFolder :=
  [⟨"Sent", some ["\\Sent"]⟩, ⟨"Mail", some ["\\Sent", "\\Archive"]⟩]

theorem importable_newAccount : Importable sampleAccounts (some 7) 1 newAccount where
  wellFormed := ⟨fun _ hf => absurd hf List.not_mem_nil, fun _ hf => absurd hf List.not_mem_nil⟩
  gate := ⟨7, rfl⟩
  account := rfl

/-- Identifiers counted up from a bound are new where every folder is below the bound. -/
theorem fresh_above {bound : ℕ} (h : ∀ f ∈ db.folders, f.id < bound) :
    Fresh (fun n => n + bound) db := by
  refine ⟨fun n => Table.find?_eq_none_iff.mpr fun f hf hid => ?_, fun m n hmn => ?_⟩
  · have hkey : f.id = n + bound := hid
    have hlt := h f hf
    rw [hkey] at hlt
    exact absurd hlt (Nat.not_lt.mpr (Nat.le_add_left bound n))
  · exact Nat.add_right_cancel hmn

/-- The first import finds the sent role ambiguous and gives the archive role away; the second one
then fills the sent role. -/
theorem imports_differ : ¬ ImportSettles sampleAccounts (some 7) 1 twoSentFolders newAccount := by
  have hruns : ((do
      let (_, db₁) ← (importFolders sampleAccounts (some 7) 1 (· + 10) twoSentFolders).run newAccount
      let (_, db₂) ← (importFolders sampleAccounts (some 7) 1 (· + 20) twoSentFolders).run db₁
      return (db₁.folders.rows.all fun f => f.id < 20, roleMap 1 db₁ "Sent", roleMap 1 db₂ "Sent")) :
        Except Failure _) = .ok (true, none, some .sent) := by decide +kernel
  intro h
  obtain ⟨⟨r₁, db₁⟩, hfirst, hruns⟩ := bind_eq_ok.mp hruns
  obtain ⟨⟨r₂, db₂⟩, hsecond, hruns⟩ := bind_eq_ok.mp hruns
  obtain ⟨hids, hroles⟩ := Prod.mk.inj (Except.ok.inj hruns)
  obtain ⟨hrole₁, hrole₂⟩ := Prod.mk.inj hroles
  have hbelow : ∀ f ∈ db₁.folders, f.id < 20 := fun f hf =>
    of_decide_eq_true (List.all_eq_true.mp hids f hf)
  have hmap := h.idempotent r₁ db₁ r₂ db₂
    ⟨_, fresh_above fun f hf => absurd hf List.not_mem_nil, hfirst⟩
    ⟨_, fresh_above hbelow, hsecond⟩
  have hsent := congrFun hmap "Sent"
  rw [hrole₁, hrole₂] at hsent
  cases hsent

/-- One folder that hints at the sent role and one that hints at the archive role. -/
def oneSentFolder : List DiscoveredFolder :=
  [⟨"Sent", some ["\\Sent"]⟩, ⟨"Mail", some ["\\Archive"]⟩]

/-- An import of folders that hint at different roles settles the roles. -/
theorem imports_settle_sample :
    ImportSettles sampleAccounts (some 7) 1 oneSentFolder newAccount := by
  have hnormalized : normalizeDiscoveredFolders oneSentFolder =
      .ok [⟨"Sent", [.sent]⟩, ⟨"Mail", [.archive]⟩] := by decide +kernel
  refine (imports_settle_iff importable_newAccount hnormalized).mpr ?_
  rintro role - ⟨earlier, later, -, -, hmany, -⟩
  have hfew : (hintsOf [⟨"Sent", [.sent]⟩, ⟨"Mail", [.archive]⟩] role).length ≤ 1 := by
    cases role <;> decide +kernel
  exact absurd (hmany.trans (takers_length_le.trans hfew)) (by decide)

end MailHub.Accounts
