import MailHub.Accounts.Folders
import MailHub.Ordering.Turns

/-!
# Role maps under imports

The role map of an account gives each folder key its role. An import fills roles over a snapshot of
the rows, which each assignment changes; on the role map it is one round of turns over the roles,
with the folder keys as the items that the hints of the server offer.
-/

namespace MailHub.Accounts

open Relational Ordering

variable {accountId : Uuid} {db db' : Database} {f g : Folder} {role : FolderRole} {key : String}
variable {normalized resolved : List NormalizedFolder} {current : List Folder}

/-! ## Role maps -/

/-- No two folders of an account share a key or a role. -/
structure WellFormed (accountId : Uuid) (db : Database) : Prop where
  keys : ∀ f ∈ db.folders, ∀ g ∈ db.folders, f.accountId = accountId → g.accountId = accountId →
    folderKey f.name = folderKey g.name → f = g
  roles : ∀ f ∈ db.folders, ∀ g ∈ db.folders, f.accountId = accountId → g.accountId = accountId →
    ∀ role, f.role = some role → g.role = some role → f = g

/-- The role of each folder key of an account. -/
def roleMap (accountId : Uuid) (db : Database) (key : String) : Option FolderRole :=
  (db.folders.rows.find? fun f => f.accountId == accountId && folderKey f.name == key).bind (·.role)

/-- The folder keys that a run offers for a role. -/
def hintsOf (normalized : List NormalizedFolder) (role : FolderRole) : List String :=
  (normalized.filter fun folder => role ∈ folder.roles).map fun folder => folderKey folder.name

theorem roleMap_of_mem (h : WellFormed accountId db) (hf : f ∈ db.folders)
    (haccount : f.accountId = accountId) : roleMap accountId db (folderKey f.name) = f.role := by
  unfold roleMap
  cases hfound : db.folders.rows.find? fun g =>
      g.accountId == accountId && folderKey g.name == folderKey f.name with
  | none =>
      have hnone := List.find?_eq_none.mp hfound f hf
      simp [haccount] at hnone
  | some g =>
      have hg : g.accountId = accountId ∧ folderKey g.name = folderKey f.name := by
        simpa using List.find?_some hfound
      rw [h.keys g (List.mem_of_find?_eq_some hfound) f hf hg.1 haccount hg.2]
      rfl

theorem roleMap_of_absent
    (h : ∀ f ∈ db.folders, f.accountId = accountId → folderKey f.name ≠ key) :
    roleMap accountId db key = none := by
  unfold roleMap
  cases hfound : db.folders.rows.find? fun g =>
      g.accountId == accountId && folderKey g.name == key with
  | none => rfl
  | some g =>
      have hg : g.accountId = accountId ∧ folderKey g.name = key := by
        simpa using List.find?_some hfound
      exact absurd hg.2 (h g (List.mem_of_find?_eq_some hfound) hg.1)

/-- A key has a role exactly when the folder of the key holds it. -/
theorem roleMap_eq_some_iff (h : WellFormed accountId db) : roleMap accountId db key = some role ↔
    ∃ f ∈ db.folders, f.accountId = accountId ∧ folderKey f.name = key ∧ f.role = some role := by
  constructor
  · intro hrole
    by_contra hnot
    push Not at hnot
    by_cases hkey : ∃ f ∈ db.folders, f.accountId = accountId ∧ folderKey f.name = key
    · obtain ⟨f, hf, haccount, rfl⟩ := hkey
      rw [roleMap_of_mem h hf haccount] at hrole
      exact hnot f hf haccount rfl hrole
    · push Not at hkey
      rw [roleMap_of_absent hkey] at hrole
      cases hrole
  · rintro ⟨f, hf, haccount, rfl, hrole⟩
    rw [roleMap_of_mem h hf haccount, hrole]

theorem held_roleMap_iff (h : WellFormed accountId db) : Held (roleMap accountId db) role ↔
    ∃ f ∈ db.folders, f.accountId = accountId ∧ f.role = some role := by
  constructor
  · rintro ⟨key, hkey⟩
    obtain ⟨f, hf, haccount, -, hrole⟩ := (roleMap_eq_some_iff h).mp hkey
    exact ⟨f, hf, haccount, hrole⟩
  · rintro ⟨f, hf, haccount, hrole⟩
    exact ⟨folderKey f.name, (roleMap_eq_some_iff h).mpr ⟨f, hf, haccount, rfl, hrole⟩⟩

/-! ## One role -/

/-- The rows that an import read are those of the account. -/
def Snapshot (accountId : Uuid) (current : List Folder) (db : Database) : Prop :=
  ∀ f, f ∈ current ↔ f ∈ db.folders ∧ f.accountId = accountId

theorem snapshot_selectFolders {s : AccountService} :
    Snapshot accountId (selectFolders s accountId db) db := by
  intro f
  unfold selectFolders
  rw [List.mem_insertionSort]
  simp

/-- Every discovered folder has a row in the snapshot under its name. -/
def Named (resolved : List NormalizedFolder) (current : List Folder) : Prop :=
  ∀ folder ∈ resolved, ∃ f ∈ current, f.name = folder.name

/-- The candidates of a role are the takers of the role map. -/
theorem map_roleCandidates (h : WellFormed accountId db) (hsnapshot : Snapshot accountId current db)
    (hnamed : Named resolved current) :
    (roleCandidates resolved current role).map (fun f => folderKey f.name) =
      takers (hintsOf resolved) (roleMap accountId db) role := by
  unfold roleCandidates takers hintsOf
  induction resolved with
  | nil => rfl
  | cons folder rest ih =>
      have ih := ih fun folder hfolder => hnamed folder (List.mem_cons_of_mem _ hfolder)
      by_cases hrole : role ∈ folder.roles
      · cases hfound : current.reverse.find? (·.name == folder.name) with
        | none =>
            obtain ⟨f, hf, hname⟩ := hnamed folder List.mem_cons_self
            have hnone := List.find?_eq_none.mp hfound f (List.mem_reverse.mpr hf)
            exact absurd (beq_iff_eq.mpr hname) hnone
        | some f =>
            have hmem := List.mem_reverse.mp (List.mem_of_find?_eq_some hfound)
            have hname : f.name = folder.name := by simpa using List.find?_some hfound
            obtain ⟨hf, haccount⟩ := (hsnapshot f).mp hmem
            have hmap := roleMap_of_mem h hf haccount
            rw [hname] at hmap
            rw [List.filter_cons_of_pos (by simpa using hrole), List.filterMap_cons]
            simp only [hfound]
            rw [List.map_cons, List.filter_cons, List.filter_cons, hmap]
            by_cases htakes : f.role = none ∨ f.role = some role
            · rw [if_pos (by simpa using htakes), if_pos (by simpa using htakes), List.map_cons, ih,
                hname]
            · rw [if_neg (by simpa using htakes), if_neg (by simpa using htakes), ih]
      · rw [List.filter_cons_of_neg (by simpa using hrole)]
        exact ih

/-- A role has a holder in the snapshot exactly when the role map holds it. -/
theorem roleHolder_isSome (h : WellFormed accountId db)
    (hsnapshot : Snapshot accountId current db) :
    (roleHolder current role).isSome = true ↔ Held (roleMap accountId db) role := by
  unfold roleHolder
  rw [held_roleMap_iff h, List.find?_isSome]
  constructor
  · rintro ⟨f, hf, hrole⟩
    obtain ⟨hstored, haccount⟩ := (hsnapshot f).mp (List.mem_reverse.mp hf)
    exact ⟨f, hstored, haccount, beq_iff_eq.mp hrole⟩
  · rintro ⟨f, hf, haccount, hrole⟩
    exact ⟨f, List.mem_reverse.mpr ((hsnapshot f).mpr ⟨hf, haccount⟩), beq_iff_eq.mpr hrole⟩

/-- The database after one folder took a role. -/
def withRole (db : Database) (folderId : Uuid) (role : FolderRole) : Database :=
  { db with
    folders := db.folders.update (·.id == folderId) (fun f => { f with role := some role })
      fun _ => rfl }

theorem mem_withRole {candidate : Folder} : f ∈ (withRole db candidate.id role).folders ↔
    ∃ f₀ ∈ db.folders, (if f₀.id = candidate.id then { f₀ with role := some role } else f₀) = f := by
  unfold withRole
  rw [Table.mem_update]
  simp

/-- A role that no folder of the account holds is written. -/
theorem setRole_run {candidate : Folder} (h : WellFormed accountId db)
    (hcandidate : candidate ∈ db.folders) (haccount : candidate.accountId = accountId)
    (hempty : ¬ Held (roleMap accountId db) role) :
    (setRole candidate.id (some role)).run db = .ok ((), withRole db candidate.id role) := by
  have hfind : db.folders.find? candidate.id = some candidate :=
    Table.mem_iff_find?.mp hcandidate
  have hfree : (db.folders.rows.any fun f => f.accountId == candidate.accountId &&
      f.role == some role && f.id != candidate.id) = false := by
    rw [List.any_eq_false]
    intro f hf htaken
    simp only [Bool.and_eq_true, beq_iff_eq] at htaken
    exact hempty ((held_roleMap_iff h).mpr ⟨f, hf, htaken.1.1.trans haccount, htaken.1.2⟩)
  simp only [setRole, StateT.run_bind, StateT.run_get, pure_bind, hfind, hfree, Option.isSome_some,
    Bool.and_false, Bool.false_eq_true, if_false]
  rfl

/-- A folder without a role takes one that no folder of the account holds. -/
theorem wellFormed_withRole {candidate : Folder} (h : WellFormed accountId db)
    (hempty : ¬ Held (roleMap accountId db) role) :
    WellFormed accountId (withRole db candidate.id role) := by
  have hheld : ∀ f ∈ db.folders, f.accountId = accountId → f.role ≠ some role :=
    fun f hf haccount hrole => hempty ((held_roleMap_iff h).mpr ⟨f, hf, haccount, hrole⟩)
  constructor
  · intro f hf g hg haccountF haccountG hkey
    obtain ⟨f₀, hf₀, rfl⟩ := mem_withRole.mp hf
    obtain ⟨g₀, hg₀, rfl⟩ := mem_withRole.mp hg
    have heq : f₀ = g₀ := by
      apply h.keys f₀ hf₀ g₀ hg₀
      · split at haccountF <;> exact haccountF
      · split at haccountG <;> exact haccountG
      · split at hkey <;> split at hkey <;> exact hkey
    rw [heq]
  · intro f hf g hg haccountF haccountG role' hroleF hroleG
    obtain ⟨f₀, hf₀, rfl⟩ := mem_withRole.mp hf
    obtain ⟨g₀, hg₀, rfl⟩ := mem_withRole.mp hg
    split at hroleF <;> split at hroleG
    · rename_i hidF hidG
      rw [db.folders.eq_of_key_eq hf₀ hg₀ (hidF.trans hidG.symm)]
    · rename_i hidF hidG
      rw [if_neg hidG] at haccountG
      obtain rfl := Option.some.inj hroleF
      exact absurd hroleG (hheld g₀ hg₀ haccountG)
    · rename_i hidF hidG
      rw [if_neg hidF] at haccountF
      obtain rfl := Option.some.inj hroleG
      exact absurd hroleF (hheld f₀ hf₀ haccountF)
    · rename_i hidF hidG
      rw [if_neg hidF] at haccountF ⊢
      rw [if_neg hidG] at haccountG ⊢
      exact h.roles f₀ hf₀ g₀ hg₀ haccountF haccountG role' hroleF hroleG

theorem roleMap_withRole {candidate : Folder} (h : WellFormed accountId db)
    (hcandidate : candidate ∈ db.folders) (haccount : candidate.accountId = accountId)
    (hempty : ¬ Held (roleMap accountId db) role) :
    roleMap accountId (withRole db candidate.id role) =
      Function.update (roleMap accountId db) (folderKey candidate.name) (some role) := by
  have h' : WellFormed accountId (withRole db candidate.id role) := wellFormed_withRole h hempty
  funext key
  by_cases hkey : ∃ f ∈ db.folders, f.accountId = accountId ∧ folderKey f.name = key
  · obtain ⟨f, hf, haccountF, rfl⟩ := hkey
    have hmem : (if f.id = candidate.id then { f with role := some role } else f) ∈
        (withRole db candidate.id role).folders := mem_withRole.mpr ⟨f, hf, rfl⟩
    by_cases hid : f.id = candidate.id
    · obtain rfl := db.folders.eq_of_key_eq hcandidate hf hid.symm
      rw [if_pos rfl] at hmem
      rw [Function.update_self]
      exact roleMap_of_mem h' hmem haccountF
    · rw [if_neg hid] at hmem
      have hne : folderKey f.name ≠ folderKey candidate.name := fun hkeys =>
        hid (congrArg Folder.id (h.keys f hf candidate hcandidate haccountF haccount hkeys))
      rw [Function.update_of_ne hne, roleMap_of_mem h hf haccountF]
      exact roleMap_of_mem h' hmem haccountF
  · push Not at hkey
    have hne : key ≠ folderKey candidate.name :=
      fun heq => hkey candidate hcandidate haccount heq.symm
    rw [Function.update_of_ne hne, roleMap_of_absent hkey]
    refine roleMap_of_absent fun f hf haccountF => ?_
    obtain ⟨f₀, hf₀, rfl⟩ := mem_withRole.mp hf
    have hname := hkey f₀ hf₀
    split at haccountF <;> split <;> simp_all

theorem snapshot_withRole {candidate : Folder} (h : Snapshot accountId current db) :
    Snapshot accountId (current.map fun f =>
      if f.id = candidate.id then { f with role := some role } else f)
        (withRole db candidate.id role) := by
  intro f
  rw [List.mem_map, mem_withRole]
  constructor
  · rintro ⟨f₀, hf₀, rfl⟩
    obtain ⟨hstored, haccount⟩ := (h f₀).mp hf₀
    refine ⟨⟨f₀, hstored, rfl⟩, ?_⟩
    split <;> exact haccount
  · rintro ⟨⟨f₀, hstored, rfl⟩, haccount⟩
    refine ⟨f₀, (h f₀).mpr ⟨hstored, ?_⟩, rfl⟩
    split at haccount <;> exact haccount

theorem mem_of_mem_roleCandidates (h : f ∈ roleCandidates resolved current role) :
    f ∈ current := by
  obtain ⟨folder, -, hfound⟩ := List.mem_filterMap.mp (List.mem_of_mem_filter h)
  exact List.mem_reverse.mp (List.mem_of_find?_eq_some hfound)

/-! ## All roles -/

variable {fill fill' : RoleFill} {roles : List FolderRole}

/-- What filling roles in order leaves: one round of turns on the role map. -/
structure Fills (accountId : Uuid) (resolved : List NormalizedFolder) (roles : List FolderRole)
    (fill : RoleFill) (db : Database) (fill' : RoleFill) (db' : Database) : Prop where
  wellFormed : WellFormed accountId db'
  snapshot : Snapshot accountId fill'.current db'
  names : fill'.current.map (·.name) = fill.current.map (·.name)
  map : roleMap accountId db' = turns (hintsOf resolved) (roleMap accountId db) roles
  others : db' = { db with folders := db'.folders }
  /-- A role that is reported ambiguous had several takers at its turn. -/
  ambiguous : ∀ role ∈ fill'.ambiguousRoles, role ∈ fill.ambiguousRoles ∨
    ∃ earlier later, roles = earlier ++ role :: later ∧
      2 ≤ (takers (hintsOf resolved)
        (turns (hintsOf resolved) (roleMap accountId db) earlier) role).length

/-- Filling one role is one turn. -/
theorem fillRole_run (h : WellFormed accountId db) (hsnapshot : Snapshot accountId fill.current db)
    (hnamed : Named resolved fill.current) :
    ∃ fill' db', (fillRole resolved fill role).run db = .ok (fill', db') ∧
      Fills accountId resolved [role] fill db fill' db' := by
  have htakers : (roleCandidates resolved fill.current role).map (fun f => folderKey f.name) =
      takers (hintsOf resolved) (roleMap accountId db) role :=
    map_roleCandidates h hsnapshot hnamed
  have hholder : (roleHolder fill.current role).isSome = true ↔
      Held (roleMap accountId db) role := roleHolder_isSome h hsnapshot
  have hskip : ∀ fill', turn (hintsOf resolved) (roleMap accountId db) role =
      roleMap accountId db → fill'.current = fill.current →
        (∀ r ∈ fill'.ambiguousRoles, r ∈ fill.ambiguousRoles ∨
          ∃ earlier later, [role] = earlier ++ r :: later ∧ 2 ≤ (takers (hintsOf resolved)
            (turns (hintsOf resolved) (roleMap accountId db) earlier) r).length) →
              Fills accountId resolved [role] fill db fill' db := by
    intro fill' hturn hcurrent hambiguous
    refine ⟨h, ?_, ?_, hturn.symm, rfl, hambiguous⟩
    · rw [hcurrent]
      exact hsnapshot
    · rw [hcurrent]
  unfold fillRole
  cases hcandidates : roleCandidates resolved fill.current role with
  | nil =>
      rw [hcandidates] at htakers
      refine ⟨fill, db, rfl, hskip fill (turn_of_ne ?_) rfl fun r hr => .inl hr⟩
      rw [← htakers]
      exact Nat.zero_ne_one
  | cons candidate rest =>
      rw [hcandidates] at htakers
      cases rest with
      | nil =>
          have hmem : candidate ∈ fill.current :=
            mem_of_mem_roleCandidates (by rw [hcandidates]; exact List.mem_singleton.mpr rfl)
          obtain ⟨hstored, haccount⟩ := (hsnapshot candidate).mp hmem
          cases hheld : roleHolder fill.current role with
          | none =>
              have hempty : ¬ Held (roleMap accountId db) role := by
                rw [← hholder, hheld]
                exact Bool.false_ne_true
              refine ⟨{ fill with
                current := fill.current.map fun f =>
                  if f.id = candidate.id then { f with role := some role } else f
                assignedRoles := fill.assignedRoles ++ [(role, candidate.name)] },
                withRole db candidate.id role, ?_, ?_⟩
              · rw [StateT.run_bind, setRole_run h hstored haccount hempty]
                rfl
              · refine ⟨wellFormed_withRole h hempty, snapshot_withRole hsnapshot, ?_, ?_, rfl,
                  fun r hr => .inl hr⟩
                · rw [List.map_map]
                  refine List.map_congr_left fun f _ => ?_
                  rw [Function.comp_apply]
                  split <;> rfl
                · rw [roleMap_withRole h hstored haccount hempty]
                  exact (turn_of_single hempty htakers.symm).symm
          | some holder =>
              have hrole : Held (roleMap accountId db) role := by
                rw [← hholder, hheld]
                rfl
              refine ⟨_, db, rfl, hskip _ (turn_of_held hrole) ?_ fun r hr => .inl ?_⟩
              · split <;> rfl
              · split at hr <;> exact hr
      | cons second rest =>
          have hmany : 2 ≤ (takers (hintsOf resolved) (roleMap accountId db) role).length := by
            rw [← htakers, List.map_cons, List.map_cons, List.length_cons, List.length_cons]
            omega
          refine ⟨_, db, rfl, hskip _ (turn_of_ne (by omega)) rfl fun r hr => ?_⟩
          rcases List.mem_append.mp hr with hr | hr
          · exact .inl hr
          · obtain rfl := List.mem_singleton.mp hr
            exact .inr ⟨[], [], rfl, hmany⟩

theorem Named.of_names {current' : List Folder} (h : Named resolved current)
    (hnames : current'.map (·.name) = current.map (·.name)) : Named resolved current' := by
  intro folder hfolder
  obtain ⟨f, hf, hname⟩ := h folder hfolder
  have hmem : f.name ∈ current'.map (·.name) := by
    rw [hnames]
    exact List.mem_map_of_mem hf
  obtain ⟨f', hf', hname'⟩ := List.mem_map.mp hmem
  exact ⟨f', hf', hname'.trans hname⟩

/-- Filling roles in order is one round of turns. -/
theorem fillRoles_run (h : WellFormed accountId db)
    (hsnapshot : Snapshot accountId fill.current db) (hnamed : Named resolved fill.current) :
    ∃ fill' db', (fillRoles resolved fill roles).run db = .ok (fill', db') ∧
      Fills accountId resolved roles fill db fill' db' := by
  induction roles generalizing fill db with
  | nil => exact ⟨fill, db, rfl, h, hsnapshot, rfl, rfl, rfl, fun r hr => .inl hr⟩
  | cons role roles ih =>
      obtain ⟨fill₁, db₁, hrun₁, h₁⟩ :
          ∃ fill₁ db₁, (fillRole resolved fill role).run db = .ok (fill₁, db₁) ∧
            Fills accountId resolved [role] fill db fill₁ db₁ := fillRole_run h hsnapshot hnamed
      obtain ⟨fill₂, db₂, hrun₂, h₂⟩ :=
        ih h₁.wellFormed h₁.snapshot (hnamed.of_names h₁.names)
      have hfirst : roleMap accountId db₁ =
          turn (hintsOf resolved) (roleMap accountId db) role := h₁.map
      refine ⟨fill₂, db₂, ?_, h₂.wellFormed, h₂.snapshot, h₂.names.trans h₁.names, ?_, ?_, ?_⟩
      · rw [fillRoles, StateT.run_bind, hrun₁]
        exact hrun₂
      · rw [h₂.map, hfirst]
        rfl
      · rw [h₂.others, h₁.others]
      · intro r hr
        rcases h₂.ambiguous r hr with hr | ⟨earlier, later, hsplit, hmany⟩
        · rcases h₁.ambiguous r hr with hr | ⟨earlier, later, hsplit, hmany⟩
          · exact .inl hr
          · cases earlier with
            | nil =>
                obtain ⟨rfl, rfl⟩ := List.cons.inj hsplit
                exact .inr ⟨[], roles, rfl, hmany⟩
            | cons first earlier =>
                have hlength := congrArg List.length hsplit
                simp at hlength
        · refine .inr ⟨role :: earlier, later, ?_, ?_⟩
          · rw [hsplit]
            rfl
          · rw [hfirst] at hmany
            exact hmany

/-! ## Fresh folders -/

variable {newId : ℕ → Uuid} {n : ℕ} {names : List String} {name : String}

/-- The identifiers of new rows are new, as the database draws them. -/
structure Fresh (newId : ℕ → Uuid) (db : Database) : Prop where
  absent : ∀ n, db.folders.find? (newId n) = none
  injective : Function.Injective newId

/-- A folder whose key is new is inserted. -/
theorem insertFolder?_run (hid : db.folders.find? (newId n) = none)
    (hkey : ∀ f ∈ db.folders, f.accountId = accountId → folderKey f.name ≠ folderKey name) :
    ∃ folders, insertFolder? db.folders (Folder.named (newId n) accountId name) = some folders ∧
      ∀ f, f ∈ folders ↔ f ∈ db.folders ∨ f = Folder.named (newId n) accountId name := by
  have hname : (db.folders.rows.any fun f => f.accountId == accountId && f.name == name) = false := by
    rw [List.any_eq_false]
    intro f hf htaken
    rw [Bool.and_eq_true, beq_iff_eq, beq_iff_eq] at htaken
    exact hkey f hf htaken.1 (congrArg folderKey htaken.2)
  have hsome := (Table.insert?_isSome (r := Folder.named (newId n) accountId name)).mpr hid
  obtain ⟨folders, hfolders⟩ := Option.isSome_iff_exists.mp hsome
  refine ⟨folders, ?_, fun f => Table.mem_insert? hfolders⟩
  unfold insertFolder?
  rw [if_neg (by rw [Folder.named]; exact ne_true_of_eq_false hname)]
  exact hfolders

/-- A new folder has no role, so the role map stays. -/
theorem insertion_keeps {folders : Table Folder} {id : Uuid} (h : WellFormed accountId db)
    (hkey : ∀ f ∈ db.folders, f.accountId = accountId → folderKey f.name ≠ folderKey name)
    (hmem : ∀ f, f ∈ folders ↔ f ∈ db.folders ∨ f = Folder.named id accountId name) :
    WellFormed accountId { db with folders } ∧
      roleMap accountId { db with folders } = roleMap accountId db := by
  have h' : WellFormed accountId { db with folders } := by
    constructor
    · intro f hf g hg haccountF haccountG hkeys
      rcases (hmem f).mp hf with hf | rfl <;> rcases (hmem g).mp hg with hg | rfl
      · exact h.keys f hf g hg haccountF haccountG hkeys
      · exact absurd hkeys (hkey f hf haccountF)
      · exact absurd hkeys.symm (hkey g hg haccountG)
      · rfl
    · intro f hf g hg haccountF haccountG role hroleF hroleG
      rcases (hmem f).mp hf with hf | rfl <;> rcases (hmem g).mp hg with hg | rfl
      · exact h.roles f hf g hg haccountF haccountG role hroleF hroleG
      · cases hroleG
      · cases hroleF
      · rfl
  refine ⟨h', ?_⟩
  funext key
  cases hrole : roleMap accountId db key with
  | some role =>
      obtain ⟨f, hf, haccount, hkeyF, hroleF⟩ := (roleMap_eq_some_iff h).mp hrole
      exact (roleMap_eq_some_iff h').mpr ⟨f, (hmem f).mpr (.inl hf), haccount, hkeyF, hroleF⟩
  | none =>
      cases hrole' : roleMap accountId { db with folders } key with
      | none => rfl
      | some role =>
          obtain ⟨f, hf, haccount, hkeyF, hroleF⟩ := (roleMap_eq_some_iff h').mp hrole'
          rcases (hmem f).mp hf with hf | rfl
          · rw [(roleMap_eq_some_iff h).mpr ⟨f, hf, haccount, hkeyF, hroleF⟩] at hrole
            cases hrole
          · cases hroleF

/-- Inserting the fresh folders gives every one of them a row and leaves the role map. -/
theorem insertFresh_run (h : WellFormed accountId db) (hinjective : Function.Injective newId)
    (habsent : ∀ m, n ≤ m → db.folders.find? (newId m) = none)
    (hnodup : (names.map folderKey).Nodup)
    (hkeys : ∀ name ∈ names, ∀ f ∈ db.folders, f.accountId = accountId →
      folderKey f.name ≠ folderKey name) :
    ∃ inserted db', (insertFresh accountId newId n names).run db = .ok (inserted, db') ∧
      db' = { db with folders := db'.folders } ∧ WellFormed accountId db' ∧
      roleMap accountId db' = roleMap accountId db ∧ (∀ f ∈ db.folders, f ∈ db'.folders) ∧
      ∀ name ∈ names, ∃ f ∈ db'.folders, f.accountId = accountId ∧ f.name = name := by
  induction names generalizing db n with
  | nil =>
      refine ⟨[], db, rfl, rfl, h, rfl, fun f hf => hf, fun name hname => ?_⟩
      cases hname
  | cons name names ih =>
      obtain ⟨hfirst, hrest⟩ := List.nodup_cons.mp hnodup
      have hkey := hkeys name List.mem_cons_self
      obtain ⟨folders, hinsert, hmem⟩ := insertFolder?_run (habsent n le_rfl) hkey
      obtain ⟨h₁, hmap₁⟩ := insertion_keeps h hkey hmem
      have habsent₁ : ∀ m, n + 1 ≤ m → folders.find? (newId m) = none := by
        intro m hm
        rw [Table.find?_eq_none_iff]
        intro f hf hfid
        rcases (hmem f).mp hf with hf | rfl
        · exact Table.find?_eq_none_iff.mp (habsent m (by omega)) f hf hfid
        · have := hinjective hfid
          omega
      have hkeys₁ : ∀ name' ∈ names, ∀ f ∈ folders, f.accountId = accountId →
          folderKey f.name ≠ folderKey name' := by
        intro name' hname' f hf haccount
        rcases (hmem f).mp hf with hf | rfl
        · exact hkeys name' (List.mem_cons_of_mem _ hname') f hf haccount
        · intro heq
          exact hfirst (heq ▸ List.mem_map_of_mem hname')
      obtain ⟨inserted, db₂, hrun, hothers, h₂, hmap₂, hkept, hnamed⟩ :=
        ih h₁ habsent₁ hrest hkeys₁
      refine ⟨newId n :: inserted, db₂, ?_, hothers, h₂, hmap₂.trans hmap₁,
        fun f hf => hkept f ((hmem f).mpr (.inl hf)), fun name' hname' => ?_⟩
      · simp only [insertFresh, StateT.run_bind, StateT.run_get, pure_bind, hinsert, StateT.run_set,
          hrun]
        rfl
      · rcases List.mem_cons.mp hname' with rfl | hname'
        · exact ⟨_, hkept _ ((hmem _).mpr (.inr rfl)), rfl, rfl⟩
        · exact hnamed name' hname'

end MailHub.Accounts
