import MailHub.Actions.Items

/-!
# Remote effects of mail actions

Every remote write of an item is licensed: the run that makes it claimed the item, or read it as
executing when it loaded the items. An item is claimed at most once in a run of the system, so an
item that moves a message is written at most once as long as no run reads one of them as executing.
-/

namespace MailHub

open Relational Interleaving

/-- Database and log at one moment of a run. -/
abbrev ActionWorld := World mailSignature ActionLog

variable {libs : Libraries} {guarded : Prop} {i : ℕ} {α : Type}

/-! ## The discipline -/

/-- Worker `i` made the remote write of an item. -/
def Wrote (i : ℕ) (log : ActionLog) (key : Uuid × Uuid) : Prop :=
  ∃ a ∈ log.applied, a.1 = i ∧ a.2.key = key

/-- The invariant of database and log. -/
structure ActionInv (guarded : Prop) (w : ActionWorld) : Prop where
  /-- A remote write was made by the claimant or by a run that found the item executing. -/
  licensed : ∀ a ∈ w.outside.applied,
    w.outside.claimant a.2.key = some a.1 ∨ (a.1, a.2.key) ∈ w.outside.found
  /-- A prepared item has the kind of its action. -/
  kind : ∀ a ∈ w.outside.applied, ∃ action,
    w.store.actions.find? a.2.actionId = some action ∧ action.kind = a.2.kind
  /-- A claimed item is not in the queue. -/
  taken : ∀ key j, w.outside.claimant key = some j →
    ∃ item, w.store.actionItems.find? key = some item ∧ item.status ≠ .queued
  /-- A move was written by the claimant. -/
  owned : guarded → ∀ a ∈ w.outside.applied, requiresDestination a.2.kind = true →
    w.outside.claimant a.2.key = some a.1
  /-- No move was written twice. -/
  once : guarded →
    ((w.outside.applied.filter fun a => requiresDestination a.2.kind).map (·.2.key)).Nodup
  /-- An item is named by its occurrence. -/
  targeted : Targeted w.store

/-- What worker `i` relies on. -/
structure ActionRely (guarded : Prop) (i : ℕ) (w w' : ActionWorld) : Prop where
  /-- Actions and items evolve. -/
  evolves : ActionsEvolve w.store w'.store
  /-- An item that the worker claimed stays its own. -/
  claim : ∀ key, w.outside.claimant key = some i → w'.outside.claimant key = some i
  /-- What the worker found executing stays recorded. -/
  found : ∀ key, (i, key) ∈ w.outside.found → (i, key) ∈ w'.outside.found
  /-- Nobody else writes a move that the worker claimed. -/
  applied : guarded → ∀ key, w.outside.claimant key = some i → ∀ a ∈ w'.outside.applied,
    requiresDestination a.2.kind = true → a.2.key = key → a ∈ w.outside.applied
  /-- What the worker wrote stays recorded. -/
  wrote : ∀ key, Wrote i w.outside key → Wrote i w'.outside key

theorem ActionRely.refl (i : ℕ) (w : ActionWorld) : ActionRely guarded i w w :=
  ⟨.refl _, fun _ => id, fun _ => id, fun _ _ _ _ ha _ _ => ha, fun _ => id⟩

theorem ActionRely.trans {w₁ w₂ w₃ : ActionWorld} (h₁ : ActionRely guarded i w₁ w₂)
    (h₂ : ActionRely guarded i w₂ w₃) : ActionRely guarded i w₁ w₃ where
  evolves := h₁.evolves.trans h₂.evolves
  claim key hc := h₂.claim key (h₁.claim key hc)
  found key hf := h₂.found key (h₁.found key hf)
  applied hg key hc a ha hm hk :=
    h₁.applied hg key hc a (h₂.applied hg key (h₁.claim key hc) a ha hm hk) hm hk
  wrote key hw := h₂.wrote key (h₁.wrote key hw)

/-- A run that reads the items of a move finds none executing. -/
def Undisturbed (tag : Option MailTag) (w : ActionWorld) : Prop :=
  ∀ actionId action, tag = some (.reloadItems actionId) →
    w.store.actions.find? actionId = some action → requiresDestination action.kind = true →
      executingKeys actionId w.store = []

/-- The discipline of the action service. -/
def actionDiscipline (libs : Libraries) (guarded : Prop) : Discipline (actionSystem libs) where
  inv := ActionInv guarded
  rely := ActionRely guarded
  assumes := ⟨fun _ tag w _ => guarded → Undisturbed tag w, fun _ _ _ _ => True⟩
  ensures :=
    ⟨fun i _ w w' => Dispositions (Wrote i w.outside) w.store w'.store, fun _ _ _ _ => True⟩
  rely_refl := ActionRely.refl
  rely_trans := fun _ _ _ _ => ActionRely.trans
  ensures_read := fun _ _ _ => .refl
  inv_tick := fun _ t => nomatch t
  rely_tick := fun _ _ t => nomatch t
  inv_retire := fun _ _ h => h
  rely_retire := fun w _ j _ _ => .refl j w

/-- The program keeps the discipline with nothing to know. -/
abbrev KeepsActions {α : Type} (libs : Libraries) (guarded : Prop) (i : ℕ) (p : MailProgram α) :
    Prop := Preserves (actionDiscipline libs guarded) i (fun _ => True) p

/-! ## Steps -/

/-- A commit that leaves the log alone but for what was found keeps the discipline. -/
theorem keeps_of_evolves {w : ActionWorld} {db' : Database} {found : List (ℕ × Uuid × Uuid)}
    (hw : ActionInv guarded w) (he : ActionsEvolve w.store db')
    (hfound : ∀ a ∈ w.outside.found, a ∈ found) :
    (actionDiscipline libs guarded).Keeps i w ⟨db', { w.outside with found }⟩ := by
  refine ⟨⟨fun a ha => ?_, fun a ha => ?_, fun key j hj => ?_, hw.owned, hw.once,
    he.targeted hw.targeted⟩, fun j _ =>
    ⟨he, fun _ => id, fun _ hf => hfound _ hf, fun _ _ _ _ ha _ _ => ha, fun _ => id⟩⟩
  · exact (hw.licensed a ha).imp id fun hf => hfound _ hf
  · obtain ⟨action, haction, hkind⟩ := hw.kind a ha
    obtain ⟨action', haction', hkind'⟩ := he.action _ action haction
    exact ⟨action', haction', hkind'.trans hkind⟩
  · obtain ⟨item, hitem, hs⟩ := hw.taken key j hj
    obtain ⟨item', hitem', hq⟩ := he.item key item hitem
    exact ⟨item', hitem', fun hq' => hs (hq hq')⟩

/-- A transaction that only evolves the actions. -/
theorem preserves_evolving {t : Tx α} {K : ActionWorld → Prop}
    (hK : Stable (actionDiscipline libs guarded) i K)
    (hown : ∀ w db', ActionsEvolve w.store db' → K w → K ⟨db', w.outside⟩)
    (ht : ∀ db, EvolvesActions db t)
    (hd : ∀ (w : ActionWorld) b db', K w → t.run w.store = .ok (b, db') →
      Dispositions (Wrote i w.outside) w.store db') :
    Preserves (actionDiscipline libs guarded) i K (MailProgram.transact t) := by
  refine ⟨fun w hw => .transaction (fun w' hr hi b db' hrun _ => ?_)
    fun _ w' hr hi _ => hK w w' hr hi hw⟩
  have he := (ht w'.store).step b db' hrun
  have hw' := hK w w' hr hi hw
  refine ⟨keeps_of_evolves hi he fun _ ha => ha, hd w' b db' hw' hrun, .pure fun w₂ hr₂ hi₂ => ?_⟩
  exact hK _ w₂ hr₂ hi₂ (hown w' db' he hw')

theorem keeps_evolving {t : Tx α} (ht : ∀ db, EvolvesActions db t)
    (hd : ∀ (w : ActionWorld) b db', t.run w.store = .ok (b, db') →
      Dispositions (Wrote i w.outside) w.store db') :
    KeepsActions libs guarded i (MailProgram.transact t) :=
  preserves_evolving .trivial (fun _ _ _ => id) ht fun w b db' _ => hd w b db'

/-- A request other than a remote write changes nothing that anyone knows. -/
theorem preserves_asking {c : MailCall} {K : ActionWorld → Prop}
    (hK : Stable (actionDiscipline libs guarded) i K)
    (hc : ∀ log, ActionLog.afterCall i log c = log) :
    Preserves (actionDiscipline libs guarded) i K (MailProgram.ask c) := by
  refine ⟨fun w hw => .request fun w' hr hi r o ho _ => ?_⟩
  obtain rfl : w'.outside = o := by simpa [actionSystem, hc] using ho
  exact ⟨⟨hi, fun j _ => .refl j w'⟩, trivial,
    (Preserves.ofExcept hK r).safe w' (hK w w' hr hi hw)⟩

/-! ## What a run knows -/

/-- What a run knows of its action and of the items that its reload returned: the action is stored
with its kind, and the items read as executing are recorded; under the guard they never move. -/
structure Working (guarded : Prop) (i : ℕ) (action : Action) (items : List ActionItem)
    (w : ActionWorld) : Prop where
  /-- The stored action has the kind that the run read. -/
  stored : ∃ action', w.store.actions.find? action.id = some action' ∧ action'.kind = action.kind
  /-- An item read as executing is recorded. -/
  reloaded : ∀ item ∈ items, item.status = .executing →
    (i, action.id, item.itemKey) ∈ w.outside.found ∧
      (guarded → requiresDestination action.kind = false)
  /-- A reloaded item is named by its occurrence. -/
  targeted : ∀ item ∈ items, item.target.occurrenceId = item.itemKey

variable {action : Action} {items : List ActionItem} {w : ActionWorld}

theorem Working.evolves {db' : Database} {o : ActionLog} (h : Working guarded i action items w)
    (he : ActionsEvolve w.store db')
    (hf : ∀ key, (i, key) ∈ w.outside.found → (i, key) ∈ o.found) :
    Working guarded i action items ⟨db', o⟩ := by
  obtain ⟨action', hfind, hkind⟩ := h.stored
  obtain ⟨action₂, hfind₂, hkind₂⟩ := he.action _ action' hfind
  exact ⟨⟨action₂, hfind₂, hkind₂.trans hkind⟩, fun item hi hs =>
    ⟨hf _ (h.reloaded item hi hs).1, (h.reloaded item hi hs).2⟩, h.targeted⟩

theorem stable_working :
    Stable (actionDiscipline libs guarded) i (Working guarded i action items) :=
  fun _ _ hr _ h => h.evolves hr.evolves hr.found

/-- Worker `i` may write an item: it claimed the item and nobody wrote it as a move, or it found
the item executing and the action does not move. -/
def Licensed (guarded : Prop) (i : ℕ) (action : Action) (itemKey : Uuid) (w : ActionWorld) :
    Prop :=
  (w.outside.claimant (action.id, itemKey) = some i ∧
    (guarded → ∀ a ∈ w.outside.applied, requiresDestination a.2.kind = true →
      a.2.key ≠ (action.id, itemKey))) ∨
  ((i, action.id, itemKey) ∈ w.outside.found ∧
    (guarded → requiresDestination action.kind = false))

theorem stable_licensed (action : Action) (itemKey : Uuid) :
    Stable (actionDiscipline libs guarded) i (Licensed guarded i action itemKey) := by
  intro w w' hr _ h
  rcases h with ⟨hclaim, hfresh⟩ | ⟨hfound, hkind⟩
  · refine .inl ⟨hr.claim _ hclaim, fun hg a ha hm hk => ?_⟩
    exact hfresh hg a (hr.applied hg _ hclaim a ha hm hk) hm hk
  · exact .inr ⟨hr.found _ hfound, hkind⟩

/-- What a run knows once it wrote one of its items. -/
def Written (guarded : Prop) (i : ℕ) (action : Action) (items : List ActionItem) (itemKey : Uuid)
    (w : ActionWorld) : Prop :=
  Working guarded i action items w ∧ Wrote i w.outside (action.id, itemKey)

theorem stable_written {itemKey : Uuid} :
    Stable (actionDiscipline libs guarded) i (Written guarded i action items itemKey) :=
  fun _ _ hr hi h => ⟨stable_working _ _ hr hi h.1, hr.wrote _ h.2⟩

/-- A remote write under a licence keeps the discipline. -/
theorem safe_applyAction {mailbox : ℕ} {item : PreparedActionItem}
    (hid : item.actionId = action.id) (hkind : item.kind = action.kind)
    (h : Working guarded i action items w) (hl : Licensed guarded i action item.itemKey w) :
    Safe (actionDiscipline libs guarded) i (MailProgram.applyAction mailbox item) w
      (fun _ => Written guarded i action items item.itemKey)
      fun _ => Written guarded i action items item.itemKey := by
  refine .request fun w' hr hi r o ho _ => ?_
  obtain rfl : ({ w'.outside with applied := w'.outside.applied ++ [(i, item)] } : ActionLog) = o :=
    by simpa [actionSystem, ActionLog.afterCall] using ho
  have hkey : item.key = (action.id, item.itemKey) := by rw [PreparedActionItem.key, hid]
  have hworking := stable_working _ _ hr hi h
  obtain ⟨action', hstored, hkind'⟩ := hworking.stored
  have hlicence := stable_licensed action _ _ _ hr hi hl
  -- under the guard a move is written by its claimant only
  have hmove : guarded → requiresDestination item.kind = true →
      w'.outside.claimant item.key = some i ∧ ∀ a ∈ w'.outside.applied,
        requiresDestination a.2.kind = true → a.2.key ≠ item.key := by
    intro hg hm
    rcases hlicence with ⟨hclaim, hfresh⟩ | ⟨-, hreplay⟩
    · rw [hkey]
      exact ⟨hclaim, hfresh hg⟩
    · rw [hkind, hreplay hg] at hm
      cases hm
  have hgrown : ∀ j key, Wrote j w'.outside key →
      Wrote j { w'.outside with applied := w'.outside.applied ++ [(i, item)] } key := by
    rintro j key ⟨a, ha, hwrote⟩
    exact ⟨a, List.mem_append_left _ ha, hwrote⟩
  refine ⟨⟨⟨fun a ha => ?_, fun a ha => ?_, hi.taken, fun hg a ha hm => ?_, fun hg => ?_,
    hi.targeted⟩, fun j hj => ⟨.refl _, fun _ => id, fun _ => id, fun hg key hc a ha hm hk => ?_,
    hgrown j⟩⟩, trivial, (Preserves.ofExcept stable_written r).safe _
      ⟨hworking.evolves (.refl _) fun _ => id, (i, item), by simp, rfl, hkey⟩⟩
  · rcases List.mem_append.mp ha with ha | ha
    · exact hi.licensed a ha
    · obtain rfl := List.mem_singleton.mp ha
      rw [hkey]
      exact hlicence.imp And.left And.left
  · rcases List.mem_append.mp ha with ha | ha
    · exact hi.kind a ha
    · obtain rfl := List.mem_singleton.mp ha
      exact ⟨action', by rw [hid, hstored], by rw [hkind', hkind]⟩
  · rcases List.mem_append.mp ha with ha | ha
    · exact hi.owned hg a ha hm
    · obtain rfl := List.mem_singleton.mp ha
      exact (hmove hg hm).1
  · rw [List.filter_append, List.map_append, List.filter_singleton]
    cases hm : requiresDestination item.kind with
    | true =>
      rw [cond_true]
      refine List.nodup_append.mpr ⟨hi.once hg, List.nodup_singleton _, fun k hk k' hk' => ?_⟩
      obtain ⟨a, ha, rfl⟩ := List.mem_map.mp hk
      obtain rfl := List.mem_singleton.mp hk'
      obtain ⟨ha, hma⟩ := List.mem_filter.mp ha
      exact (hmove hg hm).2 a ha hma
    | false =>
      rw [cond_false, List.map_nil, List.append_nil]
      exact hi.once hg
  · rcases List.mem_append.mp ha with ha | ha
    · exact ha
    · obtain rfl := List.mem_singleton.mp ha
      subst hk
      exact absurd (Option.some.inj (hc.symm.trans (hmove hg hm).1)) hj

/-! ### The claim of an item -/

theorem itemHasStatus_iff {status : ActionItemStatus} {key : Uuid × Uuid} {db : Database} :
    itemHasStatus status key db = true ↔
      ∃ item, db.actionItems.find? key = some item ∧ item.status = status := by
  simp [itemHasStatus, Option.any_eq_true]

/-- A successful claim takes the item from the queue. -/
theorem claimItem_claims {db db' : Database} {actionId itemKey : Uuid}
    (hrun : (claimItem actionId itemKey).run db = .ok (true, db')) :
    itemHasStatus .queued (actionId, itemKey) db = true ∧
      itemHasStatus .executing (actionId, itemKey) db' = true := by
  simp [claimItem] at hrun
  obtain ⟨hselected, rfl⟩ := hrun
  obtain ⟨item, hitem⟩ := List.exists_mem_of_ne_nil _ hselected
  obtain ⟨hmem, hp⟩ := Table.mem_select.mp hitem
  simp only [Bool.and_eq_true, beq_iff_eq] at hp
  obtain ⟨⟨rfl, rfl⟩, hstatus⟩ := hp
  have hfind : db.actionItems.find? (item.actionId, item.itemKey) = some item :=
    Table.mem_iff_find?.mp hmem
  exact ⟨itemHasStatus_iff.mpr ⟨item, hfind, hstatus⟩, by simp [itemHasStatus, hfind, hstatus]⟩

/-- The world after the claim of an item. -/
theorem committed_claimItem {w : ActionWorld} {db' : Database} (actionId itemKey : Uuid) :
    Config.committed (actionSystem libs) w i (some (.claimItem actionId itemKey)) db' =
      ⟨db', if itemHasStatus .queued (actionId, itemKey) w.store &&
          itemHasStatus .executing (actionId, itemKey) db' then
        { w.outside with
          claimant := Function.update w.outside.claimant (actionId, itemKey) (some i) }
        else w.outside⟩ := rfl

/-- A claim finds nothing executing. -/
theorem afterCommit_found {db db' : Database} {log : ActionLog} (actionId itemKey : Uuid) :
    (log.afterCommit i db db' (some (.claimItem actionId itemKey))).found = log.found := by
  simp only [ActionLog.afterCommit]
  split
  · rfl
  · rfl

/-- A queued item was claimed by nobody. -/
theorem ActionInv.unclaimed {w : ActionWorld} (hw : ActionInv guarded w) {key : Uuid × Uuid}
    (hq : itemHasStatus .queued key w.store = true) : w.outside.claimant key = none := by
  cases hc : w.outside.claimant key with
  | none => rfl
  | some j =>
      obtain ⟨item, hitem, hne⟩ := hw.taken key j hc
      obtain ⟨item', hitem', hs⟩ := itemHasStatus_iff.mp hq
      exact absurd (Option.some.inj (hitem.symm.trans hitem') ▸ hs) hne

/-- Claiming an item keeps the discipline. -/
theorem keeps_of_claimItem {w : ActionWorld} {db' : Database} {actionId itemKey : Uuid}
    (hw : ActionInv guarded w) (he : ActionsEvolve w.store db') :
    (actionDiscipline libs guarded).Keeps i w
      (Config.committed (actionSystem libs) w i (some (.claimItem actionId itemKey)) db') := by
  rw [committed_claimItem]
  by_cases heffect : (itemHasStatus .queued (actionId, itemKey) w.store &&
      itemHasStatus .executing (actionId, itemKey) db') = true
  · rw [if_pos heffect]
    obtain ⟨hqueued, hexecuting⟩ := Bool.and_eq_true_iff.mp heffect
    have hnone := hw.unclaimed hqueued
    have hne : ∀ key j, w.outside.claimant key = some j → key ≠ (actionId, itemKey) := by
      rintro key j hj rfl
      rw [hnone] at hj
      cases hj
    refine ⟨⟨fun a ha => ?_, fun a ha => ?_, fun key j hj => ?_, fun hg a ha hm => ?_, hw.once,
      he.targeted hw.targeted⟩, fun j hj => ⟨he, fun key hc => ?_, fun _ => id,
      fun _ _ _ _ ha _ _ => ha, fun _ => id⟩⟩
    · refine (hw.licensed a ha).imp (fun hc => ?_) id
      exact (Function.update_of_ne (hne _ _ hc) ..).trans hc
    · obtain ⟨action, haction, hkind⟩ := hw.kind a ha
      obtain ⟨action', haction', hkind'⟩ := he.action _ action haction
      exact ⟨action', haction', hkind'.trans hkind⟩
    · by_cases hk : key = (actionId, itemKey)
      · subst hk
        obtain ⟨item, hitem, hs⟩ := itemHasStatus_iff.mp hexecuting
        exact ⟨item, hitem, by simp [hs]⟩
      · obtain ⟨item, hitem, hs⟩ := hw.taken key j (by
          simpa [Function.update_of_ne hk] using hj)
        obtain ⟨item', hitem', hq⟩ := he.item key item hitem
        exact ⟨item', hitem', fun hq' => hs (hq hq')⟩
    · have hc := hw.owned hg a ha hm
      exact (Function.update_of_ne (hne _ _ hc) ..).trans hc
    · exact (Function.update_of_ne (hne _ _ hc) ..).trans hc
  · rw [if_neg heffect]
    exact keeps_of_evolves hw he fun _ ha => ha

/-- The run that claims an item is licensed to write it. -/
theorem safe_markExecuting {itemKey : Uuid} (h : Working guarded i action items w) :
    Safe (actionDiscipline libs guarded) i (markExecuting action.id itemKey) w
      (fun claimed w' => Working guarded i action items w' ∧
        (claimed = true → Licensed guarded i action itemKey w'))
      fun _ => Working guarded i action items := by
  refine .transaction (fun w' hr hi claimed db' hrun _ => ?_) fun _ w' hr hi _ =>
    stable_working _ _ hr hi h
  have he := (claimItem_evolves).step claimed db' hrun
  have hworking : Working guarded i action items
      (Config.committed (actionSystem libs) w' i (some (.claimItem action.id itemKey)) db') := by
    refine (stable_working _ _ hr hi h).evolves he fun key hf => ?_
    rw [← afterCommit_found action.id itemKey] at hf
    exact hf
  refine ⟨keeps_of_claimItem hi he, claimItem_dispositions hrun, .pure fun w₂ hr₂ hi₂ => ?_⟩
  refine ⟨stable_working _ _ hr₂ hi₂ hworking, ?_⟩
  rintro rfl
  obtain ⟨hqueued, hexecuting⟩ := claimItem_claims hrun
  refine stable_licensed action itemKey _ _ hr₂ hi₂ (.inl ?_)
  rw [committed_claimItem, if_pos (by rw [hqueued, hexecuting]; rfl)]
  refine ⟨Function.update_self .., fun hg a ha hm hk => ?_⟩
  have hc := hi.owned hg a ha hm
  rw [hk, hi.unclaimed hqueued] at hc
  cases hc

/-! ### The reload of the items -/

/-- A reload records the items that it found executing. -/
theorem safe_reload (h : Working guarded i action [] w) :
    Safe (actionDiscipline libs guarded) i
      (Program.transaction (S := mailSignature) (some (.reloadItems action.id))
        (Tx.read (itemsOf action.id))) w
      (fun items => Working guarded i action items) fun _ _ => True := by
  refine .transaction (fun w' hr hi items db' hrun hassume => ?_) fun _ _ _ _ _ => trivial
  obtain ⟨rfl, rfl⟩ : itemsOf action.id w'.store = items ∧ w'.store = db' := by
    simpa [Tx.read] using hrun
  have hworking := stable_working _ _ hr hi h
  refine ⟨keeps_of_evolves hi (.refl _) fun a ha => List.mem_append_left _ ha, .refl,
    .pure fun w₂ hr₂ hi₂ => stable_working _ _ hr₂ hi₂ ⟨hworking.stored, fun item hitem hs => ?_,
      fun item hitem => ?_⟩⟩
  rotate_left
  · exact hi.targeted item (Table.mem_select.mp ((List.mem_insertionSort _).mp hitem)).1
  have hexecuting : (action.id, item.itemKey) ∈ executingKeys action.id w'.store := by
    refine List.mem_map.mpr ⟨item, List.mem_filter.mpr ⟨hitem, by simp [hs]⟩, ?_⟩
    have hp := (List.mem_insertionSort _).mp hitem
    have hid : item.actionId = action.id := by simpa using (Table.mem_select.mp hp).2
    rw [← hid]
    rfl
  refine ⟨List.mem_append_right _ (List.mem_map.mpr ⟨_, hexecuting, rfl⟩), fun hg => ?_⟩
  obtain ⟨action', hfind, hkind⟩ := hworking.stored
  by_contra hmove
  have hempty := hassume hg action.id action' rfl hfind (by rw [hkind]; simpa using hmove)
  rw [hempty] at hexecuting
  cases hexecuting

/-! ## Walks -/

/-- A receipt keeps what a run knows that made the remote write. -/
theorem preserves_commitReceipt {actionId : Uuid} {item : ActionItem} {write : ItemWrite}
    {K : ActionWorld → Prop} (hK : Stable (actionDiscipline libs guarded) i K)
    (hown : ∀ w db', ActionsEvolve w.store db' → K w → K ⟨db', w.outside⟩)
    (hwrite : write.Faithful)
    (htarget : write.observed.isSome ∨ write.expunge = true ∨ write.applied = true →
      item.target.occurrenceId = item.itemKey)
    (hreceipt : write.supersedesHold = true →
      ∀ w, K w → Wrote i w.outside (actionId, item.itemKey)) :
    Preserves (actionDiscipline libs guarded) i K (commitDisposition actionId item write) := by
  have hqueue : write.status ≠ .queued := by
    intro hs
    have hsettled := hwrite.settled
    rw [hs] at hsettled
    cases hsettled
  refine .bind (preserves_asking hK fun _ => rfl) fun _ =>
    preserves_evolving hK hown (fun _ => disposeItem_evolves hqueue) fun w b db' hw hrun => ?_
  refine (disposeItem_dispositions hwrite htarget hrun).mono ?_
  rintro key ⟨hsupersedes, rfl⟩
  exact hreceipt hsupersedes w hw

/-- The disposition of an item keeps what a run knows. -/
theorem preserves_commitDisposition {actionId : Uuid} {item : ActionItem} {write : ItemWrite}
    (hwrite : write.Faithful)
    (htarget : write.observed.isSome ∨ write.expunge = true ∨ write.applied = true →
      item.target.occurrenceId = item.itemKey) (hkeep : write.supersedesHold = false) :
    Preserves (actionDiscipline libs guarded) i (Working guarded i action items)
      (commitDisposition actionId item write) :=
  preserves_commitReceipt stable_working (fun _ _ he h => h.evolves he fun _ => id) hwrite htarget
    fun hsupersedes => absurd (hkeep.symm.trans hsupersedes) (by simp)

/-- A conflict leaves the occurrence alone. -/
theorem preserves_commitConflict {actionId : Uuid} {item : ActionItem} {reason : String}
    {extra : List (String × OutcomeValue)} (hextra : numbersOnly extra) :
    Preserves (actionDiscipline libs guarded) i (Working guarded i action items)
      (commitDisposition actionId item (conflict reason extra)) :=
  preserves_commitDisposition (conflict_faithful hextra) (fun h => by simp [conflict] at h) rfl

theorem preserves_conflictItems {actionId : Uuid} {conflicted : List ActionItem} {reason : String}
    {extra : List (String × OutcomeValue)} (hextra : numbersOnly extra) :
    Preserves (actionDiscipline libs guarded) i (Working guarded i action items)
      (conflictItems actionId conflicted reason extra) := by
  refine .bind (.forIn stable_working fun item _ _ => ?_) fun _ => .pure stable_working _
  refine .bind (preserves_commitConflict fun e he => ?_) fun _ => .pure stable_working _
  rcases List.mem_append.mp he with he | he
  · exact hextra e he
  · simp only [List.mem_cons, List.not_mem_nil, or_false] at he
    rcases he with rfl | rfl <;> simp

theorem preserves_assessmentOf (d : Deployment) {K : ActionWorld → Prop}
    (hK : Stable (actionDiscipline libs guarded) i K) :
    Preserves (actionDiscipline libs guarded) i K (assessmentOf d action) :=
  .bind (Preserves.read (S := mailSignature) hK _) fun _ => .pure hK _

/-- A claimed or reloaded item is written under a licence. -/
theorem preserves_applyItem {d : Deployment} {mailbox : ℕ} {g : SelectedGroup} {item : ActionItem}
    (hitem : item ∈ items) (remote : ActionMailboxFlags) :
    Preserves (actionDiscipline libs guarded) i (Working guarded i g.action items)
      (applyItem d mailbox g item remote) := by
  refine ⟨fun w hw => .bind ((safe_markExecuting hw).mono (fun claimed w' _ hclaimed => ?_)
    fun _ _ _ => id)⟩
  obtain ⟨hw', hlicence⟩ := hclaimed
  by_cases hskip : claimed = false ∧ item.status ≠ .executing
  · simp only [if_pos hskip]
    exact (Preserves.pure stable_working _).safe w' hw'
  simp only [if_neg hskip]
  have hl : Licensed guarded i g.action item.itemKey w' := by
    rcases Bool.eq_false_or_eq_true claimed with hc | hc
    · exact hlicence hc
    · have hs : item.status = .executing := not_not.mp fun hs => hskip ⟨hc, hs⟩
      exact .inr (hw'.reloaded item hitem hs)
  have hK : Stable (actionDiscipline libs guarded) i fun w =>
      Working guarded i g.action items w ∧ Licensed guarded i g.action item.itemKey w :=
    fun _ _ hr hi h => ⟨stable_working _ _ hr hi h.1, stable_licensed _ _ _ _ hr hi h.2⟩
  refine (preserves_assessmentOf d hK).andThen ⟨hw', hl⟩ (fun stop w₁ h₁ => ?_) fun _ _ h => h.1
  cases stop with
  | some stop => exact (Preserves.pure stable_working _).safe w₁ h₁.1
  | none =>
      have happly : Safe (actionDiscipline libs guarded) i
          (applyPrepared mailbox (preparedItem g item remote)) w₁
          (fun _ => Written guarded i g.action items item.itemKey)
          fun _ => Written guarded i g.action items item.itemKey := by
        refine .bind (.attempt ((safe_applyAction rfl rfl h₁.1 h₁.2).mono
          (fun outcome w₂ _ h₂ w₃ hr hi => ?_) fun cause w₂ _ h₂ w₃ hr hi => ?_))
        · exact (Preserves.pure stable_written _).safe w₃ (stable_written _ _ hr hi h₂)
        · exact (Preserves.pure stable_written _).safe w₃ (stable_written _ _ hr hi h₂)
      refine .bind (happly.mono (fun outcome w₂ _ h₂ => ?_) fun _ _ _ h => h.1)
      have hreceipt : Preserves (actionDiscipline libs guarded) i
          (Written guarded i g.action items item.itemKey)
          (commitDisposition g.action.id item (outcomeWrite outcome)) :=
        preserves_commitReceipt stable_written (fun _ _ he h => ⟨h.1.evolves he fun _ => id, h.2⟩)
          (outcomeWrite_faithful outcome) (fun _ => h₂.1.targeted item hitem) fun _ _ h => h.2
      exact hreceipt.andThen h₂ (fun _ w₃ h₃ => (Preserves.pure stable_working _).safe w₃ h₃.1)
        fun _ _ h => h.1

theorem preserves_executeItem {d : Deployment} {mailbox : ℕ} {g : SelectedGroup}
    {item : ActionItem} (hitem : item ∈ items) :
    Preserves (actionDiscipline libs guarded) i (Working guarded i g.action items)
      (executeItem d mailbox g item) := by
  unfold executeItem
  cases g.remote item.target.uid with
  | none =>
      exact .bind (preserves_commitConflict (by simp [numbersOnly])) fun _ => .pure stable_working _
  | some remote =>
      refine .bind (Preserves.read (S := mailSignature) stable_working _) fun occurrence => ?_
      cases hpre : preflight g item remote occurrence with
      | some write =>
          simp only
          obtain ⟨hfaithful, hkeep⟩ := preflight_faithful hpre
          exact .bind ⟨fun w hw => (preserves_commitDisposition hfaithful
            (fun _ => hw.targeted item hitem) hkeep).safe w hw⟩ fun _ => .pure stable_working _
      | none =>
          simp only
          exact preserves_applyItem hitem remote

theorem preserves_executeItems {d : Deployment} {mailbox : ℕ} {g : SelectedGroup}
    {todo : List ActionItem} (htodo : ∀ item ∈ todo, item ∈ items) :
    Preserves (actionDiscipline libs guarded) i (Working guarded i g.action items)
      (executeItems d mailbox g todo) := by
  induction todo with
  | nil => exact .pure stable_working _
  | cons item todo ih =>
      refine .bind (preserves_asking stable_working fun _ => rfl) fun recheck => ?_
      refine .ite (fun _ => .bind (preserves_conflictItems (by simp [numbersOnly])) fun _ =>
        .pure stable_working _) fun _ => ?_
      refine .bind (preserves_executeItem (htodo item (by simp))) fun stop => ?_
      cases stop with
      | some stop => exact .pure stable_working _
      | none => exact ih fun item hi => htodo item (by simp [hi])

theorem preserves_executeFolderGroup {d : Deployment} {mailbox : ℕ}
    {destination : Option (Uuid × String)} {folderId : Uuid} {group : List ActionItem}
    (hgroup : ∀ item ∈ group, item ∈ items) :
    Preserves (actionDiscipline libs guarded) i (Working guarded i action items)
      (executeFolderGroup d mailbox action destination folderId group) := by
  refine .bind (Preserves.read (S := mailSignature) stable_working _) fun folder => ?_
  cases folder with
  | none =>
      exact .bind (preserves_conflictItems (by simp [numbersOnly])) fun _ =>
        .pure stable_working _
  | some folder =>
      dsimp only
      cases folder.uidvalidity with
      | none =>
          exact .bind (preserves_conflictItems (by simp [numbersOnly])) fun _ =>
            .pure stable_working _
      | some uidvalidity =>
          refine .bind (preserves_asking stable_working fun _ => rfl) fun selected => ?_
          refine .ite (fun _ => .bind (preserves_conflictItems (by simp [numbersOnly])) fun _ =>
            .pure stable_working _) fun _ => .bind (preserves_asking stable_working fun _ => rfl) fun _ => ?_
          exact preserves_executeItems (g := ⟨action, _, _, _⟩) hgroup

theorem preserves_executeGroups {d : Deployment} {mailbox : ℕ}
    {destination : Option (Uuid × String)} {pending : List ActionItem}
    (hpending : ∀ item ∈ pending, item ∈ items) (folderIds : List Uuid) :
    Preserves (actionDiscipline libs guarded) i (Working guarded i action items)
      (executeGroups d mailbox action destination pending folderIds) := by
  induction folderIds with
  | nil => exact .pure stable_working _
  | cons folderId folderIds ih =>
      refine .bind (preserves_executeFolderGroup fun item hi =>
        hpending item (List.mem_of_mem_filter hi)) fun stop => ?_
      cases stop with
      | some stop => exact .pure stable_working _
      | none => exact ih

/-- A run that knows its action reloads the items and works them. -/
theorem safe_workItems {d : Deployment} {mailbox : ℕ} {destination : Option (Uuid × String)}
    (h : Working guarded i action [] w) :
    Safe (actionDiscipline libs guarded) i (workItems d mailbox action destination) w
      (fun _ _ => True) fun _ _ => True := by
  refine .bind ((safe_reload h).mono (fun items w' _ h' => ?_) fun _ _ _ => id)
  exact ((preserves_executeGroups (fun item hi => List.mem_of_mem_filter hi) _).safe w' h').mono
    (fun _ _ _ _ => trivial) fun _ _ _ _ => trivial

theorem preserves_holdInterrupted :
    Preserves (actionDiscipline libs guarded) i (Working guarded i action [])
      (holdInterrupted action) := by
  refine .bind (Preserves.read (S := mailSignature) stable_working _) fun _ =>
    .bind (.forIn stable_working fun item _ _ => ?_) fun _ => .pure stable_working _
  refine .ite (fun _ => ?_) fun _ => .pure stable_working _
  exact .bind (preserves_commitDisposition interrupted_faithful (fun h => by simp at h) rfl) fun _ =>
    .pure stable_working _

theorem safe_runItems {d : Deployment} {mailbox : ℕ} (h : Working guarded i action [] w) :
    Safe (actionDiscipline libs guarded) i (runItems d mailbox action) w
      (fun _ _ => True) fun _ _ => True := by
  unfold runItems
  split
  · refine (Preserves.read (S := mailSignature) stable_working _).andThen h
      (fun destination w' h' => ?_) fun _ _ _ => trivial
    cases destination with
    | some row => exact safe_workItems h'
    | none =>
        have hconflict : Preserves (actionDiscipline libs guarded) i (Working guarded i action [])
            (conflictAll action.id "destination_removed") :=
          .bind (Preserves.read (S := mailSignature) stable_working _) fun _ =>
            preserves_conflictItems (by simp [numbersOnly])
        exact hconflict.andThen h' (fun _ _ _ => .pure fun _ _ _ => trivial) fun _ _ _ => trivial
  · exact safe_workItems h

/-! ### Operations -/

theorem keeps_query (f : Database → α) : KeepsActions libs guarded i (MailProgram.query f) :=
  Preserves.read (S := mailSignature) .trivial f

theorem keeps_pure (a : α) : KeepsActions libs guarded i (pure a) := .pure .trivial a

theorem keeps_throw (e : Failure) : KeepsActions libs guarded i (throw e : MailProgram α) :=
  Preserves.throw (S := mailSignature) .trivial e

theorem keeps_asking {c : MailCall} (hc : ∀ log, ActionLog.afterCall i log c = log) :
    KeepsActions libs guarded i (MailProgram.ask c) := preserves_asking .trivial hc

theorem keeps_loadAction (actionId : Uuid) :
    KeepsActions libs guarded i (loadAction actionId) := by
  refine .bind (keeps_query _) fun row => ?_
  cases row with
  | some row => exact keeps_pure row
  | none => exact keeps_throw _

theorem keeps_receiptOf (action : Action) : KeepsActions libs guarded i (receiptOf action) :=
  .bind (keeps_query _) fun _ => keeps_pure _

theorem keeps_receipt (actionId : Uuid) : KeepsActions libs guarded i (receipt actionId) :=
  .bind (keeps_loadAction actionId) keeps_receiptOf

theorem keeps_blockedResult (d : Deployment) (actionId : Uuid) (stop : ExecutionStop) :
    KeepsActions libs guarded i (blockedResult d actionId stop) := by
  refine .bind (keeps_receipt actionId) fun _ => ?_
  cases stop with
  | blocked => exact keeps_pure _
  | stale => exact .bind (keeps_query _) fun _ => keeps_pure _

/-- A run knows the action that it loaded. -/
theorem safe_loadAction (actionId : Uuid) :
    Safe (actionDiscipline libs guarded) i (loadAction actionId) w
      (fun action => Working guarded i action []) fun _ _ => True := by
  refine .bind (.read (fun w' _ _ => .pure fun w₂ hr _ => ?_) fun _ _ _ _ _ => trivial)
  cases hfind : w'.store.actions.find? actionId with
  | none => exact .throw fun _ _ _ => trivial
  | some action =>
      have hid : action.id = actionId := Table.key_of_find? hfind
      have hread : Working guarded i action [] w' :=
        ⟨⟨action, hid ▸ hfind, rfl⟩, fun item hi => absurd hi (by simp),
          fun item hi => absurd hi (by simp)⟩
      exact .pure fun w₃ hr₃ hi₃ => stable_working _ _ hr₃ hi₃ (hread.evolves hr.evolves hr.found)

theorem keeps_executeAction (d : Deployment) (actionId : Uuid) (mailbox : ℕ) :
    KeepsActions libs guarded i (executeAction d actionId mailbox) := by
  refine ⟨fun w _ => .bind ((safe_loadAction actionId).mono (fun action w₁ _ h₁ => ?_)
    fun _ _ _ => id)⟩
  by_cases hdone : action.status = .complete
  · simp only [if_pos hdone]
    exact (Preserves.bind (keeps_receiptOf action) fun _ => keeps_pure _).safe w₁ trivial
  simp only [if_neg hdone]
  refine (preserves_assessmentOf d stable_working).andThen h₁ (fun stop w₂ h₂ => ?_)
    fun _ _ _ => trivial
  cases stop with
  | some stop => exact (keeps_blockedResult d _ stop).safe w₂ trivial
  | none =>
      refine preserves_holdInterrupted.andThen h₂ (fun _ w₃ h₃ => ?_) fun _ _ _ => trivial
      refine .bind ((safe_runItems h₃).mono (fun stop w₄ _ _ => ?_) fun _ _ _ => id)
      cases stop with
      | some stop => exact (keeps_blockedResult d _ stop).safe w₄ trivial
      | none =>
          exact (Preserves.bind (keeps_evolving (fun _ => finalizeActionStatus_evolves)
            fun _ _ _ hrun => (finalizeActionStatus_ok hrun).dispositions)
            fun _ => .bind (keeps_receipt _) fun _ => keeps_pure _).safe w₄ trivial

theorem keeps_existingReceipt (existing : Action) (requestHash : String) :
    KeepsActions libs guarded i (existingReceipt existing requestHash) :=
  .ite (fun _ => .throw_bind .trivial) fun _ => keeps_receiptOf existing

theorem keeps_freezeTargets (scope : ActionScope) :
    KeepsActions libs guarded i (freezeTargets scope) := by
  refine .bind (keeps_query _) fun account => .ite (fun _ => .throw_bind .trivial) fun _ => ?_
  refine .bind (keeps_query _) fun occurrences => .ite (fun _ => .throw_bind .trivial) fun _ => ?_
  refine .ite (fun _ => .bind (keeps_query _) fun destination => ?_) fun _ => keeps_pure _
  cases destination with
  | none => exact .throw_bind .trivial
  | some folder => exact .ite (fun _ => .throw_bind .trivial) fun _ => keeps_pure _

theorem keeps_submitAction (d : Deployment) (g : Option Uuid) (submission : MailActionSubmission) :
    KeepsActions libs guarded i (submitAction d g submission) := by
  refine .bind (.bind (keeps_query _) fun _ => .ofExcept .trivial _) fun generation => ?_
  refine .bind (Preserves.ofExcept (S := mailSignature) .trivial _) fun _ => ?_
  refine .bind (keeps_query _) fun existing => ?_
  cases existing with
  | some existing => exact .bind (keeps_existingReceipt _ _) fun _ => keeps_pure _
  | none =>
      refine .bind (keeps_freezeTargets _) fun targets => .bind (keeps_asking fun _ => rfl) fun id =>
        .bind (keeps_asking fun _ => rfl) fun now => ?_
      refine .bind (.attempt .trivial (keeps_evolving (fun _ => commitSubmission_evolves)
        fun _ _ _ hrun => commitSubmission_dispositions rfl hrun))
        fun inserted => ?_
      cases inserted with
      | ok u => exact .bind (keeps_receipt _) fun _ => keeps_pure _
      | error cause =>
          refine .ite (fun _ => .bind (keeps_query _) fun raced => ?_) fun _ => keeps_throw _
          cases raced with
          | some raced => exact .bind (keeps_existingReceipt _ _) fun _ => keeps_pure _
          | none => exact keeps_throw _

theorem keeps_reconcileIncomplete (d : Deployment) (accountId : Uuid) (mailbox limit : ℕ) :
    KeepsActions libs guarded i (reconcileIncomplete d accountId mailbox limit) := by
  refine .ite (fun _ => .throw_bind .trivial) fun _ => .bind (keeps_query _) fun rows => ?_
  refine .bind (.forIn .trivial fun id _ _ => ?_) fun _ => keeps_pure _
  exact .bind (keeps_executeAction d id mailbox) fun _ => keeps_pure _

theorem keeps_dispositionRestoredActions (currentGeneration : Uuid) :
    KeepsActions libs guarded i (dispositionRestoredActions currentGeneration) := by
  refine .bind (keeps_query _) fun restored => .bind (.forIn .trivial fun id _ _ => ?_)
    fun _ => keeps_pure _
  refine .bind (keeps_evolving (fun _ => holdRestored_evolves)
    fun _ _ _ hrun => holdRestored_dispositions hrun) fun held => ?_
  cases held with
  | some counts => exact keeps_pure _
  | none => exact .bind (keeps_pure _) fun _ => keeps_pure _

/-- Every operation of the system keeps the discipline. -/
theorem keeps_run (op : ActionOp) : KeepsActions libs guarded i (op.run libs) := by
  cases op with
  | submit generation g submission =>
      exact .bind (keeps_submitAction _ g submission) fun _ => keeps_pure _
  | receipt actionId => exact .bind (keeps_receipt actionId) fun _ => keeps_pure _
  | execute generation actionId mailbox =>
      exact .bind (keeps_executeAction _ actionId mailbox) fun _ => keeps_pure _
  | reconcileIncomplete generation accountId mailbox limit =>
      exact .bind (keeps_reconcileIncomplete _ accountId mailbox limit) fun _ => keeps_pure _
  | dispositionRestoredActions currentGeneration =>
      exact .bind (keeps_dispositionRestoredActions currentGeneration) fun _ => keeps_pure _
  | elsewhere f hf =>
      refine keeps_evolving (fun db => ⟨fun _ db' h => ?_⟩) fun w _ db' h => ?_
      · obtain rfl : _ = db' := (Prod.mk.inj (Except.ok.inj h)).2
        exact .of_same (hf db).1 (hf db).2
      · obtain rfl : _ = db' := (Prod.mk.inj (Except.ok.inj h)).2
        exact .of_same (hf w.store).1 (hf w.store).2

/-! ## Runs -/

/-- The start keeps the discipline. -/
theorem ActionStart.sound {c₀ : Config mailSignature ActionLog} (h : ActionStart c₀) :
    c₀.Sound (actionDiscipline libs guarded) := by
  refine ⟨?_, fun i p hp => ?_⟩
  · refine ⟨fun a ha => ?_, fun a ha => ?_, fun key j hj => ?_, fun _ a ha => ?_, fun _ => ?_,
      fun item hi => ?_⟩ <;> simp_all [h.log, h.actionItems, ActionLog.empty]
  · simp [h.workers] at hp

theorem action_sound (libs : Libraries) {c₀ c : Config mailSignature ActionLog}
    (h₀ : ActionStart c₀)
    (h : Reaches (actionSystem libs) (actionDiscipline libs guarded).assumes c₀ c) :
    c.Sound (actionDiscipline libs guarded) :=
  h.sound h₀.sound fun op _ w => (keeps_run op).safe w trivial

end MailHub
