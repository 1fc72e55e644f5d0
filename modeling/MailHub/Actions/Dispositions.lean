import MailHub.Actions.Runs

/-!
# Which dispositions are final

In every run a disposition other than an interrupted hold stays as it is, a complete action stays
complete with nothing pending, and whatever belongs to a receipt commits with it. An interrupted
hold waits for the receipt of the claim. A run that finds the item of a move executing when it
reloads the items writes it as well, and its receipt replaces the hold in the place of the claim's.
-/

namespace MailHub

open Relational Interleaving

variable {libs : Libraries} {guarded : Prop} {c₀ c c' : Config mailSignature ActionLog}

/-! ## One event -/

/-- An event leaves the database alone or is a transaction of one run. -/
theorem fire_dispositions {e : Event (actionSystem libs)}
    (hc : c.Sound (actionDiscipline libs guarded))
    (hmeets : (actionDiscipline libs guarded).assumes.Meets (actionSystem libs) c e)
    (h : c.fire (actionSystem libs) e = some c') : c'.world.store = c.world.store ∨
      ∃ i, e = .commit i ∧ Dispositions (Wrote i c.world.outside) c.world.store c'.world.store := by
  have hens := (hc.fire (fun op _ w => (keeps_run op).safe w trivial) hmeets h).2
  rcases Config.fire_store h with hsame | ⟨i, rfl, β, tag, f, k, b, hp, hf⟩
  · exact .inl hsame
  · exact .inr ⟨i, rfl, hens β tag f k b _ hp hf⟩

/-! ## Any two moments -/

/-- Any run keeps a relation that every transaction keeps. -/
theorem related_of_dispositions {R : Database → Database → Prop} (hrefl : ∀ s, R s s)
    (htrans : ∀ s₁ s₂ s₃, R s₁ s₂ → R s₂ s₃ → R s₁ s₃)
    (hstep : ∀ receipt s s', Dispositions receipt s s' → R s s')
    (hc : c.Sound (actionDiscipline libs False)) (h : Reaches (actionSystem libs) .free c c') :
    R c.world.store c'.world.store :=
  Reaches.related (D := actionDiscipline libs False)
    (h.mono (fun _ _ _ _ _ => False.elim) fun _ _ _ _ => id) hc
    (fun op _ w => (keeps_run op).safe w trivial) hrefl htrans fun _ _ _ _ hd => hstep _ _ _ hd

/-- A final item is the same at every later moment. -/
theorem final_kept (hc : c.Sound (actionDiscipline libs False))
    (h : Reaches (actionSystem libs) .free c c') {key : Uuid × Uuid} {item : ActionItem}
    (hitem : c.world.store.actionItems.find? key = some item) (hfinal : item.isFinal = true) :
    c'.world.store.actionItems.find? key = some item := by
  refine related_of_dispositions (R := fun s s' => s.actionItems.find? key = some item →
    s'.actionItems.find? key = some item) (fun _ => id) (fun _ _ _ h₁ h₂ hs => h₂ (h₁ hs))
    (fun receipt s s' hd hs => ?_) hc h hitem
  obtain ⟨item', hitem', hchange, -⟩ := hd.item key item hs
  rw [hitem', hchange.final hfinal]

/-- A complete action is complete at every later moment. -/
theorem complete_kept (hc : c.Sound (actionDiscipline libs False))
    (h : Reaches (actionSystem libs) .free c c') {id : Uuid} {action : Action}
    (haction : c.world.store.actions.find? id = some action) (hdone : action.status = .complete) :
    ∃ action', c'.world.store.actions.find? id = some action' ∧ action'.status = .complete := by
  refine related_of_dispositions (R := fun s s' =>
    (∃ a, s.actions.find? id = some a ∧ a.status = .complete) →
      ∃ a, s'.actions.find? id = some a ∧ a.status = .complete) (fun _ => fun hs => hs)
    (fun _ _ _ h₁ h₂ hs => h₂ (h₁ hs)) (fun receipt s s' hd hs => ?_) hc h ⟨action, haction, hdone⟩
  obtain ⟨a, ha, hdone⟩ := hs
  obtain ⟨a', ha', -, hkept⟩ := hd.action id a ha
  exact ⟨a', ha', hkept hdone⟩

/-! ## Interrupted holds -/

/-- A commit makes an interrupted hold only of an item that moves. -/
def HoldsMoves (w w' : ActionWorld) : Prop :=
  ∀ key item, w'.store.actionItems.find? key = some item → isInterruptedHold item = true →
    w.store.actionItems.find? key = some item ∨
      ∃ action, w'.store.actions.find? key.1 = some action ∧ requiresDestination action.kind = true

/-- The runs in which no reload of the items of a move finds one executing, and no executor of a
flag answers in the words of an interrupted hold. -/
def claimHolds : Policy mailSignature ActionLog :=
  ⟨fun _ tag w w' => Undisturbed tag w ∧ HoldsMoves w w', fun _ _ _ _ => True⟩

/-- Every interrupted hold is of an item that moves. -/
def MovesHeld (w : ActionWorld) : Prop :=
  ∀ key item, w.store.actionItems.find? key = some item → isInterruptedHold item = true →
    ∃ action, w.store.actions.find? key.1 = some action ∧ requiresDestination action.kind = true

theorem kept_movesHeld : Kept (actionDiscipline libs True) claimHolds MovesHeld where
  commit i tag w s _ hheld hpolicy hd key item hitem hhold := by
    rcases hpolicy.2 key item hitem hhold with hold | hnew
    · obtain ⟨action, haction, hmove⟩ := hheld key item hold hhold
      obtain ⟨action', haction', hkind, -⟩ := hd.action _ action haction
      exact ⟨action', haction', by rw [hkind, hmove]⟩
    · exact hnew
  call _ _ _ _ _ _ hheld _ _ _ := hheld
  tick _ t := by cases t
  retire _ _ hheld := hheld

/-- The runs of the guarded discipline. -/
theorem guarded_of_claimHolds (h : Reaches (actionSystem libs) claimHolds c₀ c) :
    Reaches (actionSystem libs) (actionDiscipline libs True).assumes c₀ c :=
  h.mono (fun _ _ _ _ hm _ => hm.1) fun _ _ _ _ => id

/-- A hold is replaced by the run that claimed the item and wrote it. -/
theorem hold_replaced (h₀ : ActionStart c₀) (h : Reaches (actionSystem libs) claimHolds c₀ c)
    {e : Event (actionSystem libs)} (hmeets : claimHolds.Meets (actionSystem libs) c e)
    (hfire : c.fire (actionSystem libs) e = some c') {key : Uuid × Uuid} {item item' : ActionItem}
    (hitem : c.world.store.actionItems.find? key = some item)
    (hhold : isInterruptedHold item = true)
    (hitem' : c'.world.store.actionItems.find? key = some item') (hne : item' ≠ item) :
    ∃ i, e = .commit i ∧ c.world.outside.claimant key = some i ∧ Wrote i c.world.outside key := by
  have hsound : c.Sound (actionDiscipline libs True) :=
    action_sound libs h₀ (guarded_of_claimHolds h)
  have hmoves : MovesHeld c.world := h.kept kept_movesHeld h₀.sound
    (fun op _ w => (keeps_run op).safe w trivial) (fun _ _ _ _ hm _ => hm.1) (fun _ _ _ _ => id)
    fun key item hfind => by simp [h₀.actionItems] at hfind
  have hassumes := hmeets.mono (Q := (actionDiscipline libs True).assumes)
    (fun _ _ _ _ hm _ => hm.1) fun _ _ _ _ => id
  rcases fire_dispositions hsound hassumes hfire with hsame | ⟨i, rfl, hd⟩
  · rw [hsame, hitem] at hitem'
    exact absurd (Option.some.inj hitem').symm hne
  obtain ⟨stored, hstored, hchange, -⟩ := hd.item key item hitem
  obtain rfl : stored = item' := Option.some.inj (hstored.symm.trans hitem')
  rcases hchange.hold hhold with hsame | ⟨a, ha, rfl, hkey⟩
  · exact absurd hsame hne
  · obtain ⟨action, haction, hmove⟩ := hmoves key item hitem hhold
    obtain ⟨action', haction', hkind⟩ := hsound.inv.kind a ha
    have hid : a.2.actionId = key.1 := congrArg Prod.fst hkey
    rw [hid, haction] at haction'
    obtain rfl := Option.some.inj haction'
    have hclaim := hsound.inv.owned trivial a ha (by rw [← hkind, hmove])
    rw [hkey] at hclaim
    exact ⟨a.1, rfl, hclaim, a, ha, rfl, hkey⟩

/-! ## Runs -/

/-- What a moment of a run promises about dispositions. -/
structure DispositionsFinal (libs : Libraries) (c₀ c : Config mailSignature ActionLog) : Prop where
  /-- A complete action has no queued or executing item. -/
  finished : Finished c.world.store
  /-- A disposition other than an interrupted hold never changes again. -/
  final : ∀ c', Reaches (actionSystem libs) .free c c' → ∀ key item,
    c.world.store.actionItems.find? key = some item → item.isFinal = true →
      c'.world.store.actionItems.find? key = some item
  /-- A complete action stays complete. -/
  complete : ∀ c', Reaches (actionSystem libs) .free c c' → ∀ id action,
    c.world.store.actions.find? id = some action → action.status = .complete →
      ∃ action', c'.world.store.actions.find? id = some action' ∧ action'.status = .complete
  /-- The receipt of an item, its observed state, its event and the completion of its action are
  the work of one event. -/
  together : ∀ e c', c.fire (actionSystem libs) e = some c' → ∀ key item item',
    c.world.store.actionItems.find? key = some item →
      c'.world.store.actionItems.find? key = some item' → item' ≠ item →
        item'.status.isPending = false → CommitsWith item' c.world.store c'.world.store
  /-- An interrupted hold is replaced by the receipt of the run that claimed the item and made the
  remote call. -/
  held : Reaches (actionSystem libs) claimHolds c₀ c → ∀ e c',
    claimHolds.Meets (actionSystem libs) c e → c.fire (actionSystem libs) e = some c' →
      ∀ key item item', c.world.store.actionItems.find? key = some item →
        isInterruptedHold item = true → c'.world.store.actionItems.find? key = some item' →
          item' ≠ item → ∃ i, e = .commit i ∧ c.world.outside.claimant key = some i ∧
            Wrote i c.world.outside key

theorem dispositions_final (h₀ : ActionStart c₀) (h : Reaches (actionSystem libs) .free c₀ c) :
    DispositionsFinal libs c₀ c := by
  have hsound : c.Sound (actionDiscipline libs False) := action_sound libs h₀
    (h.mono (fun _ _ _ _ _ => False.elim) fun _ _ _ _ => id)
  refine ⟨?_, fun c' h' key item hitem hfinal => final_kept hsound h' hitem hfinal,
    fun c' h' id action haction hdone => complete_kept hsound h' haction hdone,
    fun e c' hfire key item item' hitem hitem' hne hdone => ?_,
    fun hclaimed e c' hmeets hfire key item item' hitem hhold hitem' hne =>
      hold_replaced h₀ hclaimed hmeets hfire hitem hhold hitem' hne⟩
  · refine related_of_dispositions (R := fun s s' => Finished s → Finished s') (fun _ => id)
      (fun _ _ _ h₁ h₂ hs => h₂ (h₁ hs)) (fun _ _ _ hd => hd.finished) h₀.sound h fun a ha => ?_
    simp [h₀.actions] at ha
  · have hassumes := (Policy.free_meets (actionSystem libs) c e).mono
      (Q := (actionDiscipline libs False).assumes) (fun _ _ _ _ _ => False.elim) fun _ _ _ _ => id
    rcases fire_dispositions hsound hassumes hfire with hsame | ⟨i, rfl, hd⟩
    · rw [hsame, hitem] at hitem'
      exact absurd (Option.some.inj hitem').symm hne
    · obtain ⟨stored, hstored, -, hwith⟩ := hd.item key item hitem
      obtain rfl : stored = item' := Option.some.inj (hstored.symm.trans hitem')
      exact hwith hne hdone

/-! ## Samples -/

/-- What the samples show of the item of action 40. -/
structure HoldView where
  status : ActionItemStatus
  hold : Bool
  /-- The worker that claimed it. -/
  claimant : Option ℕ
  deriving DecidableEq

/-- The view of one moment. -/
def holdView (c : Config mailSignature ActionLog) : Option HoldView :=
  (c.world.store.actionItems.find? (40, 20)).map fun item =>
    ⟨item.status, isInterruptedHold item, c.world.outside.claimant (40, 20)⟩

/-- A run whose hold pass finds the item executing and holds it. -/
def sampleInterrupt (i : ℕ) : List (Event (actionSystem sampleLibraries)) :=
  sampleHold i ++ [.answer i (sampleReply 0), .commit i]

/-- Worker 1 claims the item, worker 2 finds it executing, and worker 3 holds it; worker 2 answers
first. -/
def sampleTaken : List (Event (actionSystem sampleLibraries)) :=
  sampleSubmit ⟨1, .archive, "key", [20], some 6⟩ ++ sampleHold 1 ++ sampleHold 2 ++
    sampleWork .archive 1 ++ sampleWork .archive 2 ++ sampleInterrupt 3 ++ sampleApply 2 ++
    [.answer 2 (sampleReply 0)]

/-- The hold is replaced by the receipt of a run that did not claim the item. -/
theorem hold_taken : ∃ c c' : Config mailSignature ActionLog,
    Reaches (actionSystem sampleLibraries) .free sampleActions c ∧
      c.fire (actionSystem sampleLibraries) (.commit 2) = some c' ∧
      holdView c = some ⟨.unknown, true, some 1⟩ ∧
      holdView c' = some ⟨.confirmed, false, some 1⟩ := by
  have hbefore : (sampleActions.run (actionSystem sampleLibraries) sampleTaken).map holdView =
      some (some ⟨.unknown, true, some 1⟩) := by decide +kernel
  have hafter : ((sampleActions.run (actionSystem sampleLibraries) sampleTaken).bind fun c =>
      c.fire (actionSystem sampleLibraries) (.commit 2)).map holdView =
        some (some ⟨.confirmed, false, some 1⟩) := by decide +kernel
  obtain ⟨c', hboth, hview'⟩ := Option.map_eq_some_iff.mp hafter
  obtain ⟨c, hrun, hfire⟩ := Option.bind_eq_some_iff.mp hboth
  rw [hrun] at hbefore
  exact ⟨c, c', .of_run hrun, hfire, Option.some.inj hbefore, hview'⟩

/-- Whether an event reloads no item of a move as executing and holds only items that move. -/
def holdsMoves (c : Config mailSignature ActionLog) (e : Event (actionSystem libs)) : Bool :=
  reloadsNoMove c e && ((c.fire (actionSystem libs) e).all fun c' =>
    c'.world.store.actionItems.rows.all fun item => !isInterruptedHold item ||
      c.world.store.actionItems.find? (Keyed.key item) == some item ||
      (c'.world.store.actions.find? item.actionId).any fun action =>
        requiresDestination action.kind)

theorem claimHolds_of_holdsMoves {e : Event (actionSystem libs)} (h : holdsMoves c e = true) :
    claimHolds.Meets (actionSystem libs) c e := by
  obtain ⟨hreload, hholds⟩ := Bool.and_eq_true_iff.mp h
  have hundisturbed := undisturbed_of_reloadsNoMove hreload
  cases e with
  | commit i =>
      intro β tag f k b s hp hf
      refine ⟨hundisturbed β tag f k b s hp hf, fun key item hitem hhold => ?_⟩
      simp only [Config.fire, hp, hf, Option.all_some, List.all_eq_true] at hholds
      have hmem := Table.mem_of_find? hitem
      rw [← Table.key_of_find? hitem]
      have hcheck := hholds item (by rw [Config.resume_store]; exact hmem)
      rw [Config.resume_store] at hcheck
      simp only [hhold, Bool.not_true, Bool.false_or, Bool.or_eq_true, beq_iff_eq,
        Option.any_eq_true] at hcheck
      exact hcheck
  | answer i r => exact fun _ _ _ _ _ => trivial
  | spawn op | abort i e | stop i | tick t => trivial

/-- Worker 1 claims the item, worker 2 holds it, and worker 1 gets its answer. -/
def sampleKept : List (Event (actionSystem sampleLibraries)) :=
  sampleSubmit ⟨1, .archive, "key", [20], some 6⟩ ++ sampleHold 1 ++ sampleWork .archive 1 ++
    sampleInterrupt 2 ++ sampleApply 1 ++ [.answer 1 (sampleReply 0)]

/-- In the sample the hold waits for its claim, and what holds of every run holds of it. -/
theorem dispositions_final_sample : ∃ c,
    Reaches (actionSystem sampleLibraries) claimHolds sampleActions c ∧
      holdView c = some ⟨.unknown, true, some 1⟩ ∧
      DispositionsFinal sampleLibraries sampleActions c := by
  have h : (sampleActions.runChecked (actionSystem sampleLibraries) holdsMoves sampleKept).map
      holdView = some (some ⟨.unknown, true, some 1⟩) := by decide +kernel
  obtain ⟨c, hrun, hview⟩ := Option.map_eq_some_iff.mp h
  have hreach := Reaches.of_runChecked (fun _ _ => claimHolds_of_holdsMoves) hrun
  have hfree := hreach.mono (Q := .free) (fun _ _ _ _ _ => trivial) fun _ _ _ _ _ => trivial
  exact ⟨c, hreach, hview, dispositions_final sampleActions_start hfree⟩

end MailHub
