import MailHub.Offline.Drafts
import MailHub.Ordering.Precedes
import Mathlib.Data.Prod.Lex

/-!
# The order in which saves take effect

A pass replays the pending actions by time, kind and identifier, and goes on after a save that failed
for the moment; the next save of the draft then moves the base of the one it overtook. The saves
of one draft take effect in the order in which they were queued as long as each is queued behind
the pending ones and the service takes none before a pending one that its pass left behind.
-/

namespace MailHub.Offline

open Relational Interleaving MailHub OfflineStore Ordering

variable {fails : Bool} {i : ℕ} {d x y : Uuid} {s s' : Device} {o o' : Journal}
  {w w' : World offlineSignature Journal}

/-! ## Saves of one draft -/

/-- Whether a payload saves a draft. -/
def QueuedPayload.saves (d : Uuid) : QueuedPayload → Bool
  | .draftSave draftId _ _ => draftId == d
  | _ => false

/-- The identifiers of everything that was ever queued. -/
def Device.queuedIds (s : Device) : List Uuid := s.enqueued.map (·.localId)

/-- The saves of a draft, in the order in which they were queued. -/
def Device.savesOf (d : Uuid) (s : Device) : List Uuid :=
  (s.enqueued.filter (·.payload.saves d)).map (·.localId)

/-- The save `x` of the draft was queued before its save `y`. -/
def Before (d : Uuid) (s : Device) (x y : Uuid) : Prop := Precedes (s.savesOf d) x y

@[simp] theorem QueuedPayload.saves_work (d : Uuid) (p : QueuedPayload) :
    p.work.saves d = p.saves d := by
  cases p <;> rfl

theorem QueuedPayload.saves_eq_true {p : QueuedPayload} :
    p.saves d = true ↔ ∃ base patch, p = .draftSave d base patch := by
  cases p with
  | draftSave draftId base patch => simp [saves]
  | _ => simp [saves]

/-- What asks for the work of a save saves the same patch. -/
theorem QueuedPayload.draftSave_of_work {p : QueuedPayload} {d : Uuid} {base : ℕ}
    {patch : DraftEditPatch} (h : p.work = (QueuedPayload.draftSave d base patch).work) :
    ∃ base', p = .draftSave d base' patch := by
  cases p with
  | draftSave d' base' patch' =>
      simp only [work, draftSave.injEq, true_and] at h
      exact ⟨base', by rw [h.1, h.2]⟩
  | _ => simp [work] at h

theorem isPending_iff : isPending x s = true ↔ ∃ a ∈ s.queue, a.localId = x ∧ a.state = .pending := by
  unfold isPending
  constructor
  · intro h
    obtain ⟨a, ha, hstate⟩ := (Option.any_eq_true _ _).mp h
    exact ⟨a, Table.mem_of_find? ha, Table.key_of_find? ha, by simpa using hstate⟩
  · rintro ⟨a, ha, rfl, hstate⟩
    have hfind : s.queue.find? a.localId = some a := Table.mem_iff_find?.mp ha
    simp [hfind, hstate]

theorem Device.mem_savesOf : x ∈ s.savesOf d ↔
    ∃ e ∈ s.enqueued, e.localId = x ∧ e.payload.saves d = true := by
  simp only [savesOf, List.mem_map, List.mem_filter]
  exact ⟨fun ⟨e, ⟨he, hsaves⟩, hid⟩ => ⟨e, he, hid, hsaves⟩,
    fun ⟨e, he, hid, hsaves⟩ => ⟨e, ⟨he, hsaves⟩, hid⟩⟩

theorem Device.savesOf_subset (h : x ∈ s.savesOf d) : x ∈ s.queuedIds := by
  obtain ⟨e, he, hid, -⟩ := mem_savesOf.mp h
  exact List.mem_map.mpr ⟨e, he, hid⟩

theorem Frozen.nodup_savesOf (hs : Frozen s) : (s.savesOf d).Nodup :=
  hs.nodup.sublist (List.filter_sublist.map _)

/-- An action of the queue is a save of the draft exactly when it was queued as one. -/
theorem Frozen.mem_savesOf {a : QueuedAction} (hs : Frozen s) (ha : a ∈ s.queue) :
    a.localId ∈ s.savesOf d ↔ a.payload.saves d = true := by
  obtain ⟨e, he, hsame⟩ := hs.queued a ha
  rw [← QueuedPayload.saves_work d a.payload, ← hsame.work, QueuedPayload.saves_work]
  constructor
  · intro h
    obtain ⟨e', he', hid, hsaves⟩ := Device.mem_savesOf.mp h
    rwa [hs.unique he he' (hsame.localId.trans hid.symm)]
  · exact fun h => Device.mem_savesOf.mpr ⟨e, he, hsame.localId, h⟩

theorem Frozen.mem_queuedIds {a : QueuedAction} (hs : Frozen s) (ha : a ∈ s.queue) :
    a.localId ∈ s.queuedIds := by
  obtain ⟨e, he, hsame⟩ := hs.queued a ha
  exact List.mem_map.mpr ⟨e, he, hsame.localId⟩

/-! ## Stores that go on -/

/-- A later store: more was queued, and no save of the draft waits again. -/
structure Onward (d : Uuid) (s s' : Device) : Prop where
  frozen : Frozen s'
  grown : s.enqueued <+: s'.enqueued
  pending : ∀ x ∈ s.savesOf d, isPending x s' = true → isPending x s = true

theorem Onward.refl (hs : Frozen s) : Onward d s s := ⟨hs, List.prefix_refl _, fun _ _ h => h⟩

theorem Onward.queuedIds (h : Onward d s s') (hx : x ∈ s.queuedIds) : x ∈ s'.queuedIds :=
  (h.grown.map _).subset hx

/-- A later store queued its saves behind those of the earlier one. -/
theorem Onward.savesOf (h : Onward d s s') : ∃ new, s'.savesOf d = s.savesOf d ++ new ∧
    ∀ y ∈ new, y ∉ s.queuedIds := by
  obtain ⟨m, hm⟩ := h.grown
  refine ⟨(m.filter (·.payload.saves d)).map (·.localId), by simp [Device.savesOf, ← hm], ?_⟩
  intro y hnew hold
  have hids : (s.queuedIds ++ m.map (·.localId)).Nodup := by
    have hfrozen := h.frozen.nodup
    rwa [← hm, List.map_append] at hfrozen
  have hsub : List.Sublist ((m.filter (·.payload.saves d)).map (·.localId)) (m.map (·.localId)) :=
    List.filter_sublist.map _
  exact List.disjoint_of_nodup_append hids hold (hsub.subset hnew)

/-- What was queued already is a save of the draft only if it was one. -/
theorem Onward.mem_savesOf (h : Onward d s s') (hy : y ∈ s.queuedIds) (hsave : y ∈ s'.savesOf d) :
    y ∈ s.savesOf d := by
  obtain ⟨new, hsaves, hnew⟩ := h.savesOf
  rw [hsaves, List.mem_append] at hsave
  exact hsave.resolve_right fun hmem => hnew y hmem hy

/-- What was queued before something old is old. -/
theorem Onward.before (h : Onward d s s') (hy : y ∈ s.queuedIds) (hxy : Before d s' x y) :
    Before d s x y := by
  obtain ⟨new, hsaves, -⟩ := h.savesOf
  have hnodup : (s'.savesOf d).Nodup := h.frozen.nodup_savesOf
  have hold : y ∈ s.savesOf d := h.mem_savesOf hy hxy.right_mem
  unfold Before at hxy ⊢
  rw [hsaves] at hxy hnodup
  exact hxy.of_append hnodup hold

/-- A save that still waits and was queued before something old waited before. -/
theorem Onward.waiting (h : Onward d s s') (hy : y ∈ s.queuedIds) (hx : isPending x s' = true)
    (hxy : Before d s' x y) : isPending x s = true ∧ Before d s x y :=
  ⟨h.pending x (h.before hy hxy).left_mem hx, h.before hy hxy⟩

/-- Where a queued action comes from: it was in the queue, for the same work and waiting already
unless it is sent back, or it is new. -/
theorem Write.exec_rows {wr : Write} {a : QueuedAction} (hs : Frozen s) (hw : KeepsWork wr s)
    (h : wr.exec s = .ok s') (ha : a ∈ s'.queue) :
    (∃ a₀ ∈ s.queue, SameWork a₀ a ∧ (a.state = .pending → a₀.state = .pending ∨
      ∃ patch, wr = .updateAction a.localId patch ∧ patch.state = some .pending)) ∨
      a.localId ∉ s.queuedIds ∧
        (wr = .enqueue a ∨ ∃ upload, wr = .putPendingUploadWithAction upload a) := by
  have hold : a ∈ s.queue → ∃ a₀ ∈ s.queue, SameWork a₀ a ∧ (a.state = .pending →
      a₀.state = .pending ∨
        ∃ patch, wr = .updateAction a.localId patch ∧ patch.state = some .pending) :=
    fun hmem => ⟨a, hmem, ⟨rfl, rfl, rfl⟩, .inl⟩
  have hadd : ∀ {s₁ : Device} {b : QueuedAction}, s₁.addAction b = .ok s' →
      s₁.queue = s.queue → s₁.enqueued = s.enqueued →
        a ∈ s.queue ∨ a.localId ∉ s.queuedIds ∧ b = a := by
    intro s₁ b hb hqueue henqueued
    unfold Device.addAction at hb
    split at hb
    · cases hb
    next hfresh =>
      obtain rfl := Except.ok.inj hb
      rcases Table.mem_put.mp ha with ⟨hmem, -⟩ | rfl
      · exact .inl (hqueue ▸ hmem)
      · exact .inr ⟨by rwa [henqueued] at hfresh, rfl⟩
  cases wr with
  | enqueue action =>
      rcases hadd h rfl rfl with hmem | ⟨hnew, rfl⟩
      · exact .inl (hold hmem)
      · exact .inr ⟨hnew, .inl rfl⟩
  | putPendingUploadWithAction upload action =>
      simp only [Write.exec, bind_eq_ok] at h
      obtain ⟨s₁, hup, hb⟩ := h
      unfold Device.addUpload at hup
      split at hup
      · cases hup
      · obtain rfl := Except.ok.inj hup
        rcases hadd hb rfl rfl with hmem | ⟨hnew, rfl⟩
        · exact .inl (hold hmem)
        · exact .inr ⟨hnew, .inr ⟨upload, rfl⟩⟩
  | updateAction localId patch =>
      obtain rfl := Except.ok.inj h
      obtain ⟨a₀, ha₀, rfl⟩ := List.mem_map.mp ha
      split
      next hid =>
        obtain rfl : a₀.localId = localId := by simpa using hid
        refine .inl ⟨a₀, ha₀, ⟨rfl, rfl, ?_⟩, fun hstate => ?_⟩
        · cases hpayload : patch.payload with
          | none => simp [ActionPatch.apply, hpayload]
          | some payload =>
              obtain ⟨e, he, hsame, hwork⟩ := hw payload hpayload
              obtain ⟨e', he', hsame'⟩ := hs.queued a₀ ha₀
              have hwork' : e.payload.work = a₀.payload.work := by
                rw [hs.unique he he' (hsame.trans hsame'.localId.symm)]
                exact hsame'.work
              simpa [ActionPatch.apply, hpayload] using hwork'.symm.trans hwork
        · cases hpatch : patch.state with
          | none => exact .inl (by simpa [ActionPatch.apply, hpatch] using hstate)
          | some state =>
              obtain rfl : state = .pending := by simpa [ActionPatch.apply, hpatch] using hstate
              exact .inr ⟨patch, rfl, hpatch⟩
      next => exact .inl ⟨a₀, ha₀, ⟨rfl, rfl, rfl⟩, .inl⟩
  | deleteAction localId =>
      obtain rfl := Except.ok.inj h
      exact .inl (hold (Table.mem_delete.mp ha).1)
  | pruneActions localIds =>
      obtain rfl := Except.ok.inj h
      exact .inl (hold (Table.mem_delete.mp ha).1)
  | putLocalDraft _ | pruneDrafts _ | updateUpload _ _ | deleteUpload _ | pruneUploads _
  | serverGeneration _ | restore _ | lastSyncedAt _ | signInRequired _ =>
      obtain rfl := Except.ok.inj h
      exact .inl (hold ha)

/-! ## The replay order -/

@[simp] theorem replayRank_work (p : QueuedPayload) : replayRank p.work = replayRank p := by
  cases p <;> rfl

/-- The replay order only looks at what stays with an action. -/
theorem replaysBefore_congr {a a₀ b b₀ : QueuedAction} (ha : SameWork a₀ a) (hb : SameWork b₀ b) :
    replaysBefore a b = replaysBefore a₀ b₀ := by
  have hranka : replayRank a₀.payload = replayRank a.payload := by
    rw [← replayRank_work a₀.payload, ha.work, replayRank_work]
  have hrankb : replayRank b₀.payload = replayRank b.payload := by
    rw [← replayRank_work b₀.payload, hb.work, replayRank_work]
  unfold replaysBefore
  rw [ha.queuedAt, hb.queuedAt, hranka, hrankb, ha.localId, hb.localId]

/-- What the replay order compares: the time, the kind, the identifier. -/
def replayKey (a : QueuedAction) : ℕ ×ₗ ℕ ×ₗ ℕ :=
  toLex (a.queuedAt, toLex (replayRank a.payload, a.localId))

theorem replaysBefore_iff {a b : QueuedAction} :
    replaysBefore a b = true ↔ replayKey a ≤ replayKey b := by
  unfold replaysBefore replayKey
  rw [Prod.Lex.toLex_le_toLex, Prod.Lex.toLex_le_toLex]
  split
  next h => simp [h]
  next h =>
    split
    next h' => simp [not_not.mp h, h']
    next h' => simp [not_not.mp h, not_not.mp h']

instance : Std.Total fun a b : QueuedAction => replaysBefore a b = true where
  total a b := by
    simp only [replaysBefore_iff]
    exact le_total _ _

instance : IsTrans QueuedAction fun a b => replaysBefore a b = true where
  trans a b c hab hbc := by
    simp only [replaysBefore_iff] at *
    exact hab.trans hbc

/-- Two actions that sort before each other are one. -/
theorem localId_of_replaysBefore {a b : QueuedAction} (hab : replaysBefore a b = true)
    (hba : replaysBefore b a = true) : a.localId = b.localId := by
  have hkey : replayKey a = replayKey b :=
    le_antisymm (replaysBefore_iff.mp hab) (replaysBefore_iff.mp hba)
  exact congrArg (fun k => (ofLex (ofLex k).2).2) hkey

theorem pendingOf_sorted (s : Device) :
    (pendingOf s).Pairwise fun a b => replaysBefore a b = true :=
  List.pairwise_insertionSort (fun a b : QueuedAction => replaysBefore a b = true) _

/-! ## The condition -/

/-- A new save of the draft sorts behind the pending ones, and none waits again. -/
def QueuesLast (d : Uuid) (tag : Option StoreTag) (w : World offlineSignature Journal) : Prop :=
  match tag with
  | some (.write (.enqueue action)) => action.payload.saves d = true →
      ∀ b ∈ w.store.queue, b.state = .pending → b.payload.saves d = true →
        replaysBefore b action = true
  | some (.write (.updateAction localId patch)) =>
      patch.state = some .pending → localId ∉ w.store.savesOf d
  | _ => True

/-- A save takes effect only when its pass left no earlier save of the draft behind. -/
def TakenInTurn (d : Uuid) (i : ℕ) (w w' : World offlineSignature Journal) : Prop :=
  w'.outside.effects ≠ w.outside.effects → ∀ p a, w.outside.passOf i = some p →
    p.attempt = some a → ∀ b ∈ p.leftPending, isPending b.localId w.store = true →
      ¬ Before d w.store b.localId a.queued.localId

/-- The runs in which the saves of the draft stay in order. -/
def orderly (d : Uuid) : Policy offlineSignature Journal :=
  ⟨fun _ tag w _ => QueuesLast d tag w, fun i _ w w' => TakenInTurn d i w w'⟩

/-! ## The invariant -/

/-- The action that a pass replays. -/
def Pass.current (p : Pass) : Option QueuedAction := p.attempt.map (·.queued)

/-- A pass comes to the saves of the draft in their order, apart from what it left behind. -/
structure InOrder (d : Uuid) (s : Device) (effects : List Effect) (p : Pass) : Prop where
  known : ∀ a ∈ p.todo, a.localId ∈ s.queuedIds
  /-- An earlier save that waits is listed before a later one, is under replay, or was left. -/
  ahead : ∀ l a r, p.todo = l ++ a :: r → ∀ x, isPending x s = true → Before d s x a.localId →
    x ∈ l.map (·.localId) ∨ (∃ q, p.current = some q ∧ q.localId = x) ∨
      x ∈ p.leftPending.map (·.localId)
  queued : ∀ q, p.current = some q → ∃ e ∈ s.enqueued, SameWork e q
  /-- An earlier save than the one under replay that waits was left. -/
  left : ∀ q, p.current = some q → ∀ x, isPending x s = true → Before d s x q.localId →
    x ∈ p.leftPending.map (·.localId)
  last : ∀ q, p.current = some q → ∀ e ∈ effects, e.draftId = d → ¬ Before d s q.localId e.localId

/-- What is true of the order of the saves throughout a run. -/
structure OrderKept (d : Uuid) (w : World offlineSignature Journal) : Prop where
  sorted : ∀ b ∈ w.store.queue, ∀ a ∈ w.store.queue, b.state = .pending → a.state = .pending →
    Before d w.store b.localId a.localId → replaysBefore b a = true
  pass : w.outside.EveryPass (InOrder d w.store w.outside.effects)
  /-- Every effect replays what was queued. -/
  effects : ∀ e ∈ w.outside.effects, e.draftId = d → ∃ a ∈ w.store.enqueued,
    a.localId = e.localId ∧ ∃ base base' patch, a.payload = .draftSave d base patch ∧
      e.input = editBody patch base'
  done : ∀ e ∈ w.outside.effects, e.draftId = d → ∀ x, Before d w.store x e.localId →
    isPending x w.store = false
  ordered : (w.outside.effects.filter (·.draftId == d)).Pairwise fun e e' =>
    ¬ Before d w.store e'.localId e.localId

/-! ## Commits -/

/-- Every statement that meets the condition leads onward. -/
theorem Write.exec_onward {wr : Write} (hs : Frozen w.store) (hwarrant : Warranted i wr w)
    (hP : QueuesLast d (some (.write wr)) w) (h : wr.exec w.store = .ok s) :
    Onward d w.store s := by
  obtain ⟨hfrozen, hgrown⟩ := Write.exec_frozen hs hwarrant.work h
  refine ⟨hfrozen, hgrown, fun x hx hpending => ?_⟩
  obtain ⟨a, ha, rfl, hstate⟩ := isPending_iff.mp hpending
  rcases Write.exec_rows hs hwarrant.work h ha with ⟨a₀, ha₀, hsame, hwaits⟩ | ⟨hnew, -⟩
  · rcases hwaits hstate with hwaits | ⟨patch, rfl, hpatch⟩
    · exact isPending_iff.mpr ⟨a₀, ha₀, hsame.localId, hwaits⟩
    · exact absurd hx (hP hpatch)
  · exact absurd (Device.savesOf_subset hx) hnew

/-- Every statement that meets the condition keeps the pending saves sorted. -/
theorem Write.exec_sorted {wr : Write} (hs : Frozen w.store) (hwarrant : Warranted i wr w)
    (hP : QueuesLast d (some (.write wr)) w) (h : wr.exec w.store = .ok s)
    (hsorted : ∀ b ∈ w.store.queue, ∀ a ∈ w.store.queue, b.state = .pending → a.state = .pending →
      Before d w.store b.localId a.localId → replaysBefore b a = true) :
    ∀ b ∈ s.queue, ∀ a ∈ s.queue, b.state = .pending → a.state = .pending →
      Before d s b.localId a.localId → replaysBefore b a = true := by
  have honward := Write.exec_onward hs hwarrant hP h
  have hcomes := fun {a} => Write.exec_rows (a := a) hs hwarrant.work h
  intro b hb a ha hbstate hastate hbefore
  have hasaves : a.payload.saves d = true := (honward.frozen.mem_savesOf ha).mp hbefore.right_mem
  have hbsaves : b.payload.saves d = true := (honward.frozen.mem_savesOf hb).mp hbefore.left_mem
  have hnotUpload : ∀ upload c, wr = .putPendingUploadWithAction upload c →
      c.payload.saves d = false := by
    rintro upload c rfl
    have hpayload : c.payload = .upload upload.localId := hwarrant.2.2
    rw [hpayload]
    rfl
  have hwaited : ∀ {c c₀ : QueuedAction}, c.payload.saves d = true → SameWork c₀ c →
      c₀ ∈ w.store.queue → (c₀.state = .pending ∨
        ∃ patch, wr = .updateAction c.localId patch ∧ patch.state = some .pending) →
          c₀.state = .pending := by
    rintro c c₀ hsaves hsame hmem (hstate | ⟨patch, rfl, hpatch⟩)
    · exact hstate
    · refine absurd ?_ (hP hpatch)
      rw [← hsame.localId, hs.mem_savesOf hmem, ← QueuedPayload.saves_work, hsame.work,
        QueuedPayload.saves_work]
      exact hsaves
  rcases hcomes hb with ⟨b₀, hb₀, hbsame, hbwaits⟩ | ⟨hbnew, hbwr⟩
  · have hb₀state := hwaited hbsaves hbsame hb₀ (hbwaits hbstate)
    rcases hcomes ha with ⟨a₀, ha₀, hasame, hawaits⟩ | ⟨hanew, hawr⟩
    · have ha₀state := hwaited hasaves hasame ha₀ (hawaits hastate)
      rw [replaysBefore_congr hbsame hasame]
      refine hsorted b₀ hb₀ a₀ ha₀ hb₀state ha₀state ?_
      rw [hbsame.localId, hasame.localId]
      exact honward.before (hasame.localId ▸ hs.mem_queuedIds ha₀) hbefore
    · -- the new save was queued behind every pending one
      rcases hawr with rfl | ⟨upload, rfl⟩
      · rw [replaysBefore_congr hbsame ⟨rfl, rfl, rfl⟩]
        refine hP hasaves b₀ hb₀ hb₀state ?_
        rw [← QueuedPayload.saves_work, hbsame.work, QueuedPayload.saves_work]
        exact hbsaves
      · rw [hnotUpload upload a rfl] at hasaves
        cases hasaves
  · rcases hcomes ha with ⟨a₀, ha₀, hasame, -⟩ | ⟨-, hawr⟩
    · have hold := honward.before (hasame.localId ▸ hs.mem_queuedIds ha₀) hbefore
      exact absurd (Device.savesOf_subset hold.left_mem) hbnew
    · have hsame : a = b := by
        rcases hawr with rfl | ⟨upload, rfl⟩
        · rcases hbwr with heq | ⟨upload', heq⟩
          · exact Write.enqueue.inj heq
          · cases heq
        · rcases hbwr with heq | ⟨upload', heq⟩
          · cases heq
          · exact (Write.putPendingUploadWithAction.inj heq).2
      rw [hsame] at hbefore
      exact absurd rfl (hbefore.ne honward.frozen.nodup_savesOf)

theorem plain_restored (localId : Uuid) : (Write.updateAction localId restoredPatch).Plain :=
  ⟨rfl, by simp [restoredPatch], by simp [restoredPatch]⟩

/-- A described commit that meets the condition leads onward. -/
theorem Described.onward {tag : Option StoreTag} (hs : Frozen w.store) (hP : QueuesLast d tag w)
    (h : Described i tag w w') : Onward d w.store w'.store := by
  have hsame : w'.store = w.store → Onward d w.store w'.store := fun he => by
    rw [he]
    exact .refl hs
  cases tag with
  | none => exact hsame h
  | some tag =>
      cases tag with
      | write wr => exact Write.exec_onward hs h.2 hP h.1
      | stop localId =>
          exact Write.exec_onward (i := i) hs ((plain_restored localId).warranted w)
            (fun hpatch => by simp [restoredPatch] at hpatch) h.1
      | recheck localId => exact hsame h.1
      | files draftId => exact hsame h.1
      | edit e =>
          obtain ⟨editors, he⟩ := h
          rw [he]
          exact ⟨⟨hs.nodup, hs.queued⟩, List.prefix_refl _, fun _ _ h => h⟩
      | _ => exact hsame h

theorem Described.sorted {tag : Option StoreTag} (hs : Frozen w.store) (hP : QueuesLast d tag w)
    (h : Described i tag w w')
    (hsorted : ∀ b ∈ w.store.queue, ∀ a ∈ w.store.queue, b.state = .pending → a.state = .pending →
      Before d w.store b.localId a.localId → replaysBefore b a = true) :
    ∀ b ∈ w'.store.queue, ∀ a ∈ w'.store.queue, b.state = .pending → a.state = .pending →
      Before d w'.store b.localId a.localId → replaysBefore b a = true := by
  cases tag with
  | none => rwa [show w'.store = w.store from h]
  | some tag =>
      cases tag with
      | write wr => exact Write.exec_sorted hs h.2 hP h.1 hsorted
      | stop localId =>
          exact Write.exec_sorted (i := i) hs ((plain_restored localId).warranted w)
            (fun hpatch => by simp [restoredPatch] at hpatch) h.1 hsorted
      | recheck localId => rwa [show w'.store = w.store from h.1]
      | files draftId => rwa [show w'.store = w.store from h.1]
      | edit e =>
          obtain ⟨editors, he⟩ := h
          rw [he]
          exact hsorted
      | _ => rwa [show w'.store = w.store from h]

variable {es : List Effect} {p p' : Pass}

/-- A pass that stays where it is keeps its order while the store goes on. -/
theorem InOrder.onward (h : InOrder d s es p) (ho : Onward d s s')
    (hes : ∀ e ∈ es, e.draftId = d → e.localId ∈ s.queuedIds) (htodo : p'.todo = p.todo)
    (hcurrent : p'.current = p.current) (hleft : p'.leftPending = p.leftPending) :
    InOrder d s' es p' := by
  have hqueued : ∀ q, p.current = some q → q.localId ∈ s.queuedIds := fun q hq => by
    obtain ⟨e, he, hsame⟩ := h.queued q hq
    exact List.mem_map.mpr ⟨e, he, hsame.localId⟩
  refine ⟨fun a ha => ?_, fun l a r hsplit x hx hbefore => ?_, fun q hq => ?_,
    fun q hq x hx hbefore => ?_, fun q hq e he hd hbefore => ?_⟩
  · exact ho.queuedIds (h.known a (htodo ▸ ha))
  · rw [htodo] at hsplit
    have ha : a.localId ∈ s.queuedIds := h.known a (by simp [hsplit])
    obtain ⟨hwaits, hold⟩ := ho.waiting ha hx hbefore
    rw [hcurrent, hleft]
    exact h.ahead l a r hsplit x hwaits hold
  · obtain ⟨e, he, hsame⟩ := h.queued q (hcurrent ▸ hq)
    exact ⟨e, ho.grown.subset he, hsame⟩
  · rw [hcurrent] at hq
    obtain ⟨hwaits, hold⟩ := ho.waiting (hqueued q hq) hx hbefore
    rw [hleft]
    exact h.left q hq x hwaits hold
  · rw [hcurrent] at hq
    exact h.last q hq e he hd (ho.before (hes e he hd) hbefore)

/-- A stopped pass comes to nothing more. -/
theorem InOrder.stopped (htodo : p.todo = []) (hcurrent : p.current = none) :
    InOrder d s es p := by
  refine ⟨fun a ha => ?_, fun l a r hsplit => ?_, fun q hq => ?_, fun q hq => ?_, fun q hq => ?_⟩
  · rw [htodo] at ha
    cases ha
  · rw [htodo] at hsplit
    simp at hsplit
  all_goals
    rw [hcurrent] at hq
    cases hq

/-- A list that was just read is in order. -/
theorem InOrder.listed (hs : Frozen s) (h : InOrder d s es p)
    (hsorted : ∀ b ∈ s.queue, ∀ a ∈ s.queue, b.state = .pending → a.state = .pending →
      Before d s b.localId a.localId → replaysBefore b a = true) :
    InOrder d s es { p with todo := pendingOf s } := by
  refine ⟨fun a ha => hs.mem_queuedIds (mem_pendingOf.mp ha).1,
    fun l a r hsplit x hx hbefore => ?_, h.queued, h.left, h.last⟩
  obtain ⟨b, hb, rfl, hbstate⟩ := isPending_iff.mp hx
  have hall : (pendingOf s).Pairwise fun a b => replaysBefore a b = true := pendingOf_sorted s
  have ha : a ∈ pendingOf s := by rw [show pendingOf s = l ++ a :: r from hsplit]; simp
  obtain ⟨haqueue, hastate⟩ := mem_pendingOf.mp ha
  have hbmem : b ∈ pendingOf s := mem_pendingOf.mpr ⟨hb, hbstate⟩
  have hne : b.localId ≠ a.localId := hbefore.ne hs.nodup_savesOf
  have hba : replaysBefore b a = true := hsorted b hb a haqueue hbstate hastate hbefore
  have hab : ¬ replaysBefore a b = true := fun hab => hne (localId_of_replaysBefore hba hab)
  have hsplit' : pendingOf s = l ++ a :: r := hsplit
  rw [hsplit'] at hall hbmem
  have hfront : b ∈ l := mem_front_of_sorted hall hbmem (fun he => hne (by rw [he])) hab
  exact .inl (List.mem_map.mpr ⟨b, hfront, rfl⟩)

/-- A pass that comes to its next action stays in order. -/
theorem InOrder.recheck {localId : Uuid} {listed : QueuedAction} {rest : List QueuedAction}
    (hs : Frozen s) (h : InOrder d s es p) (htodo : p.todo = listed :: rest)
    (hid : listed.localId = localId)
    (hdone : ∀ e ∈ es, e.draftId = d → ∀ x, Before d s x e.localId → isPending x s = false) :
    InOrder d s es (p.recheck localId s) := by
  have hleft : ∀ q, p.current = some q → isPending q.localId s = true →
      q.localId ∈ (p.recheck localId s).leftPending.map (·.localId) := by
    intro q hq hwaits
    obtain ⟨a, ha, rfl⟩ := Option.map_eq_some_iff.mp hq
    simp [Pass.recheck, ha, Option.filter, hwaits]
  have hkept : ∀ x, x ∈ p.leftPending.map (·.localId) →
      x ∈ (p.recheck localId s).leftPending.map (·.localId) := by
    intro x hx
    simp only [Pass.recheck, List.map_append, List.mem_append]
    exact .inl hx
  have hcurrent : ∀ q, (p.recheck localId s).current = some q →
      q ∈ s.queue ∧ q.localId = localId ∧ q.state = .pending := by
    intro q hq
    obtain ⟨a, ha, rfl⟩ := Option.map_eq_some_iff.mp hq
    obtain ⟨q, hfilter, rfl⟩ := Option.map_eq_some_iff.mp ha
    obtain ⟨hfind, hstate⟩ := Option.filter_eq_some_iff.mp hfilter
    exact ⟨Table.mem_of_find? hfind, Table.key_of_find? hfind, by simpa [Attempt.fresh] using hstate⟩
  have htail : (p.recheck localId s).todo = rest := by simp [Pass.recheck, htodo]
  refine ⟨fun a ha => ?_, fun l a r hsplit x hx hbefore => ?_, fun q hq => ?_,
    fun q hq x hx hbefore => ?_, fun q hq e he hd hbefore => ?_⟩
  · exact h.known a (by rw [htodo]; exact List.mem_cons_of_mem _ (htail ▸ ha))
  · rw [htail] at hsplit
    rcases h.ahead (listed :: l) a r (by rw [htodo, hsplit]; rfl) x hx hbefore with
      hfront | ⟨q, hq, rfl⟩ | hold
    · rcases List.mem_cons.mp hfront with rfl | hfront
      · -- the action that the pass comes to
        obtain ⟨b, hb, hbid, hbstate⟩ := isPending_iff.mp hx
        refine .inr (.inl ⟨b, ?_, hbid⟩)
        have hfind : s.queue.find? localId = some b :=
          Table.find?_eq_some_iff.mpr ⟨hb, hbid.trans hid⟩
        simp [Pass.current, Pass.recheck, hfind, hbstate, Option.filter, Attempt.fresh]
      · exact .inl hfront
    · exact .inr (.inr (hleft q hq hx))
    · exact .inr (.inr (hkept x hold))
  · obtain ⟨hmem, -, -⟩ := hcurrent q hq
    exact hs.queued q hmem
  · obtain ⟨hmem, hqid, -⟩ := hcurrent q hq
    have hbefore' : Before d s x listed.localId := by rwa [hid, ← hqid]
    rcases h.ahead [] listed rest htodo x hx hbefore' with hfront | ⟨q', hq', rfl⟩ | hold
    · cases hfront
    · exact hleft q' hq' hx
    · exact hkept x hold
  · obtain ⟨hmem, -, hstate⟩ := hcurrent q hq
    have hwaits : isPending q.localId s = true := isPending_iff.mpr ⟨q, hmem, rfl, hstate⟩
    rw [hdone e he hd q.localId hbefore] at hwaits
    cases hwaits

theorem OrderKept.queuedIds (h : OrderKept d w) :
    ∀ e ∈ w.outside.effects, e.draftId = d → e.localId ∈ w.store.queuedIds := by
  intro e he hd
  obtain ⟨a, ha, hid, -⟩ := h.effects e he hd
  exact List.mem_map.mpr ⟨a, ha, hid⟩

/-- A commit that meets the condition keeps the order. -/
theorem OrderKept.commit {tag : Option StoreTag} (hs : Frozen w.store) (h : OrderKept d w)
    (hP : QueuesLast d tag w) (hD : Described i tag w ⟨s, w.outside.observe i tag w.store⟩) :
    OrderKept d ⟨s, w.outside.observe i tag w.store⟩ := by
  have ho : Onward d w.store s := hD.onward hs hP
  have hsame : (w.outside.observe i tag w.store).effects = w.outside.effects := by
    obtain ⟨_, _, _, _, _, _, heq⟩ := Journal.observe_eq i tag w.store w.outside
    rw [heq]
  refine ⟨hD.sorted hs hP h.sorted, ?_, fun e he hd => ?_, fun e he hd x hbefore => ?_, ?_⟩
  · show (w.outside.observe i tag w.store).EveryPass
      (InOrder d s (w.outside.observe i tag w.store).effects)
    rw [hsame]
    refine h.pass.onPass (fun p _ _ hp => hp.onward ho h.queuedIds rfl rfl rfl)
      (fun p hi hp hinorder => ?_) Journal.observe_pass
    have hstay : ∀ f : Attempt → Attempt, (∀ a, (f a).queued = a.queued) →
        InOrder d s w.outside.effects { p with attempt := p.attempt.map f } := fun f hf =>
      hinorder.onward ho h.queuedIds rfl
        (by simp only [Pass.current, Option.map_map, Function.comp_def, hf]) rfl
    unfold Journal.passAfter
    split
    · split
      · exact hstay _ fun _ => rfl
      · exact hinorder.onward ho h.queuedIds rfl rfl rfl
    · exact .stopped rfl rfl
    · exact hinorder.onward ho h.queuedIds rfl rfl rfl
    · have hstore : s = w.store := hD
      rw [hstore]
      exact hinorder.listed hs h.sorted
    next localId =>
      obtain ⟨hstore, p', listed, rest, hp', htodo, hid, -⟩ := hD
      obtain rfl : p = p' := Option.some.inj
        ((Journal.passOf_eq_some.mpr ⟨hp, hi⟩).symm.trans hp')
      obtain rfl : s = w.store := hstore
      exact hinorder.recheck hs htodo hid h.done
    · exact hstay _ fun _ => rfl
    · exact hstay _ fun _ => rfl
    · exact hstay _ fun _ => rfl
    · exact hinorder.onward ho h.queuedIds rfl rfl rfl
  · obtain ⟨a, ha, hrest⟩ := h.effects e (hsame ▸ he) hd
    exact ⟨a, ho.grown.subset ha, hrest⟩
  · have he' : e ∈ w.outside.effects := hsame ▸ he
    have hold := ho.before (h.queuedIds e he' hd) hbefore
    by_contra hwaits
    have hwaited := ho.pending x hold.left_mem (by simpa using hwaits)
    rw [h.done e he' hd x hold] at hwaited
    cases hwaited
  · show ((w.outside.observe i tag w.store).effects.filter _).Pairwise _
    rw [hsame]
    refine h.ordered.imp_of_mem fun he _ hnot hbefore => hnot (ho.before ?_ hbefore)
    obtain ⟨he, hd⟩ := List.mem_filter.mp he
    exact h.queuedIds _ he (by simpa using hd)

/-! ## Answers -/

/-- What a worker replays is what the pass replays. -/
theorem Journal.attemptOf_eq_some {a : Attempt} : o.attemptOf i = some a ↔
    ∃ p, o.pass = some p ∧ p.worker = i ∧ p.attempt = some a := by
  unfold attemptOf
  constructor
  · intro h
    obtain ⟨p, hp, ha⟩ := Option.bind_eq_some_iff.mp h
    obtain ⟨hp, hi⟩ := passOf_eq_some.mp hp
    exact ⟨p, hp, hi, ha⟩
  · rintro ⟨p, hp, hi, ha⟩
    rw [passOf_eq_some.mpr ⟨hp, hi⟩, Option.bind_some, ha]

/-- A pass that stays where it is stays in order when what it replays takes effect. -/
theorem InOrder.effect (hs : Frozen s) (h : InOrder d s es p) {e : Effect}
    (he : ∀ q, p.current = some q → q.localId = e.localId) : InOrder d s (es ++ [e]) p := by
  refine ⟨h.known, h.ahead, h.queued, h.left, fun q hq e' he' hd hbefore => ?_⟩
  rcases List.mem_append.mp he' with hold | hnew
  · exact h.last q hq e' hold hd hbefore
  · obtain rfl := List.mem_singleton.mp hnew
    rw [he q hq] at hbefore
    exact hbefore.ne hs.nodup_savesOf rfl

/-- A pass keeps its order when only the knowledge about its attempt changes. -/
theorem InOrder.map (h : InOrder d s es p) {f : Attempt → Attempt}
    (hf : ∀ a, (f a).queued = a.queued) : InOrder d s es { p with attempt := p.attempt.map f } := by
  have hcurrent : Pass.current { p with attempt := p.attempt.map f } = p.current := by
    simp only [Pass.current, Option.map_map, Function.comp_def, hf]
  refine ⟨h.known, ?_, ?_, ?_, ?_⟩
  · rw [hcurrent]
    exact h.ahead
  · rw [hcurrent]
    exact h.queued
  · rw [hcurrent]
    exact h.left
  · rw [hcurrent]
    exact h.last

/-- An answer that replays nothing keeps the order. -/
theorem OrderKept.same (h : OrderKept d w) (heffects : o'.effects = w.outside.effects)
    (hpass : o'.EveryPass (InOrder d w.store w.outside.effects)) :
    OrderKept d ⟨w.store, o'⟩ := by
  refine ⟨h.sorted, ?_, ?_, ?_, ?_⟩
  · show o'.EveryPass (InOrder d w.store o'.effects)
    rwa [heffects]
  · rw [show (⟨w.store, o'⟩ : World offlineSignature Journal).outside.effects =
      w.outside.effects from heffects]
    exact h.effects
  · rw [show (⟨w.store, o'⟩ : World offlineSignature Journal).outside.effects =
      w.outside.effects from heffects]
    exact h.done
  · rw [show (⟨w.store, o'⟩ : World offlineSignature Journal).outside.effects =
      w.outside.effects from heffects]
    exact h.ordered

/-- An answer that takes what a pass replays keeps the order. -/
theorem OrderKept.replayed (hs : Frozen w.store) (h : OrderKept d w) {e : Effect}
    (heffects : o'.effects = w.outside.effects ++ [e])
    (hpass : o'.EveryPass (InOrder d w.store w.outside.effects))
    (hcurrent : o'.EveryPass fun p => ∀ q, p.current = some q → q.localId = e.localId)
    (hqueued : e.draftId = d → ∃ a ∈ w.store.enqueued, a.localId = e.localId ∧
      ∃ base base' patch, a.payload = .draftSave d base patch ∧ e.input = editBody patch base')
    (hfirst : ∀ x, Before d w.store x e.localId → isPending x w.store = false)
    (hlast : ∀ e' ∈ w.outside.effects, e'.draftId = d →
      ¬ Before d w.store e.localId e'.localId) : OrderKept d ⟨w.store, o'⟩ := by
  refine ⟨h.sorted, fun p hp => ?_, fun e' he' hd => ?_, fun e' he' hd x hbefore => ?_, ?_⟩
  · show InOrder d w.store o'.effects p
    rw [heffects]
    exact (hpass p hp).effect hs (hcurrent p hp)
  · rcases List.mem_append.mp (heffects ▸ he') with hold | hnew
    · exact h.effects e' hold hd
    · obtain rfl := List.mem_singleton.mp hnew
      exact hqueued hd
  · rcases List.mem_append.mp (heffects ▸ he') with hold | hnew
    · exact h.done e' hold hd x hbefore
    · obtain rfl := List.mem_singleton.mp hnew
      exact hfirst x hbefore
  · show (o'.effects.filter _).Pairwise _
    rw [heffects, List.filter_append, List.pairwise_append]
    refine ⟨h.ordered, ?_, fun e₁ he₁ e₂ he₂ => ?_⟩
    · exact (List.pairwise_singleton _ _).sublist List.filter_sublist
    · obtain ⟨he₁, hd₁⟩ := List.mem_filter.mp he₁
      obtain rfl := List.mem_singleton.mp (List.mem_filter.mp he₂).1
      exact hlast e₁ he₁ (by simpa using hd₁)

theorem OrderKept.call {c : OfflineCall} {r : Except OfflineFailure c.Answer}
    (hs : Frozen w.store) (h : OrderKept d w) (hasked : Asked i c w)
    (hP : TakenInTurn d i w ⟨w.store, o'⟩)
    (hresp : Journal.respond i c r w.outside = some o') : OrderKept d ⟨w.store, o'⟩ := by
  have hattempt : ∀ g d' input, c = .patchDraft none g d' input →
      ∃ a, w.outside.attemptOf i = some a := by
    rintro g d' input rfl
    obtain ⟨a, -, -, ha, -⟩ := hasked
    exact ⟨a, ha⟩
  have hpasses : o'.EveryPass (InOrder d w.store w.outside.effects) :=
    h.pass.answered (Journal.respond_pass hresp) (.stopped rfl rfl)
      fun p record _ _ hp => hp.map fun _ => rfl
  cases Journal.respond_answered hattempt hresp with
  | same _ heffects _ _ => exact h.same heffects hpasses
  | locked _ heffects _ _ => exact h.same heffects hpasses
  | edited _ _ _ heffects _ _ => exact h.same heffects hpasses
  | replayed a g draftId input hc ha _ heffects _ hpass =>
      subst hc
      obtain ⟨p, hp, hi, hpa⟩ := Journal.attemptOf_eq_some.mp ha
      obtain ⟨a', base, patch, ha', -, hpayload, rfl⟩ := hasked
      obtain rfl : a = a' := Option.some.inj (ha.symm.trans ha')
      have hinorder := h.pass p hp
      have hcurrent : p.current = some a.queued := by rw [Pass.current, hpa, Option.map_some]
      have hturn := hP (by simp [heffects]) p a (Journal.passOf_eq_some.mpr ⟨hp, hi⟩) hpa
      refine h.replayed hs heffects hpasses ?_ ?_ ?_ ?_
      · intro p' hp' q hq
        rcases hpass with hpass | ⟨revision, hpass⟩
        · obtain rfl : p = p' := Option.some.inj (hp.symm.trans (hpass.symm.trans hp'))
          rw [Option.some.inj (hcurrent.symm.trans hq)]
        · rw [hpass] at hp'
          obtain ⟨p₀, hp₀, rfl⟩ := Option.map_eq_some_iff.mp hp'
          obtain rfl : p = p₀ := Option.some.inj (hp.symm.trans hp₀)
          obtain rfl : a.queued = q := by simpa [hi, Pass.current, hpa] using hq
          rfl
      · intro hd
        obtain rfl : draftId = d := hd
        obtain ⟨e, he, hsame⟩ := hinorder.queued a.queued hcurrent
        have hwork := hsame.work
        rw [hpayload] at hwork
        obtain ⟨base', hbase'⟩ := QueuedPayload.draftSave_of_work hwork
        exact ⟨e, he, hsame.localId, base', base, patch, hbase', rfl⟩
      · intro x hbefore
        by_contra hwaits
        have hmem := hinorder.left a.queued hcurrent x (by simpa using hwaits) hbefore
        obtain ⟨b, hb, rfl⟩ := List.mem_map.mp hmem
        exact hturn b hb (by simpa using hwaits) hbefore
      · exact hinorder.last a.queued hcurrent

end MailHub.Offline
