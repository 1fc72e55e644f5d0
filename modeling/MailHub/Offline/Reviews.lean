import MailHub.Offline.Runs
import MailHub.Offline.Statements

/-!
# The review of queued actions

An action in review waits for its owner. The only operation that takes it out is the owner's
resolution of its review, with the acknowledgement that its kind requires; yet a settlement, a retry
and a discard write without a look at the state of the action.
-/

namespace MailHub.Offline

open Relational Interleaving MailHub OfflineStore

variable {fails : Bool} {op : OfflineOp} {ops : ℕ → OfflineOp} {i : ℕ} {x y : Uuid}
  {s s' : Device} {w : World offlineSignature Journal}

/-! ## The guard -/

/-- An action of the store waits for review. -/
def InReview (x : Uuid) (s : Device) : Prop :=
  ∃ a, s.queue.find? x = some a ∧ a.state = .review

/-- A choice acknowledges what a payload requires before it may run again: the duplicate warning of
a send, and the comparison of a draft with the server's copy. -/
def ReviewChoice.Acknowledges : ReviewChoice → QueuedPayload → Prop
  | .rebase _ acknowledged _, .send .. => acknowledged = true
  | .rebase compared _ revision, .draftSave .. => compared = true ∧ revision.isSome = true
  | _, _ => True

/-- What a step of an operation does to the queue respects reviews and failures. -/
structure Guarded (op : OfflineOp) (s s' : Device) : Prop where
  /-- An action in review stays there, unless its owner resolves its review. -/
  left : ∀ x a, s.queue.find? x = some a → a.state = .review → InReview x s' ∨
    ∃ choice, op = .resolveReview x choice ∧ choice.Acknowledges a.payload
  /-- A retry and a discard of a failure change only the action that they name, and only when it
  failed. -/
  failures : ∀ x, op = .retryFailure x ∨ op = .discardFailure x → ∀ y a,
    s.queue.find? y = some a → s'.queue.find? y = some a ∨ y = x ∧ a.state = .failed

/-- A step that leaves the rows of the queue alone respects them. -/
theorem Guarded.of_rows (h : ∀ y a, s.queue.find? y = some a → s'.queue.find? y = some a) :
    Guarded op s s' :=
  ⟨fun y a ha hreview => .inl ⟨a, h y a ha, hreview⟩, fun _ _ y a ha => .inl (h y a ha)⟩

/-! ## The condition -/

/-- The action with an identifier is not in review. -/
def OutOfReview (x : Uuid) (s : Device) : Prop :=
  ∀ a, s.queue.find? x = some a → a.state ≠ .review

/-- The action with an identifier failed, or is gone. -/
def FailedOrGone (x : Uuid) (s : Device) : Prop :=
  ∀ a, s.queue.find? x = some a → a.state = .failed

/-- An operation comes in time with a statement: the action that a pass settles was not moved to
review since the pass read it, a failure that is retried or discarded is one, and what is pruned
from the history did not go to review. -/
def Timely (op : OfflineOp) (wr : Write) (s : Device) : Prop :=
  match op, wr with
  | .sync, .updateAction x patch =>
      patch.state = some .synced ∨ patch.state = some .failed → OutOfReview x s
  | .sync, .pruneActions xs => ∀ x ∈ xs, OutOfReview x s
  | .retryFailure _, .updateAction x _ => FailedOrGone x s
  | .discardFailure _, .deleteAction x => FailedOrGone x s
  | _, _ => True

/-- The runs in which every operation comes in time. -/
def timely (ops : ℕ → OfflineOp) : Policy offlineSignature Journal where
  commit i tag w _ := ∀ wr, tag = some (.write wr) → Timely (ops i) wr w.store
  call _ _ _ _ := True

/-! ## Statements -/

/-- The owner who resolves a review acknowledged what the action was queued for. -/
def Warned (op : OfflineOp) (s : Device) : Prop :=
  ∀ x choice, op = .resolveReview x choice →
    ∃ e ∈ s.enqueued, e.localId = x ∧ choice.Acknowledges e.payload

theorem ReviewChoice.Acknowledges.congr {choice : ReviewChoice} {p p' : QueuedPayload}
    (h : choice.Acknowledges p) (hwork : p.work = p'.work) : choice.Acknowledges p' := by
  cases choice with
  | discard => cases p' <;> trivial
  | rebase compared acknowledged revision =>
      cases p <;> cases p' <;> simp_all [QueuedPayload.work, Acknowledges]

/-- What was acknowledged when an action was queued holds of its row. -/
theorem Warned.row {choice : ReviewChoice} (h : Warned op s) (hs : Frozen s)
    (hop : op = .resolveReview x choice) {a : QueuedAction} (ha : s.queue.find? x = some a) :
    choice.Acknowledges a.payload := by
  obtain ⟨e, he, hid, hack⟩ := h x choice hop
  obtain ⟨e', he', hsame⟩ := hs.queued a (Table.mem_of_find? ha)
  have hkey : a.localId = x := Table.key_of_find? ha
  obtain rfl := hs.unique he he' (by rw [hid, hsame.localId, hkey])
  exact hack.congr hsame.work

/-- An update respects reviews when it leaves the state alone or parks the action, when the action
is not in review, and when the owner acknowledged it. -/
theorem guarded_updateAction {patch : ActionPatch}
    (hreview : patch.state = none ∨ patch.state = some .review ∨ OutOfReview x s ∨
      ∃ choice, op = .resolveReview x choice ∧
        ∀ a, s.queue.find? x = some a → choice.Acknowledges a.payload)
    (hfailure : ∀ z, op = .retryFailure z ∨ op = .discardFailure z → z = x ∧ FailedOrGone x s)
    (h : (Write.updateAction x patch).exec s = .ok s') : Guarded op s s' := by
  have hrow : ∀ y a, s.queue.find? y = some a →
      s'.queue.find? y = some (if y = x then patch.apply a else a) := by
    intro y a ha
    have hkey : a.localId = y := Table.key_of_find? ha
    rw [find?_updateAction h y, ha, Option.map_some, hkey]
    simp only [beq_iff_eq]
  refine ⟨fun y a ha hstate => ?_, fun z hz y a ha => ?_⟩
  · by_cases hyx : y = x
    · subst hyx
      rcases hreview with hnone | hpark | hout | ⟨choice, hop, hack⟩
      · refine .inl ⟨patch.apply a, by simpa using hrow y a ha, ?_⟩
        simpa [ActionPatch.apply, hnone] using hstate
      · refine .inl ⟨patch.apply a, by simpa using hrow y a ha, ?_⟩
        simp [ActionPatch.apply, hpark]
      · exact absurd hstate (hout a ha)
      · exact .inr ⟨choice, hop, hack a ha⟩
    · exact .inl ⟨a, by simpa [hyx] using hrow y a ha, hstate⟩
  · obtain ⟨rfl, hfailed⟩ := hfailure z hz
    by_cases hyz : y = z
    · subst hyz
      exact .inr ⟨rfl, hfailed a ha⟩
    · exact .inl (by simpa [hyz] using hrow y a ha)

/-- Dropping actions respects reviews when none of them is in review, or the owner resolves its
review. -/
theorem guarded_delete {p : QueuedAction → Bool}
    (hreview : ∀ y a, s.queue.find? y = some a → p a = true → a.state ≠ .review ∨
      ∃ choice, op = .resolveReview y choice ∧ choice.Acknowledges a.payload)
    (hfailure : ∀ z, op = .retryFailure z ∨ op = .discardFailure z →
      ∀ y a, s.queue.find? y = some a → p a = true → y = z ∧ a.state = .failed) :
    Guarded op s { s with queue := s.queue.delete p } := by
  have hkept : ∀ y a, s.queue.find? y = some a → p a = false →
      (s.queue.delete p).find? y = some a := by
    intro y a ha hp
    rw [Table.find?_delete, ha]
    simp [hp]
  refine ⟨fun y a ha hstate => ?_, fun z hz y a ha => ?_⟩
  · cases hp : p a with
    | false => exact .inl ⟨a, hkept y a ha hp, hstate⟩
    | true =>
        rcases hreview y a ha hp with hout | hresolved
        · exact absurd hstate hout
        · exact .inr hresolved
  · cases hp : p a with
    | false => exact .inl (hkept y a ha hp)
    | true => exact .inr (hfailure z hz y a ha hp)

/-- A new action replaces none. -/
theorem guarded_addAction {a : QueuedAction} (hs : Frozen s) (h : s.addAction a = .ok s') :
    Guarded op s s' := by
  unfold Device.addAction at h
  split at h
  · cases h
  next hfresh =>
    obtain rfl := Except.ok.inj h
    refine .of_rows fun y b hb => ?_
    have hne : a.localId ≠ y := by
      rintro rfl
      obtain ⟨e, he, hsame⟩ := hs.queued b (Table.mem_of_find? hb)
      have hkey : b.localId = a.localId := Table.key_of_find? hb
      exact hfresh (List.mem_map.mpr ⟨e, he, hsame.localId.trans hkey⟩)
    have hput : (s.queue.put a).find? y = if a.localId = y then some a else s.queue.find? y :=
      Table.find?_put
    exact hput.trans ((if_neg hne).trans hb)

/-- A statement that comes in time respects reviews and failures. -/
theorem Timely.guarded {wr : Write} (hs : Frozen s) (hwarned : Warned op s) (hw : op.Writes wr)
    (htimely : Timely op wr s) (h : wr.exec s = .ok s') : Guarded op s s' := by
  cases hw with
  | marked | stopped | parked =>
      exact guarded_updateAction (.inr (.inl rfl)) (by simp) h
  | attempted | chained => exact guarded_updateAction (.inl rfl) (by simp) h
  | synced => exact guarded_updateAction (.inr (.inr (.inl (htimely (.inl rfl))))) (by simp) h
  | failed => exact guarded_updateAction (.inr (.inr (.inl (htimely (.inr rfl))))) (by simp) h
  | rebased =>
      exact guarded_updateAction (.inr (.inr (.inr
        ⟨_, rfl, fun a ha => hwarned.row hs rfl ha⟩))) (by simp) h
  | @retried x =>
      have hfailed : FailedOrGone x s := htimely
      refine guarded_updateAction (.inr (.inr (.inl fun a ha => ?_))) (fun z hz => ?_) h
      · rw [hfailed a ha]
        simp
      · obtain rfl : x = z := by simpa using hz
        exact ⟨rfl, hfailed⟩
  | @discarded x =>
      obtain rfl := Except.ok.inj h
      refine guarded_delete (fun y a ha hp => .inr ⟨.discard, ?_, ?_⟩) (by simp)
      · have hkey : a.localId = y := Table.key_of_find? ha
        rw [← hkey, beq_iff_eq.mp hp]
      · cases a.payload <;> trivial
  | @dropped x =>
      have hfailed : FailedOrGone x s := htimely
      obtain rfl := Except.ok.inj h
      have hnamed : ∀ y a, s.queue.find? y = some a → (a.localId == x) = true →
          y = x ∧ a.state = .failed := by
        intro y a ha hp
        have hkey : a.localId = y := Table.key_of_find? ha
        obtain rfl : y = x := by rw [← hkey, beq_iff_eq.mp hp]
        exact ⟨rfl, hfailed a ha⟩
      refine guarded_delete (fun y a ha hp => .inl ?_) fun z hz y a ha hp => ?_
      · rw [(hnamed y a ha hp).2]
        simp
      · obtain rfl : x = z := by simpa using hz
        exact hnamed y a ha hp
  | @prunedActions xs =>
      have hout : ∀ x ∈ xs, OutOfReview x s := htimely
      obtain rfl := Except.ok.inj h
      refine guarded_delete (fun y a ha hp => .inl ?_) (by simp)
      have hkey : a.localId = y := Table.key_of_find? ha
      exact hout y (by simpa [hkey] using hp) a ha
  | orphan | queuedSave | queuedSend | queuedMail | editedSave | editedSend =>
      exact guarded_addAction hs h
  | @queuedUpload upload u a henters =>
      simp only [Write.exec, bind_eq_ok] at h
      obtain ⟨s₁, hup, hadd⟩ := h
      unfold Device.addUpload at hup
      split at hup
      · cases hup
      · obtain rfl := Except.ok.inj hup
        have hfrozen : Frozen { s with uploads := s.uploads.put u, filed := s.filed ++ [u] } :=
          ⟨hs.nodup, hs.queued⟩
        have hfiled : Guarded (.enqueueUpload upload) _ s' := guarded_addAction hfrozen hadd
        exact ⟨hfiled.left, hfiled.failures⟩
  | _ =>
      obtain rfl := Except.ok.inj h
      exact .of_rows fun _ _ ha => ha

/-! ## The discipline -/

/-- What the workers of a device rely on while reviews are respected. -/
def reviewDiscipline (fails : Bool) (ops : ℕ → OfflineOp) : Discipline (offlineSystem fails) where
  inv w := Frozen w.store
  rely _ w w' := w.store.enqueued <+: w'.store.enqueued
  assumes := (timely ops).and (offlineDiscipline fails).ensures
  ensures := ⟨fun i _ w w' => Guarded (ops i) w.store w'.store, fun _ _ _ _ => True⟩
  rely_refl _ _ := List.prefix_refl _
  rely_trans _ _ _ _ h h' := h.trans h'
  ensures_read _ _ _ := .of_rows fun _ _ ha => ha
  inv_tick _ _ _ hw _ := hw
  rely_tick _ _ _ _ _ _ := List.prefix_refl _
  inv_retire _ _ hw := hw
  rely_retire _ _ _ _ _ := List.prefix_refl _

/-- A stop parks an action, which no retry and no discard does. -/
theorem OfflineOp.Writes.parks (h : op.Writes (.updateAction x restoredPatch)) :
    ∀ z, ¬ (op = .retryFailure z ∨ op = .discardFailure z) := by
  rintro z hz
  generalize hpatch : restoredPatch = patch at h
  cases h <;> simp_all [restoredPatch, retriedPatch]

variable {K : World offlineSignature Journal → Prop} {ok : Write → Prop}

/-- A worker that knows what its owner acknowledged may run its statements. -/
theorem reviewing
    (hgrow : ∀ w w', w.store.enqueued <+: w'.store.enqueued → K w → K w')
    (hknown : ∀ w wr, K w → ok wr → (ops i).Writes wr ∧ Warned (ops i) w.store) :
    Admits (reviewDiscipline fails ops) i (deviceVocabulary ok) K where
  stable w w' hr _ hw := hgrow w w' hr hw
  commit tag w s hs hw hV ha := by
    have hsame : ∀ s' : Device, s'.queue = w.store.queue → s'.enqueued = w.store.enqueued →
        ∀ o : Journal, (reviewDiscipline fails ops).Keeps i w ⟨s', o⟩ ∧
          Guarded (ops i) w.store s' ∧ K ⟨s', o⟩ := by
      intro s' hqueue henqueued o
      have hprefix : w.store.enqueued <+: s'.enqueued := henqueued ▸ List.prefix_refl _
      refine ⟨⟨⟨henqueued ▸ hs.nodup, fun a ha => ?_⟩, fun _ _ => hprefix⟩,
        .of_rows fun y a ha => hqueue ▸ ha, hgrow w ⟨s', o⟩ hprefix hw⟩
      obtain ⟨e, he, hwork⟩ := hs.queued a (hqueue ▸ ha)
      exact ⟨e, henqueued ▸ he, hwork⟩
    cases tag with
    | none =>
        obtain rfl : s = w.store := hV
        exact hsame _ rfl rfl _
    | some tag =>
        cases tag with
        | write wr =>
            obtain ⟨hexec, hok⟩ : wr.exec w.store = .ok s ∧ ok wr := hV
            obtain ⟨hwrites, hwarned⟩ := hknown w wr hw hok
            have hwarrant : Warranted i wr w := ha.2.2
            obtain ⟨hfrozen, hprefix⟩ := Write.exec_frozen hs hwarrant.work hexec
            have htimely : Timely (ops i) wr w.store := ha.1 wr rfl
            exact ⟨⟨hfrozen, fun _ _ => hprefix⟩, htimely.guarded hs hwarned hwrites hexec,
              hgrow w _ hprefix hw⟩
        | stop x =>
            obtain ⟨hexec, hok⟩ : (Write.updateAction x restoredPatch).exec w.store = .ok s ∧
              ok (.updateAction x restoredPatch) := hV
            have hwrites := (hknown w _ hw hok).1
            have hwork : KeepsWork (.updateAction x restoredPatch) w.store := by
              simp [KeepsWork, restoredPatch]
            obtain ⟨hfrozen, hprefix⟩ := Write.exec_frozen hs hwork hexec
            refine ⟨⟨hfrozen, fun _ _ => hprefix⟩, ?_, hgrow w _ hprefix hw⟩
            exact guarded_updateAction (.inr (.inl rfl))
              (fun z hz => absurd hz (hwrites.parks z)) hexec
        | edit e =>
            obtain ⟨editors, rfl⟩ := hV
            exact hsame { w.store with editors } rfl rfl _
        | passGeneration | listPending | recheck _ | generationHeaders | files _ | listChained =>
            obtain rfl : s = w.store := hV
            exact hsame _ rfl rfl _
  call c w r o hs hw _ _ _ :=
    ⟨⟨hs, fun _ _ => List.prefix_refl _⟩, trivial, hgrow w ⟨w.store, o⟩ (List.prefix_refl _) hw⟩

/-! ## Operations -/

/-- A rebase without the acknowledgement that it requires is refused. -/
theorem rebasedPayload_of_unacknowledged {payload : QueuedPayload} {compared acknowledged : Bool}
    {revision : Option ℕ}
    (h : ¬ (ReviewChoice.rebase compared acknowledged revision).Acknowledges payload) :
    ∃ e, rebasedPayload payload compared acknowledged revision = MonadExcept.throw e := by
  cases payload with
  | send d key base =>
      cases acknowledged with
      | false => exact ⟨_, rfl⟩
      | true => exact absurd rfl h
  | draftSave d base patch =>
      cases compared with
      | false => exact ⟨_, rfl⟩
      | true =>
          cases revision with
          | none => exact ⟨_, rfl⟩
          | some revision => exact absurd ⟨rfl, rfl⟩ h
  | upload u => exact absurd trivial h
  | flag targets flag value key => exact absurd trivial h
  | move targets destination key => exact absurd trivial h

/-- The owner's resolution keeps the discipline: it goes on only with the acknowledgement. -/
theorem safe_resolving {choice : ReviewChoice} (hop : ops i = .resolveReview x choice) :
    Safe (reviewDiscipline fails ops) i (resolveReview x choice) w (fun _ _ => True)
      fun _ _ => True := by
  have hfind : Safe (reviewDiscipline fails ops) i (findAction x) w
      (fun r w₁ => ∀ a, r = some a → a.localId = x ∧ ∃ e ∈ w₁.store.enqueued, SameWork e a)
      fun _ _ => True := by
    refine .bind (.read (fun w₁ _ hs => .pure fun w₂ hr _ => ?_) fun _ _ _ _ _ => trivial)
    refine .pure fun w₃ hr' _ a ha => ?_
    have hmem := mem_allOf.mp (List.mem_of_find?_eq_some ha)
    obtain ⟨e, he, hsame⟩ := hs.queued a hmem
    have hid := List.find?_some ha
    exact ⟨beq_iff_eq.mp hid, e, hr'.subset (hr.subset he), hsame⟩
  refine .bind (hfind.mono (fun r w₁ _ hr => ?_) fun _ _ _ _ => trivial)
  cases r with
  | none => exact .throw fun _ _ _ => trivial
  | some action =>
      obtain ⟨hid, e, he, hsame⟩ := hr action rfl
      by_cases hack : choice.Acknowledges action.payload
      · have hwarned : Warned (ops i) w₁.store := by
          intro y choice' hop'
          obtain ⟨rfl, rfl⟩ : x = y ∧ choice = choice' := by simpa [hop] using hop'
          exact ⟨e, he, hsame.localId.trans hid, hack.congr hsame.work.symm⟩
        have hadmits : Admits (reviewDiscipline fails ops) i
            (deviceVocabulary (OfflineOp.Writes (.resolveReview x choice)))
            fun w => Warned (ops i) w.store := by
          refine reviewing (fun w₁ w₂ hgrow hw₁ y choice' hop' => ?_)
            fun w₁ wr hw₁ hwr => ⟨hop ▸ hwr, hw₁⟩
          obtain ⟨e', he', hrest⟩ := hw₁ y choice' hop'
          exact ⟨e', hgrow.subset he', hrest⟩
        refine ((hadmits.preserves (.ite (fun _ => .throw _) fun _ => ?_)).safe w₁ hwarned).mono
          (fun _ _ _ _ => trivial) fun _ _ _ _ => trivial
        exact within_resolution
      · have hadmits : Admits (reviewDiscipline fails ops) i (deviceVocabulary fun _ => False)
            fun _ => True := reviewing (fun _ _ _ _ => trivial) fun _ _ _ h => h.elim
        cases choice with
        | discard => exact absurd (by cases action.payload <;> trivial) hack
        | rebase compared acknowledged revision =>
            refine (hadmits.preserves (.ite (fun _ => .throw _) fun _ =>
              .bind within_read fun g => ?_)).safe w₁ trivial
            cases g with
            | none => exact .throw _
            | some g =>
                obtain ⟨e, hrefused⟩ := rebasedPayload_of_unacknowledged hack
                simp only [hrefused]
                exact .throw _

/-- Every operation keeps the discipline in its own role. -/
theorem OfflineOp.reviewing_safe (i : ℕ) (w : World offlineSignature Journal) :
    Safe (reviewDiscipline fails ops) i (OfflineOp.run (ops i)) w (fun _ _ => True)
      fun _ _ => True := by
  by_cases hop : ∃ x choice, ops i = .resolveReview x choice
  · obtain ⟨x, choice, hop⟩ := hop
    rw [hop]
    exact safe_resolving hop
  · have hwarned : ∀ s, Warned (ops i) s := fun s x choice h => absurd ⟨x, choice, h⟩ hop
    have hadmits : Admits (reviewDiscipline fails ops) i (deviceVocabulary (ops i).Writes)
        fun _ => True := reviewing (fun _ _ _ _ => trivial) fun w wr _ hwr => ⟨hwr, hwarned _⟩
    exact (hadmits.preserves (OfflineOp.within (ops i))).safe w trivial

/-! ## Runs -/

/-- What an event of a run does to the queue respects reviews and failures. -/
structure ReviewsKept (ops : ℕ → OfflineOp) (e : Event (offlineSystem fails)) (s s' : Device) :
    Prop where
  /-- An action leaves the review only through the owner's resolution of its review, with the
  acknowledgement that its kind requires. -/
  left : ∀ x, InReview x s → InReview x s' ∨ ∃ i choice a, e = .commit i ∧
    ops i = .resolveReview x choice ∧ s.queue.find? x = some a ∧ choice.Acknowledges a.payload
  /-- A retry and a discard of a failure change only the action that they name, and only when it
  failed. -/
  failures : ∀ i x, e = .commit i → ops i = .retryFailure x ∨ ops i = .discardFailure x →
    ∀ y a, s.queue.find? y = some a → s'.queue.find? y = some a ∨ y = x ∧ a.state = .failed

/-- In every run whose operations come in time, reviews and failures are respected. -/
theorem reviews_kept {c₀ c c' : Config offlineSignature Journal}
    {e : Event (offlineSystem fails)} (h₀ : OfflineStart c₀)
    (h : ReachesAs (offlineSystem fails) ops (timely ops) c₀ c)
    (hmeets : (timely ops).Meets (offlineSystem fails) c e)
    (hspawn : ∀ op, e.spawned = some op → ops c.workers.length = op)
    (hfire : c.fire (offlineSystem fails) e = some c') :
    ReviewsKept ops e c.world.store c'.world.store := by
  have hfree : ∀ c e, (offlineDiscipline fails).assumes.Meets (offlineSystem fails) c e :=
    Policy.free_meets _
  have hdescribed := h.and_ensures h₀.sound OfflineOp.safe (fun _ _ _ _ _ => trivial)
    fun _ _ _ _ _ => trivial
  have hsound : c.Sound (offlineDiscipline fails) :=
    (h.reaches.mono (fun _ _ _ _ _ => trivial) fun _ _ _ _ _ => trivial).sound h₀.sound
      OfflineOp.safe
  have hstart : c₀.Sound (reviewDiscipline fails ops) := by
    refine ⟨⟨?_, ?_⟩, fun j p hp => by simp [h₀.workers] at hp⟩ <;> rw [h₀.store] <;>
      simp [Device.empty]
  have hguard : (reviewDiscipline fails ops).ensures.Meets (offlineSystem fails) c e :=
    hdescribed.ensures hstart OfflineOp.reviewing_safe
      (hmeets.and (hsound.fire OfflineOp.safe (hfree c e) hfire).2) hspawn hfire
  rcases Config.fire_store hfire with hsame | ⟨i, rfl, β, tag, f, k, b, hp, hf⟩
  · rw [hsame]
    exact ⟨fun x hx => .inl hx, fun _ _ _ _ y a ha => .inl ha⟩
  · have hstep : Guarded (ops i) c.world.store c'.world.store := hguard β tag f k b _ hp hf
    refine ⟨fun x hx => ?_, fun j x hj hop y a ha => ?_⟩
    · obtain ⟨a, ha, hstate⟩ := hx
      rcases hstep.left x a ha hstate with hstay | ⟨choice, hop, hack⟩
      · exact .inl hstay
      · exact .inr ⟨i, choice, a, rfl, hop, ha, hack⟩
    · obtain rfl : i = j := by simpa using hj
      exact hstep.failures x hop y a ha

/-! ## Samples -/

/-- An edit is queued under generation 1, and a pass asks the service for it; meanwhile the device
learns generation 2, which moves the edit to review. -/
def sampleOvertaken : List (Event (offlineSystem false)) :=
  sampleGeneration 0 1 ++ sampleSave 1 3 5 1 "a" ++ samplePass 2 ++
    [.commit 2, .commit 2, .commit 2, .spawn (.observeGeneration (some 2)), .commit 3, .commit 3,
      .answer 3 (sampleAnswer 6), .commit 3, .commit 3, .commit 3, .answer 2 (sampleAnswer 7),
      .answer 2 (sampleAnswer 8)]

/-- The state of action 3. -/
def stateView (c : Config offlineSignature Journal) : Option QueuedState :=
  (c.world.store.queue.find? 3).map (·.state)

/-- A settlement takes an action out of the review that it was moved to in the meantime. -/
theorem review_settled : ∃ ops c c', ∃ e : Event (offlineSystem false),
    ReachesAs (offlineSystem false) ops Policy.free sampleOffline c ∧
      c.fire (offlineSystem false) e = some c' ∧
        ¬ ReviewsKept ops e c.world.store c'.world.store := by
  have hrun : ((sampleOffline.runChecked (offlineSystem false) (fun _ _ => true)
      sampleOvertaken).bind fun c => (c.fire (offlineSystem false) (.commit 2)).map fun c' =>
        (stateView c, stateView c')) = some (some .review, some .synced) := by
    decide +kernel
  obtain ⟨c, hc, hview⟩ := Option.bind_eq_some_iff.mp hrun
  obtain ⟨c', hfire, hview⟩ := Option.map_eq_some_iff.mp hview
  obtain ⟨hbefore, hafter⟩ := Prod.mk.inj hview
  refine ⟨rolesOf OfflineOp.sync sampleOvertaken, c, c', .commit 2,
    .of_events (fun c e _ => Policy.free_meets _ c e) rfl OfflineOp.sync hc, hfire,
    fun hkept => ?_⟩
  obtain ⟨a, ha, hstate⟩ := Option.map_eq_some_iff.mp hbefore
  obtain ⟨a', ha', hstate'⟩ := Option.map_eq_some_iff.mp hafter
  rcases hkept.left 3 ⟨a, ha, hstate⟩ with ⟨b, hb, hreview⟩ | ⟨i, choice, b, hi, hop, -⟩
  · obtain rfl : a' = b := Option.some.inj (ha'.symm.trans hb)
    rw [hstate'] at hreview
    cases hreview
  · obtain rfl : 2 = i := by simpa using hi
    have hrole : rolesOf OfflineOp.sync sampleOvertaken 2 = OfflineOp.sync := rfl
    rw [hrole] at hop
    cases hop

/-- The service asks for a review of the generation. -/
def sampleRecovery : (c : OfflineCall) → Except OfflineFailure c.Answer :=
  fun _ => .error (.api ⟨409, "recovery_required", "The server was restored.", none⟩)

/-- A replayed edit goes to review, and its owner resolves it after a comparison. -/
def sampleResolved : List (Event (offlineSystem false)) :=
  sampleGeneration 0 1 ++ sampleSave 1 3 5 1 "a" ++ samplePass 2 ++
    sampleReplay 2 sampleRecovery ++ [.commit 2,
      .spawn (.resolveReview 3 (.rebase true false (some 4))), .commit 3, .commit 3]

/-- Whether a commit is one that comes in time whatever the store holds. -/
def comesInTime (ops : ℕ → OfflineOp) (c : Config offlineSignature Journal) :
    Event (offlineSystem false) → Bool
  | .commit i =>
      match ops i, c.standsAt i with
      | .sync, some (.write (.updateAction _ patch)) =>
          patch.state != some .synced && patch.state != some .failed
      | .sync, some (.write (.pruneActions _)) => false
      | .retryFailure _, some (.write (.updateAction ..)) => false
      | .discardFailure _, some (.write (.deleteAction _)) => false
      | _, _ => true
  | _ => true

theorem timely_of_comesInTime {c : Config offlineSignature Journal}
    {e : Event (offlineSystem false)} (h : comesInTime ops c e = true) :
    (timely ops).Meets (offlineSystem false) c e := by
  cases e with
  | commit i =>
      intro β tag f k b s hp _ wr htag
      have hat : c.standsAt i = some (.write wr) := by simp [Config.standsAt, hp, htag]
      simp only [comesInTime, hat] at h
      unfold Timely
      split <;> simp_all
  | answer i r => exact fun _ _ _ _ _ => trivial
  | spawn op | abort i e | stop i | tick t => trivial

/-- The owner's resolution takes the edit out of its review. -/
theorem reviews_kept_sample : ∃ ops c c', ∃ e : Event (offlineSystem false),
    ReachesAs (offlineSystem false) ops (timely ops) sampleOffline c ∧
      c.fire (offlineSystem false) e = some c' ∧
        stateView c = some .review ∧ stateView c' = some .pending ∧
          ReviewsKept ops e c.world.store c'.world.store := by
  have hrun : ((sampleOffline.runChecked (offlineSystem false)
      (comesInTime (rolesOf OfflineOp.sync sampleResolved)) sampleResolved).bind fun c =>
        if comesInTime (rolesOf OfflineOp.sync sampleResolved) c (.commit 3) then
          (c.fire (offlineSystem false) (.commit 3)).map fun c' => (stateView c, stateView c')
        else none) = some (some .review, some .pending) := by
    decide +kernel
  obtain ⟨c, hc, hview⟩ := Option.bind_eq_some_iff.mp hrun
  split at hview
  next hcheck =>
    obtain ⟨c', hfire, hview⟩ := Option.map_eq_some_iff.mp hview
    obtain ⟨hbefore, hafter⟩ := Prod.mk.inj hview
    have hreach := ReachesAs.of_events (fun _ _ => timely_of_comesInTime) rfl
      OfflineOp.sync hc
    exact ⟨_, c, c', .commit 3, hreach, hfire, hbefore, hafter, reviews_kept sampleOffline_start hreach
      (timely_of_comesInTime hcheck) (by simp [Event.spawned]) hfire⟩
  next => simp at hview

end MailHub.Offline
