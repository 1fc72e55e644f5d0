import MailHub.Offline.Contents

/-!
# What a replayed send waits for

A pass goes on to the send of a draft whatever became of the saves before it: one that was left for
the next pass, parked in review or failed does not hold it. Its files do: the replay of a send
reads the records of the draft's uploads and stops at one that the service has not acknowledged.
-/

namespace MailHub.Offline

open Relational Interleaving MailHub OfflineStore Ordering

variable {fails : Bool} {i : ℕ} {d y : Uuid} {s s' : Device} {o o' : Journal}
  {w w' : World offlineSignature Journal} {actions actions' uploads uploads' : List Uuid}

/-! ## What is settled -/

/-- Every save of a draft that was queued before an action is settled, and every file. -/
structure Cleared (d y : Uuid) (s : Device) (actions uploads : List Uuid) : Prop where
  saves : ∀ e ∈ s.enqueued, e.payload.saves d = true → Precedes s.queuedIds e.localId y →
    e.localId ∈ actions
  files : ∀ e ∈ s.enqueued, ∀ f ∈ s.filed, f.draftId = d → e.payload = .upload f.localId →
    Precedes s.queuedIds e.localId y → f.localId ∈ uploads

/-- What was queued before something old is old. -/
theorem Frozen.queued_before (hs' : Frozen s') (hgrow : s.enqueued <+: s'.enqueued)
    (hy : y ∈ s.queuedIds) {e : QueuedAction} (he : e ∈ s'.enqueued)
    (hbefore : Precedes s'.queuedIds e.localId y) :
    e ∈ s.enqueued ∧ Precedes s.queuedIds e.localId y := by
  obtain ⟨new, hnew⟩ := hgrow
  have hids : s'.queuedIds = s.queuedIds ++ new.map (·.localId) := by
    simp [Device.queuedIds, ← hnew]
  have hold : Precedes s.queuedIds e.localId y := by
    refine Precedes.of_append (m := new.map (·.localId)) (hids ▸ hbefore) ?_ hy
    rw [← hids]
    exact hs'.nodup
  obtain ⟨e₀, he₀, hid⟩ := List.mem_map.mp hold.left_mem
  have hsame : e₀ = e := hs'.unique (hnew ▸ List.mem_append_left _ he₀) he hid
  exact ⟨hsame ▸ he₀, hold⟩

/-- What is settled stays so: later actions and files come behind. -/
theorem Cleared.grow (h : Cleared d y s actions uploads) (hs : Filing s) (hs' : Frozen s')
    (hf' : Filing s') (hqueue : s.enqueued <+: s'.enqueued) (hfiled : s.filed <+: s'.filed)
    (hy : y ∈ s.queuedIds) (hactions : actions ⊆ actions') (huploads : uploads ⊆ uploads') :
    Cleared d y s' actions' uploads' := by
  refine ⟨fun e he hsaves hbefore => ?_, fun e he f hf hd hpayload hbefore => ?_⟩
  · obtain ⟨hold, hbefore⟩ := hs'.queued_before hqueue hy he hbefore
    exact hactions (h.saves e hold hsaves hbefore)
  · obtain ⟨hold, hbefore⟩ := hs'.queued_before hqueue hy he hbefore
    obtain ⟨f₀, hf₀, hid⟩ := List.mem_map.mp (hs.named e hold _ hpayload)
    have hsame : f₀ = f := List.inj_on_of_nodup_map hf'.nodup (hfiled.subset hf₀) hf hid
    subst hsame
    exact huploads (h.files e hold f₀ hf₀ hd hpayload hbefore)

/-! ## What a run keeps -/

/-- What the pass replays is queued, and a send whose files are ready is cleared. -/
def Pass.SendsCleared (s : Device) (actions uploads : List Uuid) (p : Pass) : Prop :=
  ∀ a, p.attempt = some a → a.queued.localId ∈ s.queuedIds ∧ (a.filesReady = true →
    ∀ d key base, a.queued.payload = .send d key base →
      Cleared d a.queued.localId s actions uploads)

/-- What is true of the sends throughout a run. -/
structure SendsKept (w : World offlineSignature Journal) : Prop where
  /-- An action leaves the queue only when it is synced or the owner discards it. -/
  queue : ∀ e ∈ w.store.enqueued, e.localId ∈ w.outside.synced ++ w.outside.discarded ∨
    ∃ a ∈ w.store.queue, a.localId = e.localId
  /-- A file leaves the device only when it is acknowledged or the owner discards it. -/
  files : ∀ f ∈ w.store.filed, f.localId ∈ w.outside.acknowledged ++ w.outside.dropped ∨
    ∃ u ∈ w.store.uploads, u.localId = f.localId ∧ u.draftId = f.draftId
  pass : w.outside.EveryPass (Pass.SendsCleared w.store
    (w.outside.synced ++ w.outside.discarded) (w.outside.acknowledged ++ w.outside.dropped))
  sends : ∀ r ∈ w.outside.sends, r.localId ∈ w.store.queuedIds ∧
    Cleared r.draftId r.localId w.store r.settledActions r.settledUploads

/-- When the replay of a send finds its files acknowledged, no save of the draft that was queued
before the send is left in the queue unsynced. -/
def SendsBehind (i : ℕ) (tag : Option StoreTag) (w : World offlineSignature Journal) : Prop :=
  match tag with
  | some (.files draftId) => ∀ a, w.outside.attemptOf i = some a →
      (∀ u ∈ uploadsOf draftId w.store, u.serverId ≠ none) →
        ∀ b ∈ w.store.queue, b.payload.saves draftId = true →
          Precedes w.store.queuedIds b.localId a.queued.localId → b.state = .synced
  | _ => True

/-- The runs in which no send overtakes a save. -/
def waiting : Policy offlineSignature Journal :=
  ⟨fun i tag w _ => SendsBehind i tag w, fun _ _ _ _ => True⟩

/-! ## Statements -/

/-- What a statement queues has a row. -/
theorem Write.exec_enqueued {wr : Write} (h : wr.exec s = .ok s') {e : QueuedAction}
    (he : e ∈ s'.enqueued) : e ∈ s.enqueued ∨ ∃ a ∈ s'.queue, a.localId = e.localId := by
  have hadd : ∀ {s₁ : Device} {a : QueuedAction}, s₁.addAction a = .ok s' →
      s₁.enqueued = s.enqueued → e ∈ s.enqueued ∨ ∃ a ∈ s'.queue, a.localId = e.localId := by
    intro s₁ a hb henqueued
    unfold Device.addAction at hb
    split at hb
    · cases hb
    · obtain rfl := Except.ok.inj hb
      rcases List.mem_append.mp he with hold | hnew
      · exact .inl (henqueued ▸ hold)
      · obtain rfl := List.mem_singleton.mp hnew
        exact .inr ⟨e, Table.mem_put.mpr (.inr rfl), rfl⟩
  cases wr with
  | enqueue action => exact hadd h rfl
  | putPendingUploadWithAction upload action =>
      simp only [Write.exec, bind_eq_ok] at h
      obtain ⟨s₁, hup, hb⟩ := h
      unfold Device.addUpload at hup
      split at hup
      · cases hup
      · obtain rfl := Except.ok.inj hup
        exact hadd hb rfl
  | _ =>
      obtain rfl := Except.ok.inj h
      exact .inl he

/-- A row stays in the queue unless it is deleted or pruned. -/
theorem Write.exec_queue {wr : Write} (h : wr.exec s = .ok s') {a : QueuedAction}
    (ha : a ∈ s.queue) : (∃ a' ∈ s'.queue, a'.localId = a.localId) ∨
      wr = .deleteAction a.localId ∨ ∃ ids, wr = .pruneActions ids ∧ a.localId ∈ ids := by
  have hadd : ∀ {s₁ : Device} {b : QueuedAction}, s₁.addAction b = .ok s' → s₁.queue = s.queue →
      ∃ a' ∈ s'.queue, a'.localId = a.localId := by
    intro s₁ b hb hqueue
    unfold Device.addAction at hb
    split at hb
    · cases hb
    · obtain rfl := Except.ok.inj hb
      by_cases hid : a.localId = b.localId
      · exact ⟨b, Table.mem_put.mpr (.inr rfl), hid.symm⟩
      · exact ⟨a, Table.mem_put.mpr (.inl ⟨hqueue ▸ ha, hid⟩), rfl⟩
  cases wr with
  | enqueue action => exact .inl (hadd h rfl)
  | putPendingUploadWithAction upload action =>
      simp only [Write.exec, bind_eq_ok] at h
      obtain ⟨s₁, hup, hb⟩ := h
      unfold Device.addUpload at hup
      split at hup
      · cases hup
      · obtain rfl := Except.ok.inj hup
        exact .inl (hadd hb rfl)
  | updateAction localId patch =>
      obtain rfl := Except.ok.inj h
      refine .inl ⟨_, List.mem_map.mpr ⟨a, ha, rfl⟩, ?_⟩
      split <;> rfl
  | deleteAction localId =>
      obtain rfl := Except.ok.inj h
      by_cases hid : a.localId = localId
      · exact .inr (.inl (by rw [hid]))
      · exact .inl ⟨a, Table.mem_delete.mpr ⟨ha, by simpa using hid⟩, rfl⟩
  | pruneActions ids =>
      obtain rfl := Except.ok.inj h
      by_cases hid : a.localId ∈ ids
      · exact .inr (.inr ⟨ids, rfl, hid⟩)
      · exact .inl ⟨a, Table.mem_delete.mpr ⟨ha, by simpa using hid⟩, rfl⟩
  | _ =>
      obtain rfl := Except.ok.inj h
      exact .inl ⟨a, ha, rfl⟩

/-- What a statement files has a row. -/
theorem Write.exec_filed {wr : Write} (h : wr.exec s = .ok s') {f : LocalUpload}
    (hf : f ∈ s'.filed) : f ∈ s.filed ∨ f ∈ s'.uploads := by
  cases wr with
  | enqueue action =>
      obtain ⟨-, hfiled, -⟩ := addAction_uploads h
      exact .inl (hfiled ▸ hf)
  | putPendingUploadWithAction upload action =>
      obtain ⟨-, huploads, hfiled, -, -⟩ := putPending_ok h
      rw [hfiled] at hf
      rcases List.mem_append.mp hf with hold | hnew
      · exact .inl hold
      · obtain rfl := List.mem_singleton.mp hnew
        exact .inr (huploads ▸ Table.mem_put.mpr (.inr rfl))
  | _ =>
      obtain rfl := Except.ok.inj h
      exact .inl hf

/-- The record of a file stays unless it is deleted or pruned. -/
theorem Write.exec_uploads {wr : Write} (hs : Filing s) (h : wr.exec s = .ok s')
    {u : LocalUpload} (hu : u ∈ s.uploads) :
    (∃ u' ∈ s'.uploads, u'.localId = u.localId ∧ u'.draftId = u.draftId) ∨
      wr = .deleteUpload u.localId ∨ ∃ ids, wr = .pruneUploads ids ∧ u.localId ∈ ids := by
  cases wr with
  | enqueue action =>
      obtain ⟨huploads, -, -⟩ := addAction_uploads h
      exact .inl ⟨u, huploads ▸ hu, rfl, rfl⟩
  | putPendingUploadWithAction upload action =>
      obtain ⟨hfresh, huploads, -, -, -⟩ := putPending_ok h
      have hid : u.localId ≠ upload.localId := by
        intro hid
        obtain ⟨f, hf, hfid, -⟩ := hs.uploads u hu
        exact hfresh (List.mem_map.mpr ⟨f, hf, hfid.trans hid⟩)
      exact .inl ⟨u, huploads ▸ Table.mem_put.mpr (.inl ⟨hu, hid⟩), rfl, rfl⟩
  | updateUpload localId patch =>
      obtain rfl := Except.ok.inj h
      refine .inl ⟨_, List.mem_map.mpr ⟨u, hu, rfl⟩, ?_⟩
      split <;> exact ⟨rfl, rfl⟩
  | deleteUpload localId =>
      obtain rfl := Except.ok.inj h
      by_cases hid : u.localId = localId
      · exact .inr (.inl (by rw [hid]))
      · exact .inl ⟨u, Table.mem_delete.mpr ⟨hu, by simpa using hid⟩, rfl, rfl⟩
  | pruneUploads ids =>
      obtain rfl := Except.ok.inj h
      by_cases hid : u.localId ∈ ids
      · exact .inr (.inr ⟨ids, rfl, hid⟩)
      · exact .inl ⟨u, Table.mem_delete.mpr ⟨hu, by simpa using hid⟩, rfl, rfl⟩
  | _ =>
      obtain rfl := Except.ok.inj h
      exact .inl ⟨u, hu, rfl, rfl⟩

theorem mem_uploadsOf {u : LocalUpload} :
    u ∈ uploadsOf d s ↔ u ∈ s.uploads ∧ u.draftId = d := by
  simp [uploadsOf]

/-- What is settled is settled for good. -/
theorem Journal.observe_discards (i : ℕ) (tag : Option StoreTag) (s : Device) (o : Journal) :
    o.discarded <+: (o.observe i tag s).discarded ∧ o.dropped <+: (o.observe i tag s).dropped := by
  have hsame : o.discarded <+: o.discarded ∧ o.dropped <+: o.dropped :=
    ⟨List.prefix_refl _, List.prefix_refl _⟩
  cases tag with
  | none => exact hsame
  | some tag =>
      cases tag with
      | write wr =>
          cases wr with
          | updateAction localId patch =>
              simp only [Journal.observe, Journal.afterWrite]
              split
              · exact hsame
              · split <;> exact hsame
          | putPendingUploadWithAction upload action | updateUpload localId patch =>
              simp only [Journal.observe, Journal.afterWrite]
              split <;> exact hsame
          | deleteAction localId => exact ⟨List.prefix_append _ _, List.prefix_refl _⟩
          | deleteUpload localId => exact ⟨List.prefix_refl _, List.prefix_append _ _⟩
          | _ => exact hsame
      | edit e =>
          obtain ⟨learnt, hlearnt⟩ := Journal.afterEdit_eq i s o e
          simp only [Journal.observe]
          rw [hlearnt]
          exact hsame
      | _ => exact hsame

/-- A described commit keeps what is on record. -/
theorem Described.recorded {tag : Option StoreTag} (hw : Recorded w)
    (h : Described i tag w ⟨s, w.outside.observe i tag w.store⟩) :
    Recorded ⟨s, w.outside.observe i tag w.store⟩ ∧
      Grows w ⟨s, w.outside.observe i tag w.store⟩ := by
  have hquiet : s.queue = w.store.queue → s.uploads = w.store.uploads →
      s.enqueued = w.store.enqueued → s.filed = w.store.filed →
      Recorded ⟨s, w.outside.observe i tag w.store⟩ ∧
        Grows w ⟨s, w.outside.observe i tag w.store⟩ := by
    intro hqueue huploads henqueued hfiled
    have hkeeps : (offlineDiscipline false).Keeps i w ⟨s, w.outside.observe i tag w.store⟩ :=
      keeps_quiet hw hqueue huploads henqueued hfiled
    exact ⟨hkeeps.inv, (hkeeps.rely (i + 1) (Nat.succ_ne_self i)).2⟩
  have hsame : s = w.store → Recorded ⟨s, w.outside.observe i tag w.store⟩ ∧
      Grows w ⟨s, w.outside.observe i tag w.store⟩ := by
    rintro rfl
    exact hquiet rfl rfl rfl rfl
  cases tag with
  | none => exact hsame h
  | some tag =>
      cases tag with
      | write wr => exact Recorded.write false hw h.2 h.1
      | stop localId =>
          obtain ⟨hrecorded, hgrow⟩ :=
            Recorded.write false hw ((plain_restored localId).warranted (i := i) w) h.1
          have hunsettled : w.outside.afterWrite i (.updateAction localId restoredPatch) =
              w.outside := by
            simp [Journal.afterWrite, restoredPatch]
          have hrow : Recorded ⟨s, w.outside⟩ := by
            have hcommitted : Recorded
                ⟨s, w.outside.afterWrite i (.updateAction localId restoredPatch)⟩ := hrecorded
            rwa [hunsettled] at hcommitted
          have hstopped : w.outside.SameSettled
              (w.outside.observe i (some (.stop localId)) w.store) :=
            ⟨rfl, rfl, rfl, rfl, List.prefix_refl _⟩
          exact ⟨hrow.settled hstopped, hgrow.enqueued, hgrow.filed, List.prefix_refl _,
            List.prefix_refl _, List.prefix_refl _⟩
      | recheck localId => exact hsame h.1
      | files draftId => exact hsame h.1
      | edit e =>
          obtain ⟨editors, heq⟩ := h
          have hstore : s = { w.store with editors } := heq
          subst hstore
          exact hquiet rfl rfl rfl rfl
      | _ => exact hsame h

/-- Between two moments, what is gone from the device is settled. -/
structure GoneSettled (s s' : Device) (actions uploads : List Uuid) : Prop where
  enqueued : ∀ e ∈ s'.enqueued, e ∈ s.enqueued ∨ ∃ a ∈ s'.queue, a.localId = e.localId
  queue : ∀ a ∈ s.queue, (∃ a' ∈ s'.queue, a'.localId = a.localId) ∨ a.localId ∈ actions
  filed : ∀ f ∈ s'.filed, f ∈ s.filed ∨ f ∈ s'.uploads
  uploads : ∀ u ∈ s.uploads, (∃ u' ∈ s'.uploads, u'.localId = u.localId ∧
    u'.draftId = u.draftId) ∨ u.localId ∈ uploads

theorem GoneSettled.refl : GoneSettled s s actions uploads :=
  ⟨fun _ he => .inl he, fun a ha => .inl ⟨a, ha, rfl⟩, fun _ hf => .inl hf,
    fun u hu => .inl ⟨u, hu, rfl, rfl⟩⟩

/-- An action or a file that is gone after a described commit is settled. -/
theorem Described.goneSettled {tag : Option StoreTag} (hs : Filing w.store)
    (h : Described i tag w ⟨s, w.outside.observe i tag w.store⟩) :
    GoneSettled w.store s (w.outside.synced ++ (w.outside.observe i tag w.store).discarded)
      (w.outside.acknowledged ++ (w.outside.observe i tag w.store).dropped) := by
  have hsame : s = w.store → GoneSettled w.store s
      (w.outside.synced ++ (w.outside.observe i tag w.store).discarded)
      (w.outside.acknowledged ++ (w.outside.observe i tag w.store).dropped) := by
    rintro rfl
    exact .refl
  cases tag with
  | none => exact hsame h
  | some tag =>
      cases tag with
      | write wr =>
          obtain ⟨hexec, hwarrant⟩ := h
          refine ⟨fun e he => Write.exec_enqueued hexec he, fun a ha => ?_,
            fun f hf => Write.exec_filed hexec hf, fun u hu => ?_⟩
          · refine (Write.exec_queue hexec ha).imp_right ?_
            rintro (rfl | ⟨ids, rfl, hid⟩)
            · have hgone : a.localId ∈ w.outside.discarded ++ [a.localId] := by simp
              exact List.mem_append_right _ hgone
            · exact List.mem_append_left _ (hwarrant hid)
          · refine (Write.exec_uploads hs hexec hu).imp_right ?_
            rintro (rfl | ⟨ids, rfl, hid⟩)
            · have hgone : u.localId ∈ w.outside.dropped ++ [u.localId] := by simp
              exact List.mem_append_right _ hgone
            · exact List.mem_append_left _ (hwarrant hid)
      | stop localId =>
          have hexec := h.1
          refine ⟨fun e he => Write.exec_enqueued hexec he, fun a ha => ?_,
            fun f hf => Write.exec_filed hexec hf, fun u hu => ?_⟩
          · rcases Write.exec_queue hexec ha with hrow | heq | ⟨ids, heq, hid⟩
            · exact .inl hrow
            · cases heq
            · cases heq
          · rcases Write.exec_uploads hs hexec hu with hrow | heq | ⟨ids, heq, hid⟩
            · exact .inl hrow
            · cases heq
            · cases heq
      | recheck localId => exact hsame h.1
      | files draftId => exact hsame h.1
      | edit e =>
          obtain ⟨editors, heq⟩ := h
          have hstore : s = { w.store with editors } := heq
          subst hstore
          exact ⟨fun _ he => .inl he, fun a ha => .inl ⟨a, ha, rfl⟩, fun _ hf => .inl hf,
            fun u hu => .inl ⟨u, hu, rfl, rfl⟩⟩
      | _ => exact hsame h

/-! ## Steps -/

/-- What changes only the knowledge about an attempt other than its files keeps its send cleared. -/
theorem Pass.SendsCleared.map {p : Pass} (h : p.SendsCleared s actions uploads)
    {f : Attempt → Attempt} (hf : ∀ a, (f a).queued = a.queued ∧ (f a).filesReady = a.filesReady) :
    Pass.SendsCleared s actions uploads { p with attempt := p.attempt.map f } := by
  intro a' ha'
  obtain ⟨a, ha, rfl⟩ := Option.map_eq_some_iff.mp ha'
  rw [(hf a).1, (hf a).2]
  exact h a ha

/-- The replay of a send that finds its files acknowledged, and no save before it, is cleared. -/
theorem SendsKept.ready {a : Attempt} (hs : Recorded w) (h : SendsKept w)
    (ha : w.outside.attemptOf i = some a) (hP : SendsBehind i (some (.files d)) w)
    (hready : ∀ u ∈ uploadsOf d w.store, u.serverId ≠ none) :
    Cleared d a.queued.localId w.store (w.outside.synced ++ w.outside.discarded)
      (w.outside.acknowledged ++ w.outside.dropped) := by
  refine ⟨fun e he hsaves hbefore => ?_, fun e he f hf hd hpayload hbefore => ?_⟩
  · rcases h.queue e he with hsettled | ⟨b, hb, hid⟩
    · exact hsettled
    · obtain ⟨e', he', hsame⟩ := hs.frozen.queued b hb
      obtain rfl : e' = e := hs.frozen.unique he' he (hsame.localId.trans hid)
      have hrow : b.payload.saves d = true := by
        rw [← QueuedPayload.saves_work, ← hsame.work, QueuedPayload.saves_work]
        exact hsaves
      have hsynced := hs.synced b hb (hP a ha hready b hb hrow (hid ▸ hbefore))
      exact List.mem_append_left _ (hid ▸ hsynced)
  · rcases h.files f hf with hsettled | ⟨u, hu, hid, hdraft⟩
    · exact hsettled
    · have hserver := hready u (mem_uploadsOf.mpr ⟨hu, hdraft.trans hd⟩)
      exact List.mem_append_left _ (hid ▸ hs.acknowledged u hu (.inl hserver))

/-- A commit that meets the condition. -/
theorem SendsKept.commit {tag : Option StoreTag} (hs : Recorded w) (h : SendsKept w)
    (hP : SendsBehind i tag w) (hD : Described i tag w ⟨s, w.outside.observe i tag w.store⟩) :
    SendsKept ⟨s, w.outside.observe i tag w.store⟩ := by
  obtain ⟨hs', hgrow⟩ := hD.recorded hs
  obtain ⟨hdiscarded, hdropped⟩ := Journal.observe_discards i tag w.store w.outside
  have hsettles := hD.goneSettled hs.filing
  have hactions : w.outside.synced ++ w.outside.discarded ⊆
      (w.outside.observe i tag w.store).synced ++ (w.outside.observe i tag w.store).discarded :=
    List.append_subset.mpr ⟨fun x hx => List.mem_append_left _ (hgrow.synced.subset hx),
      fun x hx => List.mem_append_right _ (hdiscarded.subset hx)⟩
  have hfiles : w.outside.acknowledged ++ w.outside.dropped ⊆
      (w.outside.observe i tag w.store).acknowledged ++
        (w.outside.observe i tag w.store).dropped :=
    List.append_subset.mpr ⟨fun x hx => List.mem_append_left _ (hgrow.acknowledged.subset hx),
      fun x hx => List.mem_append_right _ (hdropped.subset hx)⟩
  have hids : ∀ x ∈ w.store.queuedIds, x ∈ s.queuedIds := fun x hx =>
    (hgrow.enqueued.map _).subset hx
  have hcleared : ∀ {d y actions uploads actions' uploads'},
      Cleared d y w.store actions uploads → y ∈ w.store.queuedIds → actions ⊆ actions' →
        uploads ⊆ uploads' → Cleared d y s actions' uploads' :=
    fun hold hy hactions huploads => hold.grow hs.filing hs'.frozen hs'.filing hgrow.enqueued
      hgrow.filed hy hactions huploads
  refine ⟨fun e he => ?_, fun f hf => ?_, ?_, fun r hr => ?_⟩
  · rcases hsettles.enqueued e he with hold | hrow
    · rcases h.queue e hold with hsettled | ⟨a, ha, hid⟩
      · exact .inl (hactions hsettled)
      · rcases hsettles.queue a ha with ⟨a', ha', hsame⟩ | hgone
        · exact .inr ⟨a', ha', hsame.trans hid⟩
        · rw [hid] at hgone
          exact .inl ((List.mem_append.mp hgone).elim
            (fun hsynced => List.mem_append_left _ (hgrow.synced.subset hsynced))
            fun hdiscarded => List.mem_append_right _ hdiscarded)
    · exact .inr hrow
  · rcases hsettles.filed f hf with hold | hrow
    · rcases h.files f hold with hsettled | ⟨u, hu, hid, hdraft⟩
      · exact .inl (hfiles hsettled)
      · rcases hsettles.uploads u hu with ⟨u', hu', hsame, hsame'⟩ | hgone
        · exact .inr ⟨u', hu', hsame.trans hid, hsame'.trans hdraft⟩
        · rw [hid] at hgone
          exact .inl ((List.mem_append.mp hgone).elim
            (fun hknown => List.mem_append_left _ (hgrow.acknowledged.subset hknown))
            fun hdropped => List.mem_append_right _ hdropped)
    · exact .inr ⟨f, hrow, rfl, rfl⟩
  · have hlater : ∀ p : Pass, p.SendsCleared w.store (w.outside.synced ++ w.outside.discarded)
        (w.outside.acknowledged ++ w.outside.dropped) → p.SendsCleared s
          ((w.outside.observe i tag w.store).synced ++
            (w.outside.observe i tag w.store).discarded)
          ((w.outside.observe i tag w.store).acknowledged ++
            (w.outside.observe i tag w.store).dropped) := by
      intro p hp a ha
      obtain ⟨hid, hready⟩ := hp a ha
      exact ⟨hids _ hid, fun hfilesReady d key base hpayload =>
        hcleared (hready hfilesReady d key base hpayload) hid hactions hfiles⟩
    refine h.pass.onPass (fun p _ _ hp => hlater p hp) (fun p hi hp hkept => ?_)
      Journal.observe_pass
    have hkept' := hlater p hkept
    unfold Journal.passAfter
    split
    · split
      · exact hkept'.map fun _ => ⟨rfl, rfl⟩
      · exact hkept'
    · exact fun a ha => by cases ha
    · exact hkept'
    · exact hkept'
    next localId =>
      intro a ha
      obtain ⟨q, hq, rfl⟩ := Option.map_eq_some_iff.mp ha
      obtain ⟨hq, -⟩ := Option.filter_eq_some_iff.mp hq
      exact ⟨hids _ (hs.frozen.mem_queuedIds (Table.mem_of_find? hq)),
        fun hready => by cases hready⟩
    · exact hkept'.map fun _ => ⟨rfl, rfl⟩
    next draftId =>
      obtain ⟨-, a₀, key₀, base₀, ha₀, hpayload₀⟩ := hD
      intro a' ha'
      obtain ⟨a, ha, rfl⟩ := Option.map_eq_some_iff.mp ha'
      have hsame : a₀ = a := Option.some.inj
        (ha₀.symm.trans (Journal.attemptOf_eq_some.mpr ⟨p, hp, hi, ha⟩))
      subst hsame
      refine ⟨(hkept' a₀ ha).1, fun hready d key base hpayload => ?_⟩
      obtain ⟨rfl, -, -⟩ := QueuedPayload.send.inj (hpayload₀.symm.trans hpayload)
      have hserver : ∀ u ∈ uploadsOf draftId w.store, u.serverId ≠ none := fun u hu =>
        Option.isSome_iff_ne_none.mp (List.all_eq_true.mp hready u hu)
      have hnow := h.ready hs ha₀ hP hserver
      exact hcleared hnow (hkept a₀ ha).1 hactions hfiles
    · exact hkept'.map fun _ => ⟨rfl, rfl⟩
    · exact hkept'
  · obtain ⟨_, _, _, _, _, _, heq⟩ := Journal.observe_eq i tag w.store w.outside
    have hold : r ∈ w.outside.sends := by
      have hmem : r ∈ (w.outside.observe i tag w.store).sends := hr
      rw [heq] at hmem
      exact hmem
    obtain ⟨hid, hsent⟩ := h.sends r hold
    exact ⟨hids _ hid, hcleared hsent hid (List.Subset.refl _) (List.Subset.refl _)⟩

/-- Only the replay of a send adds one to the sends. -/
theorem respond_sends {c : OfflineCall} {r : Except OfflineFailure c.Answer}
    (h : Journal.respond i c r o = some o') : o'.sends = o.sends ∨
      ∃ g d key base, c = .postSend false g d key base ∧ ∀ a, o.attemptOf i = some a →
        o'.sends = o.sends ++ [⟨a.queued.localId, d, o.synced ++ o.discarded,
          o.acknowledged ++ o.dropped⟩] := by
  have hrequested : ∀ g, (o.requested i g).sends = o.sends := by
    intro g
    unfold Journal.requested
    split <;> rfl
  cases c with
  | now | generateId | offline | sessionGeneration =>
      rw [(Journal.total_eq h).1]
      exact .inl rfl
  | acquirePass =>
      obtain ⟨-, htotal⟩ := Option.ite_none_right_eq_some.mp h
      rw [(Journal.total_eq htotal).1]
      exact .inl rfl
  | releasePass =>
      rw [(Journal.total_eq h).1]
      exact .inl rfl
  | patchDraft editor g d input =>
      refine .inl ((Journal.answerPatch_records h).sends.trans ?_)
      split
      · exact hrequested g
      · rfl
  | postUpload g upload | postAction g body =>
      rw [Journal.plain_eq h]
      exact .inl (hrequested g)
  | getAttachments d =>
      rw [Journal.plain_eq h]
      exact .inl rfl
  | postAttachment editor g d uploadId =>
      rw [Journal.plain_eq h]
      refine .inl ?_
      split
      · rfl
      · exact hrequested g
  | postSend editor g d key base =>
      cases editor with
      | true => exact .inl (Journal.answerSend_records h).sends
      | false =>
          refine .inr ⟨g, d, key, base, rfl, fun a ha => ?_⟩
          refine (Journal.answerSend_records h).sends.trans ?_
          have ha' : (o.requested i g).attemptOf i = some a := by
            rw [Journal.attemptOf_congr Journal.requested_pass, ha]
          have hsettled : o.SameSettled (o.requested i g) := Journal.requested_settled
          have hsent : ((o.requested i g).sent i d).sends = (o.requested i g).sends ++
              [⟨a.queued.localId, d, (o.requested i g).synced ++ (o.requested i g).discarded,
                (o.requested i g).acknowledged ++ (o.requested i g).dropped⟩] := by
            unfold Journal.sent
            rw [ha']
          refine hsent.trans ?_
          rw [hrequested, hsettled.synced, hsettled.discarded, hsettled.acknowledged,
            hsettled.dropped]
  | readDraft d =>
      cases r with
      | ok record =>
          rw [← Option.some.inj (Option.ite_none_right_eq_some.mp h).2]
          exact .inl rfl
      | error e =>
          rw [← Option.some.inj (Option.ite_none_right_eq_some.mp h).2]
          exact .inl rfl

/-- An answer to a request. -/
theorem SendsKept.call {c : OfflineCall} {r : Except OfflineFailure c.Answer} (h : SendsKept w)
    (hasked : Asked i c w) (hresp : Journal.respond i c r w.outside = some o') :
    SendsKept ⟨w.store, o'⟩ := by
  have hsettled := Journal.respond_settled hresp
  refine ⟨?_, ?_, ?_, fun r' hr' => ?_⟩
  · show ∀ e ∈ w.store.enqueued, e.localId ∈ o'.synced ++ o'.discarded ∨ _
    rw [hsettled.synced, hsettled.discarded]
    exact h.queue
  · show ∀ f ∈ w.store.filed, f.localId ∈ o'.acknowledged ++ o'.dropped ∨ _
    rw [hsettled.acknowledged, hsettled.dropped]
    exact h.files
  · show o'.EveryPass (Pass.SendsCleared w.store (o'.synced ++ o'.discarded)
      (o'.acknowledged ++ o'.dropped))
    rw [hsettled.synced, hsettled.discarded, hsettled.acknowledged, hsettled.dropped]
    exact h.pass.answered (Journal.respond_pass hresp) (fun a ha => by cases ha)
      fun p record _ _ hp => hp.map fun _ => ⟨rfl, rfl⟩
  · rcases respond_sends hresp with hsame | ⟨g, d, key, base, rfl, hsends⟩
    · exact h.sends r' (hsame ▸ hr')
    · obtain ⟨a, ha, -, hpayload, hready⟩ := hasked
      have hmem : r' ∈ o'.sends := hr'
      rw [hsends a ha] at hmem
      rcases List.mem_append.mp hmem with hold | hnew
      · exact h.sends r' hold
      · obtain rfl := List.mem_singleton.mp hnew
        obtain ⟨p, hp, -, hpa⟩ := Journal.attemptOf_eq_some.mp ha
        obtain ⟨hid, hcleared⟩ := h.pass p hp a hpa
        exact ⟨hid, hcleared hready d key base hpayload⟩

theorem ServerStep.advance_sends {t : ServerStep} (h : t.advance o = some o') :
    o'.sends = o.sends := by
  cases t with
  | edit draftId input now =>
      simp only [ServerStep.advance] at h
      split at h
      · obtain rfl := Option.some.inj h
        rfl
      · cases h
  | elsewhere f hf =>
      obtain rfl := Option.some.inj h
      rfl

/-- Every step that meets the condition keeps the sends cleared. -/
theorem sendsKept : Kept (offlineDiscipline fails) waiting SendsKept where
  commit _ _ _ _ hs h hP hD := h.commit hs hP hD
  call _ _ _ _ _ _ h hresp _ hasked := h.call hasked hresp
  tick w t o h ht := by
    have hsettled := ServerStep.advance_settled ht
    have hsends := ServerStep.advance_sends ht
    refine ⟨?_, ?_, ?_, ?_⟩
    · show ∀ e ∈ w.store.enqueued, e.localId ∈ o.synced ++ o.discarded ∨ _
      rw [hsettled.synced, hsettled.discarded]
      exact h.queue
    · show ∀ f ∈ w.store.filed, f.localId ∈ o.acknowledged ++ o.dropped ∨ _
      rw [hsettled.acknowledged, hsettled.dropped]
      exact h.files
    · show o.EveryPass (Pass.SendsCleared w.store (o.synced ++ o.discarded)
        (o.acknowledged ++ o.dropped))
      rw [hsettled.synced, hsettled.discarded, hsettled.acknowledged, hsettled.dropped]
      exact h.pass.congr (ServerStep.advance_pass ht)
    · show ∀ r ∈ o.sends, _
      rw [hsends]
      exact h.sends
  retire _ _ h := ⟨h.queue, h.files, h.pass.retire, h.sends⟩

/-- In a run in which no send overtakes a save, a send reaches the service only when every save
and every file of its draft that was queued before it is settled. -/
theorem sends_wait {c₀ c : Config offlineSignature Journal} (h₀ : OfflineStart c₀)
    (h : Reaches (offlineSystem fails) waiting c₀ c) : ∀ r ∈ c.world.outside.sends,
      Cleared r.draftId r.localId c.world.store r.settledActions r.settledUploads := by
  have hkept : SendsKept c.world := by
    refine h₀.kept sendsKept ?_ h
    obtain ⟨server, hserver⟩ := h₀.outside
    refine ⟨?_, ?_, ?_, ?_⟩ <;>
      simp [hserver, h₀.store, Journal.start, Device.empty, Journal.EveryPass]
  exact fun r hr => (hkept.sends r hr).2

/-! ## Samples -/

/-- An edit of draft 10 and then its send are queued, as actions 3 and 4. -/
def sampleSend : List (Event (offlineSystem false)) :=
  sampleGeneration 0 1 ++ sampleSave 1 3 5 1 "a" ++
    [.spawn (.enqueueSend 10 "key" 1), .commit 2, .commit 2, .answer 2 (sampleAnswer 4),
      .answer 2 (sampleAnswer 6), .commit 2]

/-- Worker `i` comes to a send, reads its files and asks the service. -/
def sampleSending (i : ℕ) : List (Event (offlineSystem false)) :=
  [.commit i, .commit i, .commit i, .commit i, .answer i (sampleAnswer 12)]

/-- What the samples show of the sends: their actions and what was settled, and everything that was
queued. -/
def sendView (c : Config offlineSignature Journal) :
    List (Uuid × Uuid × List Uuid) × List (Uuid × Bool) :=
  (c.world.outside.sends.map fun r => (r.localId, r.draftId, r.settledActions),
    c.world.store.enqueued.map fun e => (e.localId, e.payload.saves 10))

/-- The service is busy when the edit arrives, and the send reaches it in the same pass. -/
theorem send_overtakes : ∃ c,
    sampleOffline.run (offlineSystem false)
      (sampleSend ++ samplePass 3 ++ sampleReplay 3 sampleBusy ++ sampleSending 3) = some c ∧
    ∃ r ∈ c.world.outside.sends,
      ¬ Cleared r.draftId r.localId c.world.store r.settledActions r.settledUploads := by
  have h : (sampleOffline.run (offlineSystem false)
      (sampleSend ++ samplePass 3 ++ sampleReplay 3 sampleBusy ++ sampleSending 3)).map sendView =
        some ([(4, 10, [])], [(3, true), (4, false)]) := by decide +kernel
  obtain ⟨c, hrun, hview⟩ := Option.map_eq_some_iff.mp h
  have hsends := congrArg Prod.fst hview
  have hqueued := congrArg Prod.snd hview
  have hshown : ((4, 10, []) : Uuid × Uuid × List Uuid) ∈ (sendView c).1 := by
    rw [hsends]
    exact List.mem_singleton_self _
  have hsaved : ((3, true) : Uuid × Bool) ∈ (sendView c).2 := by
    rw [hqueued]
    exact List.mem_cons_self
  obtain ⟨r, hr, hrow⟩ := List.mem_map.mp hshown
  obtain ⟨e, he, hsave⟩ := List.mem_map.mp hsaved
  obtain ⟨hid, hdraft, hsettled⟩ : r.localId = 4 ∧ r.draftId = 10 ∧ r.settledActions = [] := by
    simpa using hrow
  obtain ⟨heid, hsaves⟩ : e.localId = 3 ∧ e.payload.saves 10 = true := by simpa using hsave
  have hids : c.world.store.queuedIds = [3, 4] := by
    simpa [Device.queuedIds, sendView, Function.comp_def] using congrArg (List.map Prod.fst) hqueued
  refine ⟨c, hrun, r, hr, fun hcleared => ?_⟩
  have hmem := hcleared.saves e he (hdraft ▸ hsaves) (by
    rw [hids, heid, hid]
    exact List.Sublist.refl _)
  rw [hsettled] at hmem
  cases hmem

/-- Whether a send that reads its files has no save of its draft in the queue unsynced. -/
def sendsWait (c : Config offlineSignature Journal) : Event (offlineSystem false) → Bool
  | .commit i =>
      match c.standsAt i with
      | some (.files draftId) => c.world.store.queue.rows.all fun b =>
          !b.payload.saves draftId || b.state == .synced
      | _ => true
  | _ => true

theorem waiting_of_sendsWait {c : Config offlineSignature Journal}
    {e : Event (offlineSystem false)} (h : sendsWait c e = true) :
    waiting.Meets (offlineSystem false) c e := by
  cases e with
  | commit i =>
      intro β tag f k b s hp _
      have hat : c.standsAt i = tag := by simp [Config.standsAt, hp]
      simp only [sendsWait, hat] at h
      cases tag with
      | none => trivial
      | some tag =>
          cases tag with
          | files draftId =>
              intro a _ _ b hb hsaves _
              simpa [hsaves] using List.all_eq_true.mp h b (Table.mem_iff.mp hb)
          | _ => trivial
  | answer i r => exact fun _ _ _ _ _ => trivial
  | spawn op | abort i e | stop i | tick t => trivial

/-- The edit is synced, and then the send reaches the service. -/
theorem sends_wait_sample : ∃ c,
    Reaches (offlineSystem false) waiting sampleOffline c ∧
      sendView c = ([(4, 10, [3])], [(3, true), (4, false)]) ∧
      ∀ r ∈ c.world.outside.sends,
        Cleared r.draftId r.localId c.world.store r.settledActions r.settledUploads := by
  have h : (sampleOffline.runChecked (offlineSystem false) sendsWait
      (sampleSend ++ samplePass 3 ++ sampleReplay 3 (sampleAnswer 7) ++ sampleSettle 3 1 ++
        sampleSending 3)).map sendView = some ([(4, 10, [3])], [(3, true), (4, false)]) := by
    decide +kernel
  obtain ⟨c, hrun, hview⟩ := Option.map_eq_some_iff.mp h
  have hreach := Reaches.of_runChecked (fun _ _ => waiting_of_sendsWait) hrun
  exact ⟨c, hreach, hview, sends_wait sampleOffline_start hreach⟩

end MailHub.Offline
