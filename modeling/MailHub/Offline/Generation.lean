import MailHub.Offline.Runs

/-!
# The generation of a replayed request

An action is stamped with the recovery generation under which it was queued or rebased, and a pass
compares the stamp that it listed with the generation that the device held when the pass began. The
header of a request is read from the store right before the request leaves, so it carries the
stamp only when no other generation arrived between the two.
-/

namespace MailHub.Offline

open Relational Interleaving MailHub OfflineStore

variable {fails : Bool} {i : ℕ} {o o' : Journal} {w w' : World offlineSignature Journal}

/-! ## The condition -/

/-- A pass reads an action again that still waits to leave: the generation of the device and the
stamp are the ones that the pass began with, or the action carries what the device holds by now. -/
def UpToDate (i : ℕ) (localId : Uuid) (w : World offlineSignature Journal) : Prop :=
  ∀ p queued, w.outside.passOf i = some p → w.store.queue.find? localId = some queued →
    queued.state = .pending →
      (w.store.serverGeneration = p.generation ∧ ∀ listed, p.todo.head? = some listed →
        listed.recoveryGeneration = queued.recoveryGeneration) ∨
      w.store.serverGeneration = some queued.recoveryGeneration

/-- No other generation arrived since the pass read the action again that it replays. -/
def Unmoved (i : ℕ) (w : World offlineSignature Journal) : Prop :=
  ∀ a, w.outside.attemptOf i = some a → w.store.serverGeneration = a.known

/-- A commit of worker `i` meets no generation that arrived in the middle of its replay. -/
def Settled (i : ℕ) (tag : Option StoreTag) (w : World offlineSignature Journal) : Prop :=
  match tag with
  | some (.recheck localId) => UpToDate i localId w
  | some .generationHeaders => Unmoved i w
  | _ => True

/-- The runs in which no generation arrives in the middle of a replay. -/
def settledGeneration : Policy offlineSignature Journal :=
  ⟨fun i tag w _ => Settled i tag w, fun _ _ _ _ => True⟩

/-! ## The invariant -/

/-- Every gated request of the replays so far carried the stamp of its action. -/
def RequestsStamped (o : Journal) : Prop :=
  ∀ r ∈ o.requests, r.2 = some r.1.recoveryGeneration

/-- A replay speaks for the generation of its action. -/
structure Attempt.Stamped (a : Attempt) : Prop where
  known : a.known = some a.queued.recoveryGeneration
  header : ∀ g, a.header = some g → g = some a.queued.recoveryGeneration

/-- What a pass replays is stamped. -/
def Pass.Stamped (p : Pass) : Prop := ∀ a, p.attempt = some a → a.Stamped

/-- What is true of the generations throughout a run. -/
structure GenerationKept (o : Journal) : Prop where
  requests : RequestsStamped o
  pass : o.EveryPass Pass.Stamped

theorem Pass.Stamped.map {p : Pass} {f : Attempt → Attempt} (hp : p.Stamped)
    (hf : ∀ a, a.Stamped → (f a).Stamped) :
    Pass.Stamped { p with attempt := p.attempt.map f } := by
  intro a' ha'
  obtain ⟨a, ha, rfl⟩ := Option.map_eq_some_iff.mp ha'
  exact hf a (hp a ha)

/-! ## Steps -/

/-- The action that a pass comes to carries the generation that the device holds. -/
theorem Pass.Stamped.recheck {localId : Uuid} {p : Pass} (hp : w.outside.pass = some p)
    (hi : p.worker = i) (hcomes : ComesTo i localId w.outside) (hdate : UpToDate i localId w) :
    (p.recheck localId w.store).Stamped := by
  have hpass : w.outside.passOf i = some p := Journal.passOf_eq_some.mpr ⟨hp, hi⟩
  intro a ha
  obtain ⟨queued, hq, rfl⟩ := Option.map_eq_some_iff.mp ha
  obtain ⟨hfind, hpending⟩ := Option.filter_eq_some_iff.mp hq
  refine ⟨?_, by simp [Attempt.fresh]⟩
  show w.store.serverGeneration = some queued.recoveryGeneration
  rcases hdate p queued hpass hfind (by simpa using hpending) with ⟨hsame, hstamp⟩ | hnow
  · obtain ⟨p', listed, rest, hp', htodo, -, hgeneration, -⟩ := hcomes
    obtain rfl : p = p' := Option.some.inj (hpass.symm.trans hp')
    rw [hsame, hgeneration, hstamp listed (by rw [htodo]; rfl)]
  · exact hnow

/-- A commit keeps what a pass replays stamped. -/
theorem GenerationKept.commit {tag : Option StoreTag} (h : GenerationKept w.outside)
    (hP : Settled i tag w) (hD : Described i tag w w') :
    GenerationKept (w.outside.observe i tag w.store) := by
  have hrequests : (w.outside.observe i tag w.store).requests = w.outside.requests := by
    obtain ⟨_, _, _, _, _, _, heq⟩ := Journal.observe_eq i tag w.store w.outside
    rw [heq]
  refine ⟨fun r hr => h.requests r (hrequests ▸ hr), ?_⟩
  refine h.pass.onPass (fun p _ _ hp => hp) (fun p hi hp hstamped => ?_) Journal.observe_pass
  unfold Journal.passAfter
  split
  · split
    · exact hstamped.map fun a ha => ⟨ha.known, ha.header⟩
    · exact hstamped
  · exact fun a ha => by simp at ha
  · exact hstamped
  · exact hstamped
  next localId => exact Pass.Stamped.recheck hp hi hD.2 hP
  next =>
    -- the header is read from the store, which still holds what the pass found
    intro a' ha'
    obtain ⟨a, ha, rfl⟩ := Option.map_eq_some_iff.mp ha'
    have hattempt : w.outside.attemptOf i = some a := by
      simp [Journal.attemptOf, Journal.passOf_eq_some.mpr ⟨hp, hi⟩, ha]
    refine ⟨(hstamped a ha).known, fun g hg => ?_⟩
    rw [← Option.some.inj hg, hP a hattempt, (hstamped a ha).known]
  · exact hstamped.map fun a ha => ⟨ha.known, ha.header⟩
  · exact hstamped.map fun a ha => ⟨ha.known, ha.header⟩
  · exact hstamped

/-- A request of a replay is recorded with the header that was read for it. -/
theorem Journal.respond_requests {c : OfflineCall} {r : Except OfflineFailure c.Answer}
    (hasked : Asked i c w) (h : Journal.respond i c r w.outside = some o') :
    o'.requests = w.outside.requests ∨ ∃ a g, w.outside.attemptOf i = some a ∧
      a.header = some g ∧ o'.requests = w.outside.requests ++ [(a.queued, g)] := by
  have hgated : ∀ g, (∃ a, w.outside.attemptOf i = some a ∧ a.header = some g) →
      o'.requests = (w.outside.requested i g).requests →
        ∃ a g, w.outside.attemptOf i = some a ∧ a.header = some g ∧
          o'.requests = w.outside.requests ++ [(a.queued, g)] := by
    rintro g ⟨a, ha, hg⟩ hrequests
    exact ⟨a, g, ha, hg, hrequests.trans (requested_requests ha)⟩
  cases c with
  | now | generateId | offline | sessionGeneration | releasePass =>
      obtain ⟨rfl, -⟩ := Journal.total_eq h
      exact .inl rfl
  | acquirePass =>
      obtain ⟨rfl, -⟩ := Journal.total_eq (Option.ite_none_right_eq_some.mp h).2
      exact .inl rfl
  | patchDraft editor g d input =>
      cases editor with
      | some editor =>
          have hanswer : w.outside.answerPatch i (some editor) d input r = some o' := h
          exact .inl (Journal.answerPatch_records hanswer).requests
      | none =>
          obtain ⟨a, -, -, ha, hg, -⟩ := hasked
          have hanswer : (w.outside.requested i g).answerPatch i none d input r = some o' := h
          exact .inr (hgated g ⟨a, ha, hg⟩ (Journal.answerPatch_records hanswer).requests)
  | getAttachments d =>
      obtain rfl := Journal.plain_eq h
      exact .inl rfl
  | postUpload g upload | postAction g body =>
      obtain rfl := Journal.plain_eq h
      exact .inr (hgated g hasked rfl)
  | postAttachment editor g d uploadId =>
      obtain rfl := Journal.plain_eq h
      cases editor with
      | true => exact .inl rfl
      | false => exact .inr (hgated g hasked rfl)
  | postSend editor g d key base =>
      have hrecords := (Journal.answerSend_records h).requests
      cases editor with
      | true => exact .inl hrecords
      | false =>
          obtain ⟨a, ha, hg, -⟩ := hasked
          exact .inr (hgated g ⟨a, ha, hg⟩ (hrecords.trans Journal.sent_requests))
  | readDraft d =>
      cases r with
      | ok record => rw [← Option.some.inj (Option.ite_none_right_eq_some.mp h).2]; exact .inl rfl
      | error e => rw [← Option.some.inj (Option.ite_none_right_eq_some.mp h).2]; exact .inl rfl

theorem GenerationKept.call {c : OfflineCall} {r : Except OfflineFailure c.Answer}
    (h : GenerationKept w.outside) (hasked : Asked i c w)
    (hresp : Journal.respond i c r w.outside = some o') : GenerationKept o' := by
  refine ⟨?_, h.pass.answered (Journal.respond_pass hresp) (fun a ha => by simp at ha)
    fun p record _ _ hp => hp.map fun a ha => ⟨ha.known, ha.header⟩⟩
  rcases Journal.respond_requests hasked hresp with hsame | ⟨a, g, ha, hg, happend⟩
  · rw [RequestsStamped, hsame]
    exact h.requests
  · rw [RequestsStamped, happend]
    intro q hq
    rcases List.mem_append.mp hq with hq | hq
    · exact h.requests q hq
    · obtain rfl := List.mem_singleton.mp hq
      obtain ⟨p, hp, ha⟩ := Option.bind_eq_some_iff.mp ha
      exact (h.pass p (Journal.passOf_eq_some.mp hp).1 a ha).header g hg

/-- No generation in the middle of a replay keeps every request stamped. -/
theorem generationKept :
    Kept (offlineDiscipline fails) settledGeneration fun w => GenerationKept w.outside where
  commit _ _ _ _ _ h hP hD := h.commit hP hD
  call _ _ _ _ _ _ h hresp _ hasked := h.call hasked hresp
  tick w t o h ht := by
    have hpass := h.pass.congr (ServerStep.advance_pass ht)
    cases t with
    | edit d input now =>
        simp only [offlineSystem, ServerStep.advance] at ht
        split at ht
        · obtain rfl := Option.some.inj ht
          exact ⟨h.requests, hpass⟩
        · cases ht
    | elsewhere f hf =>
        obtain rfl := Option.some.inj ht
        exact ⟨h.requests, hpass⟩
  retire w i h := ⟨h.requests, h.pass.retire⟩

theorem requests_stamped {c₀ c : Config offlineSignature Journal} (h₀ : OfflineStart c₀)
    (h : Reaches (offlineSystem fails) settledGeneration c₀ c) :
    RequestsStamped c.world.outside := by
  refine (h₀.kept generationKept ?_ h).requests
  obtain ⟨server, hserver⟩ := h₀.outside
  rw [hserver]
  exact ⟨by simp [RequestsStamped, Journal.start], fun p hp => by simp [Journal.start] at hp⟩

/-! ## Samples -/

/-- An edit is queued under generation 1, and a pass reads it again; then the device learns
generation 2, and the request leaves. -/
def sampleRestore : List (Event (offlineSystem false)) :=
  sampleGeneration 0 1 ++ sampleSave 1 3 5 1 "a" ++ samplePass 2 ++
    [.commit 2, .spawn (.observeGeneration (some 2)), .commit 3, .commit 3, .commit 2, .commit 2,
      .answer 2 (sampleAnswer 7)]

/-- The requests so far: the action, its stamp and the generation of the header. -/
def requestView (c : Config offlineSignature Journal) : List (Uuid × Uuid × Option Uuid) :=
  c.world.outside.requests.map fun r => (r.1.localId, r.1.recoveryGeneration, r.2)

/-- An edit stamped with generation 1 is sent under generation 2. -/
theorem request_restamped : ∃ c, sampleOffline.run (offlineSystem false) sampleRestore = some c ∧
    requestView c = [(3, 1, some 2)] ∧ ¬ RequestsStamped c.world.outside := by
  have h : (sampleOffline.run (offlineSystem false) sampleRestore).map requestView =
      some [(3, 1, some 2)] := by decide +kernel
  obtain ⟨c, hrun, hview⟩ := Option.map_eq_some_iff.mp h
  refine ⟨c, hrun, hview, fun hstamped => ?_⟩
  obtain ⟨r, hr, heq⟩ : ∃ r ∈ c.world.outside.requests,
      (r.1.localId, r.1.recoveryGeneration, r.2) = (3, 1, some 2) := by
    refine List.mem_map.mp ?_
    show _ ∈ requestView c
    simp [hview]
  simp only [Prod.mk.injEq] at heq
  have hsame := hstamped r hr
  rw [heq.2.1, heq.2.2] at hsame
  simp at hsame

/-- Whether an event keeps the generation of the device settled. -/
def keepsGeneration (c : Config offlineSignature Journal) :
    Event (offlineSystem false) → Bool
  | .commit i =>
      match c.standsAt i with
      | some (.recheck localId) => (c.world.store.queue.find? localId).all fun queued =>
          c.world.store.serverGeneration == some queued.recoveryGeneration
      | some .generationHeaders => (c.world.outside.attemptOf i).all fun a =>
          c.world.store.serverGeneration == a.known
      | _ => true
  | _ => true

theorem settledGeneration_of_keepsGeneration {c : Config offlineSignature Journal}
    {e : Event (offlineSystem false)} (h : keepsGeneration c e = true) :
    settledGeneration.Meets (offlineSystem false) c e := by
  cases e with
  | commit i =>
      intro β tag f k b s hp _
      have hat : c.standsAt i = tag := by simp [Config.standsAt, hp]
      simp only [keepsGeneration, hat] at h
      cases tag with
      | none => trivial
      | some tag =>
          cases tag with
          | recheck localId =>
              intro p queued _ hfind _
              simp only [hfind, Option.all_some, beq_iff_eq] at h
              exact .inr h
          | generationHeaders =>
              intro a ha
              simpa [ha] using h
          | _ => trivial
  | answer i r => exact fun _ _ _ _ _ => trivial
  | spawn op | abort i e | stop i | tick t => trivial

/-- A pass replays an edit under the generation that the device still holds. -/
theorem requests_stamped_sample : ∃ c,
    Reaches (offlineSystem false) settledGeneration sampleOffline c ∧
      requestView c = [(3, 1, some 1)] ∧ RequestsStamped c.world.outside := by
  have h : (sampleOffline.runChecked (offlineSystem false) keepsGeneration
      (sampleGeneration 0 1 ++ sampleSave 1 3 5 1 "a" ++ samplePass 2 ++
        [.commit 2, .commit 2, .commit 2, .answer 2 (sampleAnswer 7)])).map requestView =
      some [(3, 1, some 1)] := by decide +kernel
  obtain ⟨c, hrun, hview⟩ := Option.map_eq_some_iff.mp h
  have hreach := Reaches.of_runChecked (fun _ _ => settledGeneration_of_keepsGeneration) hrun
  exact ⟨c, hreach, hview, requests_stamped sampleOffline_start hreach⟩

end MailHub.Offline
