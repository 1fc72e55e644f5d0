import MailHub.Interleaving.Safety

/-!
# Workers with roles

A vocabulary says which transactions and which requests a program may come to, whatever the store
holds; it is read off the program. In a run with roles worker `i` runs the operation `ops i`, so
that a discipline can allow each worker what its own operation may do.
-/

namespace Interleaving

variable {S : Signature} {O : Type} {M : System S O} {D : Discipline M} {i : ℕ} {α β : Type}

/-! ## Vocabularies -/

/-- The transactions and the requests that a program may come to. -/
structure Vocabulary (S : Signature) where
  /-- What a transaction with a name may do to the store. -/
  commit : Option S.Tag → S.Store → S.Store → Prop
  /-- The requests that may be made. -/
  call : S.Call → Prop

/-- A program comes only to what is in the vocabulary. -/
def Program.Within (V : Vocabulary S) : Program S α → Prop
  | .pure _ | .throw _ | .halt => True
  | .atomic tag f k =>
      (∀ s b s', f s = .ok (b, s') → V.commit tag s s') ∧ ∀ r, (k r).Within V
  | .call c k => V.call c ∧ ∀ r, (k r).Within V

namespace Program.Within

variable {V V' : Vocabulary S} {p : Program S α}

/-- A larger vocabulary does as well. -/
theorem mono (h : p.Within V) (hcommit : ∀ tag s s', V.commit tag s s' → V'.commit tag s s')
    (hcall : ∀ c, V.call c → V'.call c) : p.Within V' := by
  induction p with
  | pure a | throw e | halt => trivial
  | atomic tag f k ih =>
      exact ⟨fun s b s' hf => hcommit _ _ _ (h.1 s b s' hf), fun r => ih r (h.2 r)⟩
  | call c k ih => exact ⟨hcall c h.1, fun r => ih r (h.2 r)⟩

theorem pure (a : α) : (Pure.pure a : Program S α).Within V := trivial

theorem throw (e : S.Failure) : (MonadExcept.throw e : Program S α).Within V := trivial

theorem ofExcept (r : Except S.Failure α) : (Program.ofExcept r : Program S α).Within V := by
  cases r <;> trivial

theorem bind {g : α → Program S β} (h : p.Within V) (hg : ∀ a, (g a).Within V) :
    (p >>= g).Within V := by
  change (p.bind g).Within V
  induction p with
  | pure a => exact hg a
  | throw e | halt => trivial
  | atomic tag f k ih => exact ⟨h.1, fun r => ih r (h.2 r)⟩
  | call c k ih => exact ⟨h.1, fun r => ih r (h.2 r)⟩

theorem tryCatch {g : S.Failure → Program S α} (h : p.Within V) (hg : ∀ e, (g e).Within V) :
    (MonadExcept.tryCatch p g).Within V := by
  change (p.handle g).Within V
  induction p with
  | pure a | halt => trivial
  | throw e => exact hg e
  | atomic tag f k ih => exact ⟨h.1, fun r => ih r (h.2 r)⟩
  | call c k ih => exact ⟨h.1, fun r => ih r (h.2 r)⟩

theorem attempt (h : p.Within V) : p.attempt.Within V :=
  tryCatch (bind h fun a => pure (Except.ok a)) fun e => pure (Except.error e)

theorem cleanup {q : Program S Unit} (h : p.Within V) (hq : q.Within V) :
    (p.cleanup q).Within V :=
  bind (tryCatch h fun e => bind hq fun _ => throw e) fun a => bind hq fun _ => pure a

theorem read {f : S.Store → α} (h : ∀ s, V.commit none s s) : (Program.read f).Within V := by
  refine ⟨fun s b s' hf => ?_, fun r => ofExcept r⟩
  obtain ⟨-, rfl⟩ : f s = b ∧ s = s' := by simpa using hf
  exact h s

theorem request {c : S.Call} (h : V.call c) : (Program.request c).Within V :=
  ⟨h, fun r => ofExcept r⟩

theorem ite {c : Prop} [Decidable c] {q : Program S α} (hp : c → p.Within V)
    (hq : ¬ c → q.Within V) : (if c then p else q).Within V := by
  split
  · exact hp ‹_›
  · exact hq ‹_›

theorem forIn {γ : Type} {xs : List γ} {b : β} {f : γ → β → Program S (ForInStep β)}
    (hf : ∀ x ∈ xs, ∀ b, (f x b).Within V) : (ForIn.forIn xs b f).Within V := by
  induction xs generalizing b with
  | nil => exact pure b
  | cons x xs ih =>
      rw [List.forIn_cons]
      refine bind (hf x List.mem_cons_self b) fun r => ?_
      cases r with
      | done b' => exact pure b'
      | yield b' => exact ih fun y hy => hf y (List.mem_cons_of_mem _ hy)

end Program.Within

/-- Worker `i` may use a vocabulary while it knows `K`: whatever is in it keeps the discipline and
what is known. -/
structure Admits (D : Discipline M) (i : ℕ) (V : Vocabulary S) (K : World S O → Prop) :
    Prop where
  /-- The others leave what is known true. -/
  stable : Stable D i K
  /-- Transactions keep the discipline. -/
  commit : ∀ tag w s, D.inv w → K w → V.commit tag w.store s →
    D.assumes.commit i tag w (Config.committed M w i tag s) →
      D.Keeps i w (Config.committed M w i tag s) ∧
      D.ensures.commit i tag w (Config.committed M w i tag s) ∧ K (Config.committed M w i tag s)
  /-- Answers keep the discipline. -/
  call : ∀ c w r o, D.inv w → K w → V.call c → M.respond i c r w.outside = some o →
    D.assumes.call i c w ⟨w.store, o⟩ →
      D.Keeps i w ⟨w.store, o⟩ ∧ D.ensures.call i c w ⟨w.store, o⟩ ∧ K ⟨w.store, o⟩

/-- A program within an admitted vocabulary keeps the discipline. -/
theorem Admits.preserves {V : Vocabulary S} {K : World S O → Prop} {p : Program S α}
    (h : Admits D i V K) (hp : p.Within V) : Preserves D i K p := by
  refine ⟨fun w hw => ?_⟩
  induction p generalizing w with
  | pure a => exact fun w' hr hi => h.stable w w' hr hi hw
  | throw e => exact fun w' hr hi => h.stable w w' hr hi hw
  | halt => trivial
  | atomic tag f k ih =>
      intro w' hr hi
      have hw' := h.stable w w' hr hi hw
      refine ⟨fun e _ => ih _ (hp.2 _) w' hw', fun e _ => ih _ (hp.2 _) w' hw',
        fun b s hf ha => ?_⟩
      obtain ⟨hkeep, hens, hnext⟩ := h.commit tag w' s hi hw' (hp.1 _ _ _ hf) ha
      exact ⟨hkeep, hens, ih _ (hp.2 _) _ hnext⟩
  | call c k ih =>
      intro w' hr hi r o hresp ha
      obtain ⟨hkeep, hens, hnext⟩ := h.call c w' r o hi (h.stable w w' hr hi hw) hp.1 hresp ha
      exact ⟨hkeep, hens, ih _ (hp.2 _) _ hnext⟩

/-! ## Roles -/

/-- The operation that an event starts, if any. -/
def Event.spawned : Event M → Option M.Op
  | .spawn op => some op
  | _ => none

/-- The pools that runs from `c₀` reach when every event meets the policy `P` and every worker `i`
runs the operation `ops i`. -/
inductive ReachesAs (M : System S O) (ops : ℕ → M.Op) (P : Policy S O) (c₀ : Config S O) :
    Config S O → Prop
  /-- The run with no event. -/
  | start : ReachesAs M ops P c₀ c₀
  /-- One more event. -/
  | next {c c' : Config S O} (e : Event M) :
      ReachesAs M ops P c₀ c → P.Meets M c e → (∀ op, e.spawned = some op →
        ops c.workers.length = op) → c.fire M e = some c' → ReachesAs M ops P c₀ c'

variable {ops : ℕ → M.Op} {P : Policy S O} {c₀ c c' : Config S O} {e : Event M}

/-- A run with roles is a run. -/
theorem ReachesAs.reaches (h : ReachesAs M ops P c₀ c) : Reaches M P c₀ c := by
  induction h with
  | start => exact .start
  | next e _ hmeets _ hfire ih => exact .next e ih hmeets hfire

/-- Two runs with the same roles in a row are a run with these roles. -/
theorem ReachesAs.trans {c₁ c₂ : Config S O} (h₁ : ReachesAs M ops P c₀ c₁)
    (h₂ : ReachesAs M ops P c₁ c₂) : ReachesAs M ops P c₀ c₂ := by
  induction h₂ with
  | start => exact h₁
  | next e _ hmeets hspawn hfire ih => exact .next e ih hmeets hspawn hfire

/-- Only a new worker makes a pool larger, and none is taken away. -/
theorem Config.fire_workers (h : c.fire M e = some c') :
    c'.workers.length = c.workers.length + e.spawned.toList.length := by
  cases e with
  | spawn op =>
      obtain rfl : _ = c' := by simpa [Config.fire] using h
      simp [Event.spawned]
  | commit i =>
      simp only [Config.fire] at h
      split at h
      · split at h <;> obtain rfl := Option.some.inj h <;> simp [Config.resume, Event.spawned]
      · simp at h
  | abort i e =>
      simp only [Config.fire] at h
      split at h
      · obtain ⟨-, rfl⟩ : _ ∧ _ = c' := by simpa using h
        simp [Config.resume, Event.spawned]
      · simp at h
  | answer i r =>
      simp only [Config.fire] at h
      split at h
      · obtain ⟨o, -, rfl⟩ := Option.map_eq_some_iff.mp h
        simp [Config.resume, Event.spawned]
      · simp at h
  | stop i =>
      obtain ⟨-, rfl⟩ : _ ∧ _ = c' := by simpa [Config.fire] using h
      simp [Config.resume, Event.spawned]
  | tick t =>
      obtain ⟨o, -, rfl⟩ := Option.map_eq_some_iff.mp h
      rfl

/-- Only the roles of the workers that there are matter. -/
theorem ReachesAs.congr {ops' : ℕ → M.Op} (h : ReachesAs M ops P c₀ c)
    (hsame : ∀ i < c.workers.length, ops' i = ops i) : ReachesAs M ops' P c₀ c := by
  induction h with
  | start => exact .start
  | @next c c' e _ hmeets hspawn hfire ih =>
      have hlength := Config.fire_workers hfire
      refine .next e (ih fun i hi => hsame i (by omega)) hmeets (fun op hop => ?_) hfire
      rw [hop, Option.toList_some, List.length_singleton] at hlength
      rw [hsame _ (by omega)]
      exact hspawn op hop

/-- The worker that an event starts can be given its role. -/
theorem ReachesAs.extend (h : ReachesAs M ops P c₀ c) (e : Event M) :
    ∃ ops', ReachesAs M ops' P c₀ c ∧ (∀ i < c.workers.length, ops' i = ops i) ∧
      ∀ op, e.spawned = some op → ops' c.workers.length = op := by
  cases hop : e.spawned with
  | none => exact ⟨ops, h, fun _ _ => rfl, fun op h => by simp at h⟩
  | some op =>
      have hold : ∀ i < c.workers.length,
          (if i = c.workers.length then op else ops i) = ops i :=
        fun i hi => if_neg (Nat.ne_of_lt hi)
      exact ⟨_, h.congr hold, hold, fun op' hop' => by simpa using hop'⟩

/-- Every run is a run with some roles. -/
theorem Reaches.withRoles (h : Reaches M P c₀ c) (op : M.Op) : ∃ ops, ReachesAs M ops P c₀ c := by
  induction h with
  | start => exact ⟨fun _ => op, .start⟩
  | next e _ hmeets hfire ih =>
      obtain ⟨ops, hops⟩ := ih
      obtain ⟨ops', hreach, -, hnew⟩ := hops.extend e
      exact ⟨ops', .next e hreach hmeets hnew hfire⟩

/-- Worker `i` has nothing left to do. -/
def Config.HasEnded (c : Config S O) (i : ℕ) : Prop :=
  ∃ p, c.workers[i]? = some p ∧ p.finished = true

/-- Going on with one worker leaves a worker that has ended. -/
theorem Config.HasEnded.resume {i j : ℕ} {p p' : Program S Unit} {w : World S O}
    (h : c.HasEnded i) (hj : c.workers[j]? = some p) (hrest : p.finished = false) :
    (c.resume M j p' w).HasEnded i := by
  obtain ⟨q, hq, hfinished⟩ := h
  have hne : j ≠ i := by
    rintro rfl
    obtain rfl : p = q := Option.some.inj (hj.symm.trans hq)
    simp [hrest] at hfinished
  refine ⟨q, ?_, hfinished⟩
  rw [Config.resume, List.getElem?_set_ne hne, hq]

/-- A worker that has ended never goes on. -/
theorem Config.HasEnded.fire {i : ℕ} (h : c.HasEnded i) (hfire : c.fire M e = some c') :
    c'.HasEnded i := by
  cases e with
  | spawn op =>
      obtain rfl : _ = c' := by simpa [Config.fire] using hfire
      obtain ⟨q, hq, hfinished⟩ := h
      have hlt : i < c.workers.length := (List.getElem?_eq_some_iff.mp hq).1
      exact ⟨q, by rw [List.getElem?_append_left hlt, hq], hfinished⟩
  | commit j =>
      simp only [Config.fire] at hfire
      split at hfire
      next hp => split at hfire <;> obtain rfl := Option.some.inj hfire <;> exact h.resume hp rfl
      next => simp at hfire
  | abort j e =>
      simp only [Config.fire] at hfire
      split at hfire
      next hp =>
        obtain ⟨-, rfl⟩ : _ ∧ _ = c' := by simpa using hfire
        exact h.resume hp rfl
      next => simp at hfire
  | answer j r =>
      simp only [Config.fire] at hfire
      split at hfire
      next hp =>
        obtain ⟨o, -, rfl⟩ := Option.map_eq_some_iff.mp hfire
        exact h.resume hp rfl
      next => simp at hfire
  | stop j =>
      obtain ⟨hlt, rfl⟩ : _ ∧ _ = c' := by simpa [Config.fire] using hfire
      obtain ⟨q, hq, hfinished⟩ := h
      by_cases hji : j = i
      · subst hji
        exact ⟨.halt, List.getElem?_set_self hlt, rfl⟩
      · exact ⟨q, by rw [Config.resume, List.getElem?_set_ne hji, hq], hfinished⟩
  | tick t =>
      obtain ⟨o, -, rfl⟩ := Option.map_eq_some_iff.mp hfire
      exact h

theorem Config.HasEnded.reaches {i : ℕ} (h : c.HasEnded i) (hreach : Reaches M P c c') :
    c'.HasEnded i := by
  induction hreach with
  | start => exact h
  | next e _ _ hfire ih => exact ih.fire hfire

/-- A worker that has ended commits nothing. -/
theorem Config.HasEnded.commits_nothing {i : ℕ} (h : c.HasEnded i) :
    c.fire M (.commit i) = none := by
  obtain ⟨q, hq, hfinished⟩ := h
  cases q <;> simp_all [Config.fire, Program.finished]

/-- A list of events that pass a check is a run in which the workers have the roles in which the
list starts them. -/
theorem ReachesAs.of_runChecked {check : Config S O → Event M → Bool} {es : List (Event M)}
    (hcheck : ∀ c e, check c e = true → P.Meets M c e)
    (hops : ∀ i op, (es.filterMap Event.spawned)[i]? = some op →
      ops (c₀.workers.length + i) = op)
    (h : c₀.runChecked M check es = some c) : ReachesAs M ops P c₀ c := by
  induction es generalizing c₀ with
  | nil =>
      obtain rfl : c₀ = c := by simpa [Config.runChecked] using h
      exact .start
  | cons e es ih =>
      unfold Config.runChecked at h
      split at h
      next hpass =>
        obtain ⟨c₁, hfire, hrun⟩ := Option.bind_eq_some_iff.mp h
        have hlength := Config.fire_workers hfire
        have hspawned : (e :: es).filterMap Event.spawned =
            e.spawned.toList ++ es.filterMap Event.spawned := by
          rw [List.filterMap_cons]
          cases e.spawned <;> rfl
        have hfirst : ReachesAs M ops P c₀ c₁ := by
          refine .next e .start (hcheck c₀ e hpass) (fun op hop => ?_) hfire
          have hzero := hops 0 op (by rw [hspawned, hop]; rfl)
          rwa [Nat.add_zero] at hzero
        refine hfirst.trans (ih (fun i op hop => ?_) hrun)
        rw [hlength, Nat.add_assoc]
        refine hops _ op ?_
        rw [hspawned, List.getElem?_append_right (Nat.le_add_right _ _), Nat.add_sub_cancel_left]
        exact hop
      next => simp at h

/-- The roles in which a list of events starts its workers; the others get the role `d`. -/
def rolesOf (d : M.Op) (es : List (Event M)) (i : ℕ) : M.Op :=
  (es.filterMap Event.spawned).getD i d

/-- A list of events that pass a check is a run with its own roles. -/
theorem ReachesAs.of_events {check : Config S O → Event M → Bool} {es : List (Event M)}
    (hcheck : ∀ c e, check c e = true → P.Meets M c e) (h₀ : c₀.workers = []) (d : M.Op)
    (h : c₀.runChecked M check es = some c) : ReachesAs M (rolesOf d es) P c₀ c := by
  refine .of_runChecked hcheck (fun i op hop => ?_) h
  unfold rolesOf
  rw [h₀, List.length_nil, Nat.zero_add, List.getD_eq_getElem?_getD, hop, Option.getD_some]

/-! ## Disciplines in runs with roles -/

/-- Both of two conditions. -/
def Policy.and (P Q : Policy S O) : Policy S O :=
  ⟨fun i tag w w' => P.commit i tag w w' ∧ Q.commit i tag w w',
    fun i c w w' => P.call i c w w' ∧ Q.call i c w w'⟩

theorem Policy.Meets.and {Q : Policy S O} (h : P.Meets M c e) (h' : Q.Meets M c e) :
    (P.and Q).Meets M c e := by
  cases e with
  | commit i => exact fun β tag f k b s hp hf => ⟨h β tag f k b s hp hf, h' β tag f k b s hp hf⟩
  | answer i r => exact fun q k o hp ho => ⟨h q k o hp ho, h' q k o hp ho⟩
  | spawn _ | abort _ _ | stop _ | tick _ => trivial

/-- What a discipline ensures can be relied on as if it were assumed. -/
theorem ReachesAs.and_ensures (h : ReachesAs M ops P c₀ c) (h₀ : c₀.Sound D)
    (hops : ∀ op i w, Safe D i (M.program op) w (fun _ _ => True) fun _ _ => True)
    (hcommit : ∀ i tag w w', P.commit i tag w w' → D.assumes.commit i tag w w')
    (hcall : ∀ i q w w', P.call i q w w' → D.assumes.call i q w w') :
    ReachesAs M ops (P.and D.ensures) c₀ c := by
  induction h with
  | start => exact .start
  | next e hreach hmeets hspawn hfire ih =>
      have hsound := (hreach.reaches.mono hcommit hcall).sound h₀ hops
      have hens := (hsound.fire hops (hmeets.mono hcommit hcall) hfire).2
      exact .next e ih (hmeets.and hens) hspawn hfire

/-- In a run with roles it is enough that every worker is safe in its own. -/
theorem ReachesAs.sound (h : ReachesAs M ops D.assumes c₀ c) (h₀ : c₀.Sound D)
    (hops : ∀ i w, Safe D i (M.program (ops i)) w (fun _ _ => True) fun _ _ => True) :
    c.Sound D := by
  induction h with
  | start => exact h₀
  | @next c c' e _ ha hspawn hfire ih =>
      refine (ih.fire_of (fun op hop => ?_) ha hfire).1
      subst hop
      rw [← hspawn op rfl]
      exact hops _ _

/-- Every event of a run with roles meets what the discipline ensures. -/
theorem ReachesAs.ensures (h : ReachesAs M ops D.assumes c₀ c) (h₀ : c₀.Sound D)
    (hops : ∀ i w, Safe D i (M.program (ops i)) w (fun _ _ => True) fun _ _ => True)
    (ha : D.assumes.Meets M c e) (hspawn : ∀ op, e.spawned = some op → ops c.workers.length = op)
    (hfire : c.fire M e = some c') : D.ensures.Meets M c e := by
  refine ((h.sound h₀ hops).fire_of (fun op hop => ?_) ha hfire).2
  subst hop
  rw [← hspawn op rfl]
  exact hops _ _

/-- What every operation knows when it returns holds of each worker that has returned, in every run
with roles. -/
theorem ReachesAs.soundFor {K : ℕ → World S O → Prop} (hK : Lasting D K)
    (h : ReachesAs M ops D.assumes c₀ c) (h₀ : c₀.SoundFor D K)
    (hops : ∀ i w, Safe D i (M.program (ops i)) w (fun _ => K i) fun _ _ => True) :
    c.SoundFor D K := by
  induction h with
  | start => exact h₀
  | next e _ ha hspawn hfire ih =>
      refine (ih.fire_of hK (fun op hop => ?_) ha hfire).1
      subst hop
      rw [← hspawn op rfl]
      exact hops _ _

/-- A worker of a sound pool that has returned knows what it returns with. -/
theorem Config.SoundFor.returned {K : ℕ → World S O → Prop} (hc : c.SoundFor D K)
    (hi : c.workers[i]? = some (.pure ())) : K i c.world :=
  hc.safe i _ hi c.world (D.rely_refl i _) hc.inv

/-! ## Records of each worker -/

/-- A pool is sound in every run when each program is safe where nothing is recorded yet of the
worker that starts it. -/
theorem Reaches.sound_fresh {F : ℕ → World S O → Prop} {c₀ c : Config S O}
    (h : Reaches M D.assumes c₀ c) (h₀ : c₀.Sound D)
    (hstart : ∀ i, F i c₀.world) (hF : ∀ i w w', D.rely i w w' → F i w → F i w')
    (hops : ∀ op i w, F i w → Safe D i (M.program op) w (fun _ _ => True) fun _ _ => True) :
    c.Sound D := by
  have hboth : c.Sound D ∧ ∀ i, c.workers.length ≤ i → F i c.world := by
    induction h with
    | start => exact ⟨h₀, fun i _ => hstart i⟩
    | @next c c' e _ ha hfire ih =>
        obtain ⟨hsound, hfresh⟩ := ih
        refine ⟨(hsound.fire_of (fun op _ => hops op _ _ (hfresh _ (Nat.le_refl _))) ha hfire).1,
          fun i hi => ?_⟩
        have hworkers' := Config.fire_workers hfire
        have hlength : c.workers.length ≤ c'.workers.length := by omega
        exact hF i _ _ (hsound.fire_rely ha hfire (Nat.le_trans hlength hi))
          (hfresh i (Nat.le_trans hlength hi))
  exact hboth.1

end Interleaving
