import MailHub.Interleaving.Pool

/-!
# Rely and guarantee for pools

A discipline gives an invariant of the world, what each worker may rely on while others run, and
the conditions on commits and requests that a run is promised to meet. `Safe` says that one
program keeps the discipline whatever the others do, as long as they keep it; it is proved by
walking along the program, one rule for each way of building one. The main theorem says that a
pool of safe programs keeps the discipline in every run.
-/

namespace Interleaving

variable {S : Signature} {O : Type} {M : System S O} {α β : Type}

/-! ## Disciplines -/

/-- An invariant with what the workers rely on and what their steps ensure. -/
structure Discipline (M : System S O) where
  /-- The invariant of the world. -/
  inv : World S O → Prop
  /-- What worker `i` relies on between two moments at which others have run. -/
  rely : ℕ → World S O → World S O → Prop
  /-- The policy that the runs under study meet. -/
  assumes : Policy S O
  /-- The policy that every step is shown to meet. -/
  ensures : Policy S O
  /-- Nothing happening can be relied on. -/
  rely_refl : ∀ i w, rely i w w
  /-- What is relied on twice in a row is relied on over the whole time. -/
  rely_trans : ∀ i w₁ w₂ w₃, rely i w₁ w₂ → rely i w₂ w₃ → rely i w₁ w₃
  /-- Reading meets the policy. -/
  ensures_read : ∀ i w, inv w → ensures.commit i none w w
  /-- Changes of the outside keep the invariant. -/
  inv_tick : ∀ w t o, inv w → M.advance t w.outside = some o → inv ⟨w.store, o⟩
  /-- Everyone can rely on the changes of the outside. -/
  rely_tick : ∀ i w t o, inv w → M.advance t w.outside = some o → rely i w ⟨w.store, o⟩
  /-- A worker that is gone keeps the invariant. -/
  inv_retire : ∀ w i, inv w → inv ⟨w.store, M.retire i w.outside⟩
  /-- The others can rely on a worker that is gone. -/
  rely_retire : ∀ w i j, inv w → j ≠ i → rely j w ⟨w.store, M.retire i w.outside⟩

/-- Worker `i` keeps the discipline between two worlds. -/
structure Discipline.Keeps (D : Discipline M) (i : ℕ) (w w' : World S O) : Prop where
  /-- The invariant holds again. -/
  inv : D.inv w'
  /-- The others can rely on it. -/
  rely : ∀ j, j ≠ i → D.rely j w w'

/-! ## Safe programs -/

/-- Worker `i` running the program keeps the discipline from `w` on, whatever the others do in
between; it returns in a world that satisfies `Q` and fails in a world that satisfies `E`. -/
def Safe (D : Discipline M) (i : ℕ) :
    Program S α → World S O → (α → World S O → Prop) → (S.Failure → World S O → Prop) → Prop
  | .pure a, w, Q, _ => ∀ w', D.rely i w w' → D.inv w' → Q a w'
  | .throw e, w, _, E => ∀ w', D.rely i w w' → D.inv w' → E e w'
  | .halt, _, _, _ => True
  | .atomic tag f k, w, Q, E => ∀ w', D.rely i w w' → D.inv w' →
      (∀ e, M.fault e → Safe D i (k (.error e)) w' Q E) ∧
      (∀ e, f w'.store = .error e → Safe D i (k (.error e)) w' Q E) ∧
      ∀ b s, f w'.store = .ok (b, s) →
        D.assumes.commit i tag w' (Config.committed M w' i tag s) →
          D.Keeps i w' (Config.committed M w' i tag s) ∧
          D.ensures.commit i tag w' (Config.committed M w' i tag s) ∧
          Safe D i (k (.ok b)) (Config.committed M w' i tag s) Q E
  | .call q k, w, Q, E => ∀ w', D.rely i w w' → D.inv w' →
      ∀ r o, M.respond i q r w'.outside = some o → D.assumes.call i q w' ⟨w'.store, o⟩ →
        D.Keeps i w' ⟨w'.store, o⟩ ∧ D.ensures.call i q w' ⟨w'.store, o⟩ ∧
        Safe D i (k r) ⟨w'.store, o⟩ Q E

variable {D : Discipline M} {i : ℕ} {w : World S O}
variable {Q Q' : α → World S O → Prop} {E E' : S.Failure → World S O → Prop}

/-- A safe program stays safe while the others run. -/
theorem Safe.stable {p : Program S α} {w' : World S O} (h : Safe D i p w Q E)
    (hr : D.rely i w w') : Safe D i p w' Q E := by
  cases p with
  | pure a => exact fun w₂ h₂ => h w₂ (D.rely_trans i _ _ _ hr h₂)
  | throw e => exact fun w₂ h₂ => h w₂ (D.rely_trans i _ _ _ hr h₂)
  | halt => trivial
  | atomic tag f k => exact fun w₂ h₂ => h w₂ (D.rely_trans i _ _ _ hr h₂)
  | call c k => exact fun w₂ h₂ => h w₂ (D.rely_trans i _ _ _ hr h₂)

/-- Weaker postconditions are met as well. -/
theorem Safe.mono {p : Program S α} (h : Safe D i p w Q E)
    (hQ : ∀ a w', D.inv w' → Q a w' → Q' a w') (hE : ∀ e w', D.inv w' → E e w' → E' e w') :
    Safe D i p w Q' E' := by
  induction p generalizing w with
  | pure a => exact fun w' hr hi => hQ a w' hi (h w' hr hi)
  | throw e => exact fun w' hr hi => hE e w' hi (h w' hr hi)
  | halt => trivial
  | atomic tag f k ih =>
      intro w' hr hi
      obtain ⟨hfault, herr, hok⟩ := h w' hr hi
      refine ⟨fun e he => ih _ (hfault e he), fun e he => ih _ (herr e he), fun b s hf ha => ?_⟩
      obtain ⟨hkeep, hens, hb⟩ := hok b s hf ha
      exact ⟨hkeep, hens, ih _ hb⟩
  | call c k ih =>
      intro w' hr hi r o hresp ha
      obtain ⟨hkeep, hens, hk⟩ := h w' hr hi r o hresp ha
      exact ⟨hkeep, hens, ih _ hk⟩

/-- It is enough to be safe from the moment the program runs on. -/
theorem Safe.of_later {p : Program S α}
    (h : ∀ w', D.rely i w w' → D.inv w' → Safe D i p w' Q E) : Safe D i p w Q E := by
  cases p with
  | pure a => exact fun w' hr hi => h w' hr hi w' (D.rely_refl i w') hi
  | throw e => exact fun w' hr hi => h w' hr hi w' (D.rely_refl i w') hi
  | halt => trivial
  | atomic tag f k => exact fun w' hr hi => h w' hr hi w' (D.rely_refl i w') hi
  | call c k => exact fun w' hr hi => h w' hr hi w' (D.rely_refl i w') hi

/-! ## Rules -/

/-- A composition is safe when the second program is safe wherever the first one returns. -/
theorem Safe.bind {p : Program S α} {g : α → Program S β} {R : β → World S O → Prop}
    (h : Safe D i p w (fun a w' => Safe D i (g a) w' R E) E) : Safe D i (p.bind g) w R E := by
  induction p generalizing w with
  | pure a => exact .of_later h
  | throw e => exact h
  | halt => trivial
  | atomic tag f k ih =>
      intro w' hr hi
      obtain ⟨hfault, herr, hok⟩ := h w' hr hi
      refine ⟨fun e he => ih _ (hfault e he), fun e he => ih _ (herr e he), fun b s hf ha => ?_⟩
      obtain ⟨hkeep, hens, hb⟩ := hok b s hf ha
      exact ⟨hkeep, hens, ih _ hb⟩
  | call c k ih =>
      intro w' hr hi r o hresp ha
      obtain ⟨hkeep, hens, hk⟩ := h w' hr hi r o hresp ha
      exact ⟨hkeep, hens, ih _ hk⟩

/-- A handled program is safe when the handler is safe wherever the program fails. -/
theorem Safe.handle {p : Program S α} {g : S.Failure → Program S α}
    (h : Safe D i p w Q (fun e w' => Safe D i (g e) w' Q E)) : Safe D i (p.handle g) w Q E := by
  induction p generalizing w with
  | pure a => exact h
  | throw e => exact .of_later h
  | halt => trivial
  | atomic tag f k ih =>
      intro w' hr hi
      obtain ⟨hfault, herr, hok⟩ := h w' hr hi
      refine ⟨fun e he => ih _ (hfault e he), fun e he => ih _ (herr e he), fun b s hf ha => ?_⟩
      obtain ⟨hkeep, hens, hb⟩ := hok b s hf ha
      exact ⟨hkeep, hens, ih _ hb⟩
  | call c k ih =>
      intro w' hr hi r o hresp ha
      obtain ⟨hkeep, hens, hk⟩ := h w' hr hi r o hresp ha
      exact ⟨hkeep, hens, ih _ hk⟩

/-- An attempt is safe when the program is and what it leads to holds for good. -/
theorem Safe.attempt {p : Program S α} {R : Except S.Failure α → World S O → Prop}
    (h : Safe D i p w (fun a w' => ∀ w₂, D.rely i w' w₂ → D.inv w₂ → R (.ok a) w₂)
      fun e w' => ∀ w₂, D.rely i w' w₂ → D.inv w₂ → R (.error e) w₂) :
    Safe D i p.attempt w R E :=
  .handle (.bind (h.mono (fun _ _ _ ha => ha) fun _ _ _ he => he))

/-- A value is safe to return where its postcondition holds for good. -/
theorem Safe.pure {a : α} (h : ∀ w', D.rely i w w' → D.inv w' → Q a w') :
    Safe D i (.pure a) w Q E := h

/-- A failure is safe where its postcondition holds for good. -/
theorem Safe.throw {e : S.Failure} (h : ∀ w', D.rely i w w' → D.inv w' → E e w') :
    Safe D i (.throw e : Program S α) w Q E := h

/-- An answer is safe to pass on when its value and its failure are. -/
theorem Safe.ofExcept {r : Except S.Failure α}
    (hok : ∀ a, r = .ok a → ∀ w', D.rely i w w' → D.inv w' → Q a w')
    (herr : ∀ e, r = .error e → ∀ w', D.rely i w w' → D.inv w' → E e w') :
    Safe D i (.ofExcept r) w Q E := by
  cases r with
  | ok a => exact hok a rfl
  | error e => exact herr e rfl

/-- Reading is safe when the value read is safe to know and faults are safe to see. -/
theorem Safe.read {f : S.Store → α}
    (h : ∀ w', D.rely i w w' → D.inv w' → Safe D i (.pure (f w'.store)) w' Q E)
    (hE : ∀ e w', M.fault e → D.rely i w w' → D.inv w' → E e w') :
    Safe D i (.read f) w Q E := by
  intro w' hr hi
  refine ⟨fun e he => ?_, fun e he => ?_, fun b s hf _ => ?_⟩
  · exact .throw fun w₂ hr₂ hi₂ => hE e w₂ he (D.rely_trans i _ _ _ hr hr₂) hi₂
  · simp at he
  · obtain ⟨rfl, rfl⟩ : f w'.store = b ∧ w'.store = s := by simpa using hf
    have hsame : Config.committed M w' i none w'.store = w' := by
      simp [Config.committed, M.observe_read]
    rw [hsame]
    exact ⟨⟨hi, fun j _ => D.rely_refl j w'⟩, D.ensures_read i w' hi, h w' hr hi⟩

/-- A transaction is safe when its commit keeps the discipline and its outcomes are safe. -/
theorem Safe.transaction {tag : Option S.Tag} {t : Transaction S α}
    (hok : ∀ w', D.rely i w w' → D.inv w' → ∀ b s, t.run w'.store = .ok (b, s) →
      D.assumes.commit i tag w' (Config.committed M w' i tag s) →
        D.Keeps i w' (Config.committed M w' i tag s) ∧
        D.ensures.commit i tag w' (Config.committed M w' i tag s) ∧
        Safe D i (.pure b) (Config.committed M w' i tag s) Q E)
    (herr : ∀ e w', D.rely i w w' → D.inv w' →
      (M.fault e ∨ ∃ s, t.run s = .error e) → E e w') :
    Safe D i (.transaction tag t) w Q E := by
  intro w' hr hi
  refine ⟨fun e he => ?_, fun e he => ?_, hok w' hr hi⟩
  · exact .throw fun w₂ hr₂ hi₂ => herr e w₂ (D.rely_trans i _ _ _ hr hr₂) hi₂ (.inl he)
  · exact .throw fun w₂ hr₂ hi₂ =>
      herr e w₂ (D.rely_trans i _ _ _ hr hr₂) hi₂ (.inr ⟨w'.store, he⟩)

/-- A request is safe when every answer keeps the discipline and is safe to get. -/
theorem Safe.request {c : S.Call} {Q : S.Answer c → World S O → Prop}
    (h : ∀ w', D.rely i w w' → D.inv w' → ∀ r o, M.respond i c r w'.outside = some o →
      D.assumes.call i c w' ⟨w'.store, o⟩ →
        D.Keeps i w' ⟨w'.store, o⟩ ∧ D.ensures.call i c w' ⟨w'.store, o⟩ ∧
        Safe D i (.ofExcept r) ⟨w'.store, o⟩ Q E) :
    Safe D i (.request c) w Q E := h

/-- A loop over a list is safe when its body keeps an invariant of the accumulator. -/
theorem Safe.forIn {γ : Type} {xs : List γ} {b : β} {f : γ → β → Program S (ForInStep β)}
    {R : β → World S O → Prop} {E : S.Failure → World S O → Prop}
    (hb : ∀ w', D.rely i w w' → D.inv w' → R b w')
    (hR : ∀ b w₁ w₂, D.rely i w₁ w₂ → D.inv w₂ → R b w₁ → R b w₂)
    (hf : ∀ x ∈ xs, ∀ b w', D.inv w' → R b w' →
      Safe D i (f x b) w' (fun r w'' => R r.value w'') E) :
    Safe D i (ForIn.forIn xs b f) w R E := by
  induction xs generalizing b w with
  | nil => exact hb
  | cons x xs ih =>
      rw [List.forIn_cons]
      refine .of_later fun w' hr hi => .bind ?_
      refine (hf x (by simp) b w' hi (hb w' hr hi)).mono (fun r w₂ hi₂ hr₂ => ?_) fun _ _ _ => id
      cases r with
      | done b' => exact .pure fun w₃ h₃ hi₃ => hR b' w₂ w₃ h₃ hi₃ hr₂
      | yield b' =>
          exact ih (fun w₃ h₃ hi₃ => hR b' w₂ w₃ h₃ hi₃ hr₂) fun y hy => hf y (by simp [hy])

/-! ## Programs that keep what is known -/

/-- What worker `i` knows stays true while the others run. -/
def Stable (D : Discipline M) (i : ℕ) (K : World S O → Prop) : Prop :=
  ∀ w w', D.rely i w w' → D.inv w' → K w → K w'

/-- Worker `i` running the program keeps the discipline and does not lose what it knows. -/
structure Preserves (D : Discipline M) (i : ℕ) (K : World S O → Prop) (p : Program S α) : Prop where
  /-- The program is safe wherever the worker knows it. -/
  safe : ∀ w, K w → Safe D i p w (fun _ => K) fun _ => K

/-- Knowing nothing is stable. -/
theorem Stable.trivial : Stable D i fun _ => True := fun _ _ _ _ _ => True.intro

namespace Preserves

variable {K : World S O → Prop}

theorem pure (hK : Stable D i K) (a : α) : Preserves D i K (Pure.pure a : Program S α) :=
  ⟨fun w hw => .pure fun w' hr hi => hK w w' hr hi hw⟩

theorem throw (hK : Stable D i K) (e : S.Failure) :
    Preserves D i K (MonadExcept.throw e : Program S α) :=
  ⟨fun w hw => .throw fun w' hr hi => hK w w' hr hi hw⟩

theorem ofExcept (hK : Stable D i K) (r : Except S.Failure α) :
    Preserves D i K (.ofExcept r : Program S α) :=
  ⟨fun w hw => .ofExcept (fun _ _ w' hr hi => hK w w' hr hi hw)
    fun _ _ w' hr hi => hK w w' hr hi hw⟩

theorem bind {p : Program S α} {f : α → Program S β} (hp : Preserves D i K p)
    (hf : ∀ a, Preserves D i K (f a)) : Preserves D i K (p >>= f) :=
  ⟨fun w hw => .bind ((hp.safe w hw).mono (fun a w' _ hw' => (hf a).safe w' hw') fun _ _ _ => id)⟩

/-- What a program keeps is there when the next program starts. -/
theorem andThen {p : Program S α} {f : α → Program S β} {R : β → World S O → Prop}
    {E : S.Failure → World S O → Prop} (hp : Preserves D i K p) (hw : K w)
    (hf : ∀ a w', K w' → Safe D i (f a) w' R E) (hE : ∀ e w', K w' → E e w') :
    Safe D i (p >>= f) w R E :=
  .bind ((hp.safe w hw).mono (fun a w' _ hw' => hf a w' hw') fun e w' _ hw' => hE e w' hw')

theorem tryCatch {p : Program S α} {h : S.Failure → Program S α} (hp : Preserves D i K p)
    (hh : ∀ e, Preserves D i K (h e)) : Preserves D i K (tryCatch p h) :=
  ⟨fun w hw => .handle
    ((hp.safe w hw).mono (fun _ _ _ => id) fun e w' _ hw' => (hh e).safe w' hw')⟩

/-- An attempt hands its failure on as a value. -/
theorem attempt (hK : Stable D i K) {p : Program S α} (hp : Preserves D i K p) :
    Preserves D i K p.attempt :=
  ⟨fun w hw => .attempt ((hp.safe w hw).mono (fun _ w' _ hw' w₂ hr hi => hK w' w₂ hr hi hw')
    fun _ w' _ hw' w₂ hr hi => hK w' w₂ hr hi hw')⟩

theorem read (hK : Stable D i K) (f : S.Store → α) : Preserves D i K (.read f) :=
  ⟨fun w hw => .read (fun w' hr hi => (pure hK _).safe w' (hK w w' hr hi hw))
    fun _ w' _ hr hi => hK w w' hr hi hw⟩

/-- What follows a read goes on with something that the store held. -/
theorem read_bind (hK : Stable D i K) {f : S.Store → α} {g : α → Program S β}
    (hg : ∀ s, Preserves D i K (g (f s))) : Preserves D i K (Program.read f >>= g) := by
  refine ⟨fun w hw => .bind (.read (fun w' hr hi => ?_) fun _ w' _ hr hi => hK w w' hr hi hw)⟩
  have hw' : K w' := hK w w' hr hi hw
  exact .pure fun w₂ hr₂ hi₂ => (hg w'.store).safe w₂ (hK w' w₂ hr₂ hi₂ hw')

theorem ite {c : Prop} [Decidable c] {p q : Program S α} (hp : c → Preserves D i K p)
    (hq : ¬ c → Preserves D i K q) : Preserves D i K (if c then p else q) := by
  split
  · exact hp ‹_›
  · exact hq ‹_›

/-- A failed check stops the program. -/
theorem throw_bind (hK : Stable D i K) {e : S.Failure} {f : α → Program S β} :
    Preserves D i K ((MonadExcept.throw e : Program S α) >>= f) := throw hK e

theorem forIn {γ : Type} {xs : List γ} {b : β} {f : γ → β → Program S (ForInStep β)}
    (hK : Stable D i K) (hf : ∀ x ∈ xs, ∀ b, Preserves D i K (f x b)) :
    Preserves D i K (ForIn.forIn xs b f) :=
  ⟨fun w hw => .forIn (fun w' hr hi => hK w w' hr hi hw)
    (fun _ w₁ w₂ hr hi hw' => hK w₁ w₂ hr hi hw') fun x hx b w' _ hw' => (hf x hx b).safe w' hw'⟩

end Preserves

/-- A program whose cleanup keeps what is known stays safe with its cleanup. -/
theorem Safe.cleanup {p : Program S α} {q : Program S Unit} {K : World S O → Prop}
    (hK : Stable D i K) (hp : Safe D i p w (fun _ => K) fun _ => K) (hq : Preserves D i K q) :
    Safe D i (p.cleanup q) w (fun _ => K) fun _ => K := by
  refine .bind (.handle (hp.mono (fun a w' _ hw' => ?_) fun e w' _ hw' => ?_))
  · exact hq.andThen hw' (fun _ w₁ hw₁ => .pure fun w₂ hr hi => hK w₁ w₂ hr hi hw₁) fun _ _ => id
  · exact hq.andThen hw' (fun _ w₁ hw₁ => .throw fun w₂ hr hi => hK w₁ w₂ hr hi hw₁) fun _ _ => id

/-! ## Pools of safe programs -/

/-- Every worker of a pool is safe and the invariant holds. -/
structure Config.Sound (D : Discipline M) (c : Config S O) : Prop where
  /-- The invariant holds. -/
  inv : D.inv c.world
  /-- What is left of each worker is safe. -/
  safe : ∀ i p, c.workers[i]? = some p →
    Safe D i p c.world (fun _ _ => True) fun _ _ => True

/-- Every worker of a pool is safe and returns only where it knows `K`, and the invariant holds. -/
structure Config.SoundFor (D : Discipline M) (K : ℕ → World S O → Prop) (c : Config S O) :
    Prop where
  /-- The invariant holds. -/
  inv : D.inv c.world
  /-- What is left of each worker is safe. -/
  safe : ∀ i p, c.workers[i]? = some p → Safe D i p c.world (fun _ => K i) fun _ _ => True

/-- What workers know for good: neither the others nor the end of the worker make it false. -/
structure Lasting (D : Discipline M) (K : ℕ → World S O → Prop) : Prop where
  /-- The others leave it true. -/
  stable : ∀ i, Stable D i (K i)
  /-- The worker itself leaves it true when it is gone. -/
  retire : ∀ i w, D.inv w → K i w → K i ⟨w.store, M.retire i w.outside⟩

theorem Lasting.trivial : Lasting D fun _ _ => True :=
  ⟨fun _ => .trivial, fun _ _ _ _ => True.intro⟩

theorem Config.Sound.soundFor {c : Config S O} (hc : c.Sound D) :
    c.SoundFor D fun _ _ => True := ⟨hc.inv, hc.safe⟩

theorem Config.SoundFor.sound {c : Config S O} (hc : c.SoundFor D fun _ _ => True) : c.Sound D :=
  ⟨hc.inv, hc.safe⟩

/-- A program with nothing left to do stays safe when its worker is recorded as gone. -/
theorem Lasting.safe {K : ℕ → World S O → Prop} (hK : Lasting D K) {p : Program S α}
    (h : p.finished = true) (hi : D.inv w) (hp : Safe D i p w (fun _ => K i) fun _ _ => True) :
    Safe D i p ⟨w.store, M.retire i w.outside⟩ (fun _ => K i) fun _ _ => True := by
  cases p with
  | pure a =>
      intro w' hr hi'
      have hnow : K i w := hp w (D.rely_refl i w) hi
      exact hK.stable i _ w' hr hi' (hK.retire i w hi hnow)
  | throw e => exact fun _ _ _ => True.intro
  | halt => exact True.intro
  | atomic tag f k => simp [Program.finished] at h
  | call c k => simp [Program.finished] at h

/-- A worker that keeps the discipline keeps it when its rest is put back. -/
theorem Discipline.Keeps.resume {c : Config S O} {w : World S O} (hw : D.Keeps i c.world w)
    (p : Program S Unit) : D.Keeps i c.world (c.resume M i p w).world := by
  unfold Config.resume
  split
  · exact ⟨D.inv_retire w i hw.inv, fun j hj =>
      D.rely_trans j _ _ _ (hw.rely j hj) (D.rely_retire w i j hw.inv hj)⟩
  · exact hw

section SoundFor

variable {K : ℕ → World S O → Prop}

/-- A worker that keeps the discipline and is safe in the new world keeps the pool sound. -/
theorem Config.SoundFor.resume (hK : Lasting D K) {c : Config S O} {p : Program S Unit}
    {w : World S O} (hc : c.SoundFor D K) (hw : D.Keeps i c.world w)
    (hp : Safe D i p w (fun _ => K i) fun _ _ => True) : (c.resume M i p w).SoundFor D K := by
  have hkeep : D.Keeps i c.world (c.resume M i p w).world := hw.resume p
  refine ⟨hkeep.inv, fun j q hq => ?_⟩
  by_cases hj : j = i
  · subst hj
    by_cases hlt : j < c.workers.length
    · obtain rfl : p = q := by simpa [Config.resume, hlt] using hq
      unfold Config.resume
      split
      · exact hK.safe ‹_› hw.inv hp
      · exact hp
    · simp [Config.resume, hlt] at hq
  · have hq' : c.workers[j]? = some q := by
      simpa [Config.resume, List.getElem?_set_ne (Ne.symm hj)] using hq
    exact (hc.safe j q hq').stable (hkeep.rely j hj)

/-- A pool whose world changes in a way that everyone can rely on stays sound. -/
theorem Config.SoundFor.of_rely {c : Config S O} {w : World S O} (hc : c.SoundFor D K)
    (hi : D.inv w) (hr : ∀ j, D.rely j c.world w) : (Config.mk w c.workers).SoundFor D K :=
  ⟨hi, fun j q hq => (hc.safe j q hq).stable (hr j)⟩

/-- One event that meets the assumed policy keeps a pool sound and meets the ensured policy, when
the operation that it starts, if any, is safe. -/
theorem Config.SoundFor.fire_of (hK : Lasting D K) {c c' : Config S O} {e : Event M}
    (hc : c.SoundFor D K)
    (hops : ∀ op, e = .spawn op → Safe D c.workers.length (M.program op) c.world
      (fun _ => K c.workers.length) fun _ _ => True)
    (ha : D.assumes.Meets M c e) (h : c.fire M e = some c') :
    c'.SoundFor D K ∧ D.ensures.Meets M c e := by
  cases e with
  | spawn op =>
      obtain rfl : _ = c' := by simpa [Config.fire] using h
      refine ⟨⟨hc.inv, fun i p hp => ?_⟩, trivial⟩
      rcases Nat.lt_trichotomy i c.workers.length with hi | rfl | hi
      · exact hc.safe i p (by simpa [List.getElem?_append_left hi] using hp)
      · obtain rfl : M.program op = p := by simpa using hp
        exact hops op rfl
      · have hnone : (c.workers ++ [M.program op])[i]? = none := by
          rw [List.getElem?_eq_none_iff, List.length_append, List.length_singleton]
          omega
        exact absurd (hnone.symm.trans hp) (by simp)
  | commit i =>
      simp only [Config.fire] at h
      split at h
      next β tag f k hp =>
        obtain ⟨-, herr, hok⟩ := hc.safe i _ hp c.world (D.rely_refl i _) hc.inv
        split at h
        next b s hf =>
          obtain rfl : _ = c' := by simpa using h
          obtain ⟨hkeep, hens, hsafe⟩ := hok b s hf (ha _ _ _ _ _ _ hp hf)
          refine ⟨hc.resume hK hkeep hsafe, fun β' tag' f' k' b' s' hp' hf' => ?_⟩
          obtain ⟨rfl, rfl, hfk⟩ : β = β' ∧ tag = tag' ∧ HEq f f' ∧ HEq k k' := by
            simpa using hp.symm.trans hp'
          obtain rfl := eq_of_heq hfk.1
          obtain ⟨rfl, rfl⟩ : b = b' ∧ s = s' := by simpa using hf.symm.trans hf'
          exact hens
        next e hf =>
          obtain rfl : _ = c' := by simpa using h
          refine ⟨hc.resume hK ⟨hc.inv, fun j _ => D.rely_refl j _⟩ (herr e hf),
            fun β' tag' f' k' b' s' hp' hf' => ?_⟩
          obtain ⟨rfl, rfl, hfk⟩ : β = β' ∧ tag = tag' ∧ HEq f f' ∧ HEq k k' := by
            simpa using hp.symm.trans hp'
          obtain rfl := eq_of_heq hfk.1
          exact absurd (hf.symm.trans hf') (by simp)
      next => simp at h
  | abort i e =>
      simp only [Config.fire] at h
      split at h
      next β tag f k hp =>
        split at h
        next hfault =>
          obtain rfl : _ = c' := by simpa using h
          obtain ⟨hsafe, -, -⟩ := hc.safe i _ hp c.world (D.rely_refl i _) hc.inv
          exact ⟨hc.resume hK ⟨hc.inv, fun j _ => D.rely_refl j _⟩ (hsafe e hfault), trivial⟩
        next => simp at h
      next => simp at h
  | answer i r =>
      simp only [Config.fire] at h
      split at h
      next q k hp =>
        obtain ⟨o, hresp, rfl⟩ := Option.map_eq_some_iff.mp h
        obtain ⟨hkeep, hens, hsafe⟩ := hc.safe i _ hp c.world (D.rely_refl i _) hc.inv
          (r q) o hresp (ha q k o hp hresp)
        refine ⟨hc.resume hK hkeep hsafe, fun q' k' o' hp' hresp' => ?_⟩
        obtain ⟨rfl, -⟩ : q = q' ∧ HEq k k' := by simpa using hp.symm.trans hp'
        obtain rfl : o = o' := by simpa using hresp.symm.trans hresp'
        exact hens
      next => simp at h
  | stop i =>
      simp only [Config.fire] at h
      split at h
      next =>
        obtain rfl : _ = c' := by simpa using h
        exact ⟨hc.resume hK ⟨hc.inv, fun j _ => D.rely_refl j _⟩ trivial, trivial⟩
      next => simp at h
  | tick t =>
      obtain ⟨o, ho, rfl⟩ := Option.map_eq_some_iff.mp h
      exact ⟨hc.of_rely (D.inv_tick _ t o hc.inv ho)
        fun j => D.rely_tick j _ t o hc.inv ho, trivial⟩

end SoundFor

/-- One event that meets the assumed policy keeps a pool sound and meets the ensured policy, when
the operation that it starts, if any, is safe. -/
theorem Config.Sound.fire_of {c c' : Config S O} {e : Event M} (hc : c.Sound D)
    (hops : ∀ op, e = .spawn op → Safe D c.workers.length (M.program op) c.world
      (fun _ _ => True) fun _ _ => True)
    (ha : D.assumes.Meets M c e) (h : c.fire M e = some c') :
    c'.Sound D ∧ D.ensures.Meets M c e := by
  obtain ⟨hsound, hens⟩ := hc.soundFor.fire_of .trivial hops ha h
  exact ⟨hsound.sound, hens⟩

/-- One event that meets the assumed policy keeps a pool sound and meets the ensured policy. -/
theorem Config.Sound.fire {c c' : Config S O} {e : Event M} (hc : c.Sound D)
    (hops : ∀ op i w, Safe D i (M.program op) w (fun _ _ => True) fun _ _ => True)
    (ha : D.assumes.Meets M c e) (h : c.fire M e = some c') :
    c'.Sound D ∧ D.ensures.Meets M c e :=
  hc.fire_of (fun op _ => hops op _ _) ha h

/-- A pool of safe programs is sound in every run that meets the assumed policy. -/
theorem Reaches.sound {c₀ c : Config S O} (h : Reaches M D.assumes c₀ c) (h₀ : c₀.Sound D)
    (hops : ∀ op i w, Safe D i (M.program op) w (fun _ _ => True) fun _ _ => True) :
    c.Sound D := by
  induction h with
  | start => exact h₀
  | next e _ ha hfire ih => exact (ih.fire hops ha hfire).1

/-- Whoever is not in the pool yet can rely on everything that happens in it. -/
theorem Config.Sound.fire_rely {c c' : Config S O} {e : Event M} {j : ℕ} (hc : c.Sound D)
    (ha : D.assumes.Meets M c e) (h : c.fire M e = some c') (hj : c.workers.length ≤ j) :
    D.rely j c.world c'.world := by
  have hother : ∀ i p, c.workers[i]? = some p → j ≠ i := by
    intro i p hp hij
    have hlt : i < c.workers.length := (List.getElem?_eq_some_iff.mp hp).1
    omega
  have hstill : ∀ i, D.Keeps i c.world c.world := fun i =>
    ⟨hc.inv, fun k _ => D.rely_refl k c.world⟩
  cases e with
  | spawn op =>
      obtain rfl : _ = c' := by simpa [Config.fire] using h
      exact D.rely_refl j _
  | commit i =>
      simp only [Config.fire] at h
      split at h
      next β tag f k hp =>
        obtain ⟨-, -, hok⟩ := hc.safe i _ hp c.world (D.rely_refl i _) hc.inv
        split at h
        next b s hf =>
          obtain rfl : _ = c' := by simpa using h
          exact ((hok b s hf (ha _ _ _ _ _ _ hp hf)).1.resume _).rely j (hother i _ hp)
        next e hf =>
          obtain rfl : _ = c' := by simpa using h
          exact ((hstill i).resume _).rely j (hother i _ hp)
      next => simp at h
  | abort i e =>
      simp only [Config.fire] at h
      split at h
      next β tag f k hp =>
        split at h
        next hfault =>
          obtain rfl : _ = c' := by simpa using h
          exact ((hstill i).resume _).rely j (hother i _ hp)
        next => simp at h
      next => simp at h
  | answer i r =>
      simp only [Config.fire] at h
      split at h
      next q k hp =>
        obtain ⟨o, hresp, rfl⟩ := Option.map_eq_some_iff.mp h
        have hkeep := (hc.safe i _ hp c.world (D.rely_refl i _) hc.inv (r q) o hresp
          (ha q k o hp hresp)).1
        exact (hkeep.resume _).rely j (hother i _ hp)
      next => simp at h
  | stop i =>
      simp only [Config.fire] at h
      split at h
      next hlt =>
        obtain rfl : _ = c' := by simpa using h
        exact ((hstill i).resume _).rely j (by omega)
      next => simp at h
  | tick t =>
      obtain ⟨o, ho, rfl⟩ := Option.map_eq_some_iff.mp h
      exact D.rely_tick j _ t o hc.inv ho

/-- A relation of the stores that every commit meets holds between any two moments of a run. -/
theorem Reaches.related {R : S.Store → S.Store → Prop} {c₀ c : Config S O}
    (h : Reaches M D.assumes c₀ c) (h₀ : c₀.Sound D)
    (hops : ∀ op i w, Safe D i (M.program op) w (fun _ _ => True) fun _ _ => True)
    (hrefl : ∀ s, R s s) (htrans : ∀ s₁ s₂ s₃, R s₁ s₂ → R s₂ s₃ → R s₁ s₃)
    (hcommit : ∀ i tag w w', D.ensures.commit i tag w w' → R w.store w'.store) :
    R c₀.world.store c.world.store := by
  induction h with
  | start => exact hrefl _
  | @next c c' e hreach ha hfire ih =>
      refine htrans _ _ _ ih ?_
      have hens := ((hreach.sound h₀ hops).fire hops ha hfire).2
      rcases Config.fire_store hfire with hsame | ⟨i, rfl, β, tag, f, k, b, hp, hf⟩
      · rw [hsame]
        exact hrefl _
      · exact hcommit i tag c.world (Config.committed M c.world i tag c'.world.store)
          (hens β tag f k b _ hp hf)

/-! ## Invariants of runs -/

/-- A property of the world that every event of a run keeps, by what the discipline ensures and the
run's policy assumes about it. -/
structure Kept (D : Discipline M) (P : Policy S O) (I : World S O → Prop) : Prop where
  /-- Every commit keeps it. -/
  commit : ∀ i tag w s, D.inv w → I w → P.commit i tag w (Config.committed M w i tag s) →
    D.ensures.commit i tag w (Config.committed M w i tag s) → I (Config.committed M w i tag s)
  /-- Every answered request keeps it. -/
  call : ∀ i q r w o, D.inv w → I w → M.respond i q r w.outside = some o →
    P.call i q w ⟨w.store, o⟩ → D.ensures.call i q w ⟨w.store, o⟩ → I ⟨w.store, o⟩
  /-- Every change of the outside keeps it. -/
  tick : ∀ w t o, I w → M.advance t w.outside = some o → I ⟨w.store, o⟩
  /-- A worker that is gone keeps it. -/
  retire : ∀ w i, I w → I ⟨w.store, M.retire i w.outside⟩

/-- A worker that goes on, or is recorded as gone, keeps what its step kept. -/
theorem Kept.resume {P : Policy S O} {I : World S O → Prop} (hI : Kept D P I) {c : Config S O}
    {p : Program S Unit} {w : World S O} (hw : I w) : I (c.resume M i p w).world := by
  unfold Config.resume
  split
  · exact hI.retire w i hw
  · exact hw

/-- A kept property that holds at the start holds in every run that meets the policy. -/
theorem Reaches.kept {P : Policy S O} {I : World S O → Prop} {c₀ c : Config S O}
    (h : Reaches M P c₀ c) (hI : Kept D P I) (h₀ : c₀.Sound D)
    (hops : ∀ op i w, Safe D i (M.program op) w (fun _ _ => True) fun _ _ => True)
    (hcommit : ∀ i tag w w', P.commit i tag w w' → D.assumes.commit i tag w w')
    (hcall : ∀ i q w w', P.call i q w w' → D.assumes.call i q w w') (hw : I c₀.world) :
    I c.world := by
  induction h with
  | start => exact hw
  | @next c c' e hreach hmeets hfire ih =>
      have hsound : c.Sound D := (hreach.mono hcommit hcall).sound h₀ hops
      have hens := (hsound.fire hops (hmeets.mono hcommit hcall) hfire).2
      cases e with
      | spawn op =>
          obtain rfl : _ = c' := by simpa [Config.fire] using hfire
          exact ih
      | commit i =>
          simp only [Config.fire] at hfire
          split at hfire
          next β tag f k hp =>
            split at hfire
            next b s hf =>
              obtain rfl : _ = c' := by simpa using hfire
              exact hI.resume (hI.commit i tag c.world s hsound.inv ih
                (hmeets β tag f k b s hp hf) (hens β tag f k b s hp hf))
            next e hf =>
              obtain rfl : _ = c' := by simpa using hfire
              exact hI.resume ih
          next => simp at hfire
      | abort i e =>
          simp only [Config.fire] at hfire
          split at hfire
          · split at hfire
            · obtain rfl : _ = c' := by simpa using hfire
              exact hI.resume ih
            · simp at hfire
          · simp at hfire
      | answer i r =>
          simp only [Config.fire] at hfire
          split at hfire
          next q k hp =>
            obtain ⟨o, hresp, rfl⟩ := Option.map_eq_some_iff.mp hfire
            exact hI.resume (hI.call i q (r q) c.world o hsound.inv ih hresp
              (hmeets q k o hp hresp) (hens q k o hp hresp))
          next => simp at hfire
      | stop i =>
          simp only [Config.fire] at hfire
          split at hfire
          · obtain rfl : _ = c' := by simpa using hfire
            exact hI.resume ih
          · simp at hfire
      | tick t =>
          obtain ⟨o, ho, rfl⟩ := Option.map_eq_some_iff.mp hfire
          exact hI.tick c.world t o ih ho

end Interleaving
