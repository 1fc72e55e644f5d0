import MailHub.Interleaving.Roles

/-!
# Records beside a run

A tracker keeps a record of a run beside its outside: what it notes has no effect on the run, so a
tracked run is a run of the system with something more to say about it, and every run can be
tracked. What a discipline of the system ensures can be relied on in tracked runs.
-/

namespace Interleaving

variable {S : Signature} {O G : Type}

/-! ## Trackers -/

/-- How a record develops along a run. -/
structure Tracker (S : Signature) (G : Type) where
  /-- The record after a commit of worker `i`. -/
  commit : ℕ → Option S.Tag → S.Store → S.Store → G → G
  /-- Reading leaves no record. -/
  commit_read : ∀ i s g, commit i none s s g = g
  /-- The record after an answer to worker `i`. -/
  answer : ℕ → (c : S.Call) → Except S.Failure (S.Answer c) → G → G := fun _ _ _ g => g
  /-- The record after worker `i` is gone. -/
  retire : ℕ → G → G := fun _ g => g

/-- A system with a tracker beside it. -/
def System.track (M : System S O) (T : Tracker S G) : System S (O × G) where
  Op := M.Op
  program := M.program
  Tick := M.Tick
  advance t o := (M.advance t o.1).map fun o' => (o', o.2)
  respond i c r o := (M.respond i c r o.1).map fun o' => (o', T.answer i c r o.2)
  fault := M.fault
  observe i tag s s' o := (M.observe i tag s s' o.1, T.commit i tag s s' o.2)
  observe_read i s o := by rw [M.observe_read, T.commit_read]
  retire i o := (M.retire i o.1, T.retire i o.2)

/-- A world without its record. -/
def World.untrack (w : World S (O × G)) : World S O := ⟨w.store, w.outside.1⟩

/-- A pool without its record. -/
def Config.untrack (c : Config S (O × G)) : Config S O := ⟨c.world.untrack, c.workers⟩

variable {M : System S O} {T : Tracker S G}

/-- An event of a tracked run, as an event of the run. -/
def Event.untrack : Event (M.track T) → Event M
  | .spawn op => .spawn op
  | .commit i => .commit i
  | .abort i e => .abort i e
  | .answer i r => .answer i r
  | .stop i => .stop i
  | .tick t => .tick t

/-- An event of a run, as an event of the tracked run. -/
def Event.track : Event M → Event (M.track T)
  | .spawn op => .spawn op
  | .commit i => .commit i
  | .abort i e => .abort i e
  | .answer i r => .answer i r
  | .stop i => .stop i
  | .tick t => .tick t

/-! ## Tracked runs -/

variable {c c' : Config S (O × G)} {e : Event (M.track T)}

theorem Config.untrack_resume (c : Config S (O × G)) (i : ℕ) (p : Program S Unit)
    (w : World S (O × G)) :
    (c.resume (M.track T) i p w).untrack = c.untrack.resume M i p w.untrack := by
  unfold Config.resume Config.untrack
  split <;> rfl

/-- What an event does to a tracked pool is what it does to the pool. -/
theorem Config.fire_track (c : Config S (O × G)) (e : Event M) :
    (c.fire (M.track T) e.track).map Config.untrack = c.untrack.fire M e := by
  cases e with
  | spawn op => rfl
  | commit i =>
      have hworkers : c.untrack.workers = c.workers := rfl
      simp only [Event.track, Config.fire, hworkers]
      rcases c.workers[i]? with _ | p
      · rfl
      · cases p with
        | atomic tag f k =>
            simp only []
            have hstore : f c.untrack.world.store = f c.world.store := rfl
            rw [hstore]
            rcases f c.world.store with e | ⟨b, s⟩
            · exact congrArg some (Config.untrack_resume ..)
            · exact congrArg some (Config.untrack_resume ..)
        | pure a | throw e | halt | call q k => rfl
  | abort i e =>
      have hworkers : c.untrack.workers = c.workers := rfl
      simp only [Event.track, Config.fire, hworkers]
      rcases c.workers[i]? with _ | p
      · rfl
      · cases p with
        | atomic tag f k =>
            have hfault : (M.track T).fault e = M.fault e := rfl
            simp only [hfault]
            split
            · exact congrArg some (Config.untrack_resume ..)
            · rfl
        | pure a | throw e | halt | call q k => rfl
  | answer i r =>
      have hworkers : c.untrack.workers = c.workers := rfl
      simp only [Event.track, Config.fire, hworkers]
      rcases c.workers[i]? with _ | p
      · rfl
      · cases p with
        | call q k =>
            have hrespond : (M.track T).respond i q (r q) c.world.outside =
                (M.respond i q (r q) c.untrack.world.outside).map fun o =>
                  (o, T.answer i q (r q) c.world.outside.2) := rfl
            simp only [hrespond, Option.map_map]
            rcases M.respond i q (r q) c.untrack.world.outside with _ | o
            · rfl
            · exact congrArg some (Config.untrack_resume ..)
        | pure a | throw e | halt | atomic tag f k => rfl
  | stop i =>
      have hworkers : c.untrack.workers = c.workers := rfl
      simp only [Event.track, Config.fire, hworkers]
      split
      · exact congrArg some (Config.untrack_resume ..)
      · rfl
  | tick t =>
      simp only [Event.track, Config.fire]
      have hadvance : (M.track T).advance t c.world.outside =
          (M.advance t c.untrack.world.outside).map fun o => (o, c.world.outside.2) := rfl
      rw [hadvance]
      rcases M.advance t c.untrack.world.outside with _ | o <;> rfl

/-- An event of a tracked run is one of the run. -/
theorem Config.fire_untrack (h : c.fire (M.track T) e = some c') :
    c.untrack.fire M e.untrack = some c'.untrack := by
  have htrack : e.untrack.track = e := by cases e <;> rfl
  rw [← Config.fire_track (T := T), htrack, h, Option.map_some]

/-- Every event can be tracked. -/
theorem Config.exists_fire_track {d : Config S O} {e : Event M} (h : c.untrack.fire M e = some d) :
    ∃ c', c.fire (M.track T) e.track = some c' ∧ c'.untrack = d :=
  Option.map_eq_some_iff.mp ((Config.fire_track c e).trans h)

/-! ## Conditions -/

/-- A condition on the runs of a system, on its tracked runs. -/
def Policy.lift (G : Type) (P : Policy S O) : Policy S (O × G) :=
  ⟨fun i tag w w' => P.commit i tag w.untrack w'.untrack,
    fun i q w w' => P.call i q w.untrack w'.untrack⟩

theorem Policy.Meets.lift {P : Policy S O} (h : P.Meets M c.untrack e.untrack) :
    (P.lift G).Meets (M.track T) c e := by
  cases e with
  | commit i => exact fun β tag f k b s hp hf => h β tag f k b s hp hf
  | answer i r =>
      intro q k o hp ho
      obtain ⟨o', ho', rfl⟩ := Option.map_eq_some_iff.mp ho
      exact h q k o' hp ho'
  | spawn _ | abort _ _ | stop _ | tick _ => trivial

theorem Policy.Meets.untrack {P : Policy S O} {Q : Policy S (O × G)}
    (h : Q.Meets (M.track T) c e)
    (hcommit : ∀ i tag w w', Q.commit i tag w w' → P.commit i tag w.untrack w'.untrack)
    (hcall : ∀ i q w w', Q.call i q w w' → P.call i q w.untrack w'.untrack) :
    P.Meets M c.untrack e.untrack := by
  cases e with
  | commit i => exact fun β tag f k b s hp hf => hcommit _ _ _ _ (h β tag f k b s hp hf)
  | answer i r =>
      intro q k o hp ho
      have ho' : (M.track T).respond i q (r q) c.world.outside =
          some (o, T.answer i q (r q) c.world.outside.2) := Option.map_eq_some_iff.mpr ⟨o, ho, rfl⟩
      exact hcall _ _ _ _ (h q k _ hp ho')
  | spawn _ | abort _ _ | stop _ | tick _ => trivial

variable {ops : ℕ → M.Op} {c₀ : Config S (O × G)} {P : Policy S O} {Q : Policy S (O × G)}

/-- A tracked run is a run. -/
theorem ReachesAs.untrack (h : ReachesAs (M.track T) ops Q c₀ c)
    (hcommit : ∀ i tag w w', Q.commit i tag w w' → P.commit i tag w.untrack w'.untrack)
    (hcall : ∀ i q w w', Q.call i q w w' → P.call i q w.untrack w'.untrack) :
    ReachesAs M ops P c₀.untrack c.untrack := by
  induction h with
  | start => exact .start
  | @next c c' e _ hmeets hspawn hfire ih =>
      refine .next e.untrack ih (hmeets.untrack hcommit hcall) (fun op hop => ?_)
        (Config.fire_untrack hfire)
      cases e with
      | spawn op' => exact hspawn op hop
      | commit i | abort i e | answer i r | stop i | tick t =>
          simp [Event.untrack, Event.spawned] at hop

/-- Every run can be tracked. -/
theorem ReachesAs.exists_track {d : Config S O} (h : ReachesAs M ops P c₀.untrack d) :
    ∃ c, ReachesAs (M.track T) ops (P.lift G) c₀ c ∧ c.untrack = d := by
  induction h with
  | start => exact ⟨c₀, .start, rfl⟩
  | @next d d' e _ hmeets hspawn hfire ih =>
      obtain ⟨c, hreach, rfl⟩ := ih
      obtain ⟨c', hfire', rfl⟩ := Config.exists_fire_track (T := T) hfire
      have huntrack : (e.track : Event (M.track T)).untrack = e := by cases e <;> rfl
      have hlift : (P.lift G).Meets (M.track T) c e.track := .lift (by rwa [huntrack])
      refine ⟨c', .next e.track hreach hlift (fun op hop => ?_) hfire', rfl⟩
      cases e with
      | spawn op' => exact hspawn op hop
      | commit i | abort i e | answer i r | stop i | tick t =>
          simp [Event.track, Event.spawned] at hop

variable {D : Discipline M}

/-- What a discipline of the system ensures can be relied on in tracked runs. -/
theorem ReachesAs.and_ensures_lift (h : ReachesAs (M.track T) ops Q c₀ c)
    (h₀ : c₀.untrack.Sound D)
    (hops : ∀ op i w, Safe D i (M.program op) w (fun _ _ => True) fun _ _ => True)
    (hcommit : ∀ i tag w w', Q.commit i tag w w' → D.assumes.commit i tag w.untrack w'.untrack)
    (hcall : ∀ i q w w', Q.call i q w w' → D.assumes.call i q w.untrack w'.untrack) :
    ReachesAs (M.track T) ops (Q.and (D.ensures.lift G)) c₀ c := by
  induction h with
  | start => exact .start
  | next e hreach hmeets hspawn hfire ih =>
      have hsound := (hreach.untrack hcommit hcall).reaches.sound h₀ hops
      have hens := (hsound.fire hops (hmeets.untrack hcommit hcall) (Config.fire_untrack hfire)).2
      exact .next e ih (hmeets.and hens.lift) hspawn hfire

end Interleaving
