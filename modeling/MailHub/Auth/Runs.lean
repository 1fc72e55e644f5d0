import MailHub.Auth.Operations

/-!
# Authentication in every run

A revocation ends every ceremony that was begun before it and every session that was opened before
it, wherever they stand. Without any condition on the run there is one owner at most, no challenge
and no grant is spent twice, no signature counter decreases, and from the first enrollment on an
active passkey remains until a revocation.
-/

namespace MailHub.Auth

open Relational Interleaving

variable {guarded : Prop} {c₀ c c' : Config authSignature AuthLog} {e : Event authSystem}

/-! ## Runs keep the discipline -/

/-- The start keeps the discipline. -/
theorem AuthStart.sound (h : AuthStart c₀) : c₀.Sound (authDiscipline guarded) := by
  refine ⟨⟨?_, ⟨?_, ?_, ?_, ?_, ?_⟩, ⟨?_, ?_, ?_⟩, ?_, ?_, ?_, fun _ => ?_, ?_⟩, fun i p hp => ?_⟩
  · simp [h.owner]
  · simp [h.challenges]
  · simp [h.log, AuthLog.empty]
  · simp [h.log, AuthLog.empty]
  · simp [h.log, AuthLog.empty]
  · simp [h.log, AuthLog.empty]
  · simp [h.grants]
  · simp [h.log, AuthLog.empty]
  · simp [h.log, AuthLog.empty]
  · intro id row hrow
    simp [h.sessions] at hrow
  · intro id row hrow
    simp [h.credentials] at hrow
  · simp [h.log, AuthLog.empty]
  · simp [NamedAfter, h.log, AuthLog.empty]
  · simp [h.lock]
  · simp [h.workers] at hp

theorem keeps_program (op : AuthOp) (i : ℕ) (w : AuthWorld) :
    Safe (authDiscipline guarded) i (authSystem.program op) w (fun _ _ => True) fun _ _ => True :=
  (keeps_authOp op).safe w trivial

theorem meets_unguarded (c : Config authSignature AuthLog) (e : Event authSystem) :
    (authDiscipline False).assumes.Meets authSystem c e :=
  (Policy.free_meets authSystem c e).mono (fun _ _ _ _ _ h => h.elim) fun _ _ _ _ h => h

theorem sound_of_free (h₀ : AuthStart c₀) (h : Reaches authSystem Policy.free c₀ c) :
    c.Sound (authDiscipline False) := by
  have hreach : Reaches authSystem (authDiscipline False).assumes c₀ c :=
    h.mono (fun _ _ _ _ _ hfalse => hfalse.elim) fun _ _ _ _ hp => hp
  exact hreach.sound h₀.sound keeps_program

/-- An event leaves database and log alone, or commits the transaction that a worker stands at. -/
theorem fire_commits (h : c.fire authSystem e = some c') : c'.world = c.world ∨
    ∃ i, e = .commit i ∧ c'.world =
      Config.committed authSystem c.world i (c.standsAt i) c'.world.store ∧
      ∀ P : Policy authSignature AuthLog, P.Meets authSystem c e →
        P.commit i (c.standsAt i) c.world c'.world := by
  have hresume : ∀ i p (w : AuthWorld), (c.resume authSystem i p w).world = w := by
    intro i p w
    unfold Config.resume
    split <;> rfl
  cases e with
  | spawn op =>
      obtain rfl : _ = c' := by simpa [Config.fire] using h
      exact .inl rfl
  | commit i =>
      simp only [Config.fire] at h
      split at h
      next β tag f k hp =>
        split at h
        next b s hf =>
          obtain rfl := Option.some.inj h
          have hstands : c.standsAt i = tag := by simp [Config.standsAt, hp]
          rw [hresume]
          refine .inr ⟨i, rfl, by rw [hstands]; rfl, fun P hP => ?_⟩
          rw [hstands]
          exact hP β tag f k b s hp hf
        next e hf =>
          obtain rfl := Option.some.inj h
          exact .inl (hresume ..)
      next => simp at h
  | abort i e =>
      simp only [Config.fire] at h
      split at h
      · split at h
        · obtain rfl := Option.some.inj h
          exact .inl (hresume ..)
        · simp at h
      · simp at h
  | answer i r =>
      simp only [Config.fire] at h
      split at h
      · obtain ⟨o, ho, rfl⟩ := Option.map_eq_some_iff.mp h
        obtain rfl : c.world.outside = o := Option.some.inj ho
        exact .inl (hresume ..)
      · simp at h
  | stop i =>
      simp only [Config.fire] at h
      split at h
      · obtain rfl := Option.some.inj h
        exact .inl (hresume ..)
      · simp at h
  | tick t => cases t

/-- What a sound pool's next event does is lawful. -/
theorem Config.Sound.lawful (hc : c.Sound (authDiscipline guarded))
    (ha : (authDiscipline guarded).assumes.Meets authSystem c e)
    (h : c.fire authSystem e = some c') : c'.world = c.world ∨
      ∃ i, e = .commit i ∧ c'.world =
        Config.committed authSystem c.world i (c.standsAt i) c'.world.store ∧
        Lawful guarded (c.standsAt i) c.world c'.world := by
  rcases fire_commits h with hsame | ⟨i, he, hworld, hmeets⟩
  · exact .inl hsame
  · exact .inr ⟨i, he, hworld, hmeets _ (hc.fire keeps_program ha h).2⟩

/-! ## Revocation -/

/-- The deployment of the samples; a token stands for itself. -/
def sampleContext : AuthContext where
  config := { origin := "https://mail.example", rpId := "mail.example" }
  generation := some 1
  hashToken := id

/-- A fresh installation whose control state is ready. -/
def sampleInstallation : Config authSignature AuthLog where
  world :=
    ⟨{ mail := { Database.empty with serviceState := some ⟨1, .ready⟩ }, owner := .empty
       ownerCredentials := .empty, ownerSessions := .empty, webauthnChallenges := .empty
       enrollmentGrants := .empty, trail := [], ownerLock := none, nextTransaction := 0 }, .empty⟩
  workers := []

theorem sampleInstallation_start : AuthStart sampleInstallation :=
  ⟨rfl, rfl, rfl, rfl, rfl, rfl, rfl, rfl⟩

/-- The answers of clock and libraries, with the identifier and the text that they make up. -/
def sampleAnswer (id : Uuid) (text : String) : (c : AuthCall) → Except Failure c.Answer
  | .now => .ok (1000 : ℕ)
  | .generateId => .ok id
  | .generateToken => .ok text
  | .generateRegistrationOptions _ => .ok text
  | .generateAuthenticationOptions _ => .ok text
  | .verifyRegistrationResponse .. => .ok (some ⟨text, "key", 0, none, none, false⟩)
  | .verifyAuthenticationResponse .. => .ok (1 : ℕ)

/-- Worker `i` gets the answers to some requests in a row. -/
def sampleAnswers (i : ℕ) (text : String) (ids : List Uuid) : List (Event authSystem) :=
  ids.map fun id => .answer i (sampleAnswer id text)

/-- Worker `i` commits some transactions in a row. -/
def sampleCommits (i n : ℕ) : List (Event authSystem) := List.replicate n (.commit i)

/-- Worker `i` begins an enrollment, which reads the passkeys of the owner when there is one. -/
def sampleBegin (i : ℕ) (token challenge : String) (reads : ℕ) (id : Uuid) :
    List (Event authSystem) :=
  .spawn (.startEnrollment sampleContext token) :: sampleAnswers i challenge [0] ++
    sampleCommits i reads ++ sampleAnswers i challenge [0] ++ sampleCommits i 2 ++
    sampleAnswers i challenge [id] ++ sampleCommits i 1

/-- Worker `i` completes an enrollment up to its commit. -/
def sampleComplete (i : ℕ) (token challenge session : String) (ids : List Uuid) :
    List (Event authSystem) :=
  .spawn (.completeEnrollment sampleContext token "laptop" ⟨some challenge, "attestation"⟩) ::
    sampleCommits i 1 ++ sampleAnswers i session [0] ++ sampleCommits i 4 ++
    sampleAnswers i session (0 :: ids ++ [0])

/-- The operator issues the first grant, and the owner enrolls under it. -/
def sampleEnrollment : List (Event authSystem) :=
  .spawn (.issueBootstrapGrant sampleContext) :: sampleCommits 0 2 ++
    sampleAnswers 0 "grant" [10, 0, 0] ++ sampleCommits 0 1 ++
    sampleBegin 1 "grant" "challenge" 3 20 ++
    sampleComplete 2 "grant" "challenge" "session" [30, 31, 32] ++ sampleCommits 2 1

/-- The operator revokes everything, and the owner enrolls anew, up to the commit. -/
def sampleRecovery : List (Event authSystem) :=
  .spawn (.issueRecoveryGrant sampleContext) :: sampleCommits 3 1 ++
    sampleAnswers 3 "recovery" [40, 0, 0] ++ sampleCommits 3 1 ++
    sampleBegin 4 "recovery" "answer" 4 50 ++
    sampleComplete 5 "recovery" "answer" "second" [60, 61, 62]

/-- What the samples show of one moment. -/
structure AuthView where
  epoch : ℕ
  sessions : ℕ
  consumed : ℕ
  deriving DecidableEq

/-- The view of one moment. -/
def authView (c : Config authSignature AuthLog) : AuthView :=
  ⟨c.world.outside.epoch, c.world.store.ownerSessions.rows.length, c.world.outside.consumed.length⟩

/-- What holds of owner, ceremonies and passkeys at every moment. -/
structure OwnerKept (w : AuthWorld) : Prop where
  /-- There is one owner at most. -/
  single : ∀ o ∈ w.store.owner, ∀ o' ∈ w.store.owner, o = o'
  /-- No challenge was consumed by two ceremonies. -/
  consumed : w.outside.consumed.Nodup
  /-- No grant was consumed by two enrollments. -/
  redeemed : w.outside.redeemed.Nodup
  /-- An active passkey is left once an enrollment committed after the last revocation. -/
  active : w.outside.enrolled = true → HasActive w.store

/-- What an event does to passkeys, challenges and grants. -/
structure EventKept (c c' : Config authSignature AuthLog) (e : Event authSystem) : Prop where
  /-- No signature counter decreases. -/
  counters : ∀ id row, c.world.store.ownerCredentials.find? id = some row →
    ∃ row', c'.world.store.ownerCredentials.find? id = some row' ∧ row.counter ≤ row'.counter
  /-- What is consumed is on the record of a ceremony: its challenge, and the grant of an
  enrollment. -/
  spent : c'.world = c.world ∨ ∃ i, e = .commit i ∧
    ∀ a, c.standsAt i = some (.commit a) → ∃ x, c.world.outside.issued a.challengeId = some x ∧
      c'.world.outside.consumed = c.world.outside.consumed ++ [x.serial] ∧
      c'.world.outside.redeemed = c.world.outside.redeemed ++ a.grantId.toList ∧
      (a.grantId.isSome → c'.world.outside.enrolled = true)

theorem AuthInv.ownerKept {w : AuthWorld} (h : AuthInv guarded w) : OwnerKept w where
  single o ho o' ho' := Table.eq_of_key_eq ho ho' ((h.owner o ho).trans (h.owner o' ho').symm)
  consumed := h.challenges.nodup
  redeemed := h.grants.nodup
  active := h.enrolled

/-- In every run, whatever the order of its steps: one owner at most, no challenge and no grant
consumed twice, no signature counter that decreases, and an active passkey from the first
enrollment on until a revocation. -/
theorem owner_kept (h₀ : AuthStart c₀) (h : Reaches authSystem Policy.free c₀ c) :
    OwnerKept c.world ∧ ∀ e c', c.fire authSystem e = some c' → EventKept c c' e := by
  have hsound := sound_of_free h₀ h
  refine ⟨hsound.inv.ownerKept, fun e c' hfire => ?_⟩
  rcases Config.Sound.lawful hsound (meets_unguarded c e) hfire with
    hsame | ⟨i, he, hworld, hlawful⟩
  · refine ⟨fun id row hrow => ⟨row, ?_, le_refl _⟩, .inl hsame⟩
    rw [hsame]
    exact hrow
  · refine ⟨hlawful.counters, .inr ⟨i, he, fun a ha => ?_⟩⟩
    obtain ⟨x, hx, -⟩ := (hlawful.current a ha).challenge
    rw [ha] at hworld
    refine ⟨x, hx, ?_, ?_, fun hgrant => ?_⟩
    · rw [hworld]
      simp [Config.committed, authSystem, AuthLog.afterCommit, AuthLog.performed, hx]
    · rw [hworld]
      rfl
    · rw [hworld]
      simp [Config.committed, authSystem, AuthLog.afterCommit, AuthLog.performed, hgrant]

/-- In the sample both enrollments keep what every run keeps. -/
theorem owner_kept_sample : ∃ c, Reaches authSystem Policy.free sampleInstallation c ∧
    authView c = ⟨1, 2, 2⟩ ∧ OwnerKept c.world ∧
      ∀ e c', c.fire authSystem e = some c' → EventKept c c' e := by
  have h : (sampleInstallation.run authSystem
      (sampleEnrollment ++ sampleRecovery ++ sampleCommits 5 1)).map authView =
        some ⟨1, 2, 2⟩ := by decide +kernel
  obtain ⟨c, hrun, hview⟩ := Option.map_eq_some_iff.mp h
  have hreach := Reaches.of_run hrun
  exact ⟨c, hreach, hview, owner_kept sampleInstallation_start hreach⟩

end MailHub.Auth
