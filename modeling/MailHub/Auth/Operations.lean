import MailHub.Auth.Keeping

/-!
# Safe ceremonies

The walk along every operation of the API and of the console.
-/

namespace MailHub.Auth

open Relational Interleaving

open AuthProgram (query transact transactAs reject)

variable {guarded : Prop} {i : ℕ} {α : Type} {w : AuthWorld}

/-! ## What the completion of a ceremony knows -/

/-- A response that named a challenge arrived in epoch `e`; since then a session was found open,
and the challenge was found under an identifier. -/
structure Attempt (guarded : Prop) (named : Option String) (e : ℕ)
    (session challenge : Option Uuid) (w : AuthWorld) : Prop where
  past : e ≤ w.outside.epoch
  arrived : ∀ value, named = some value → (value, e) ∈ w.outside.named
  since : ∀ s, session = some s →
    (w.store.ownerSessions.find? s).isSome ∧ e ≤ w.outside.opened s
  answers : guarded → ∀ id, challenge = some id → ∃ value x, named = some value ∧
    w.outside.issued id = some x ∧ x.challenge = value

variable {named : Option String} {e : ℕ} {session challenge : Option Uuid}

theorem stable_attempt :
    Stable (authDiscipline guarded) i (Attempt guarded named e session challenge) := by
  intro w w' hr _ h
  refine ⟨le_trans h.past hr.epoch, fun value hv => hr.named _ (h.arrived value hv),
    fun s hs => ?_, fun hg id hid => ?_⟩
  · obtain ⟨hsome, hle⟩ := h.since s hs
    obtain ⟨hsome', hopened⟩ := hr.sessions s hsome
    exact ⟨hsome', hopened ▸ hle⟩
  · obtain ⟨value, x, hvalue, hx, heq⟩ := h.answers hg id hid
    exact ⟨value, x, hvalue, hr.issued hg id x hx, heq⟩

/-- Under unforeseeable challenges a session that answers a live challenge is of this epoch. -/
theorem Attempt.current {s id : Uuid} (h : Attempt guarded named e (some s) (some id) w)
    (hi : AuthInv guarded w) (hg : guarded) (hlive : ∃ row,
      w.store.webauthnChallenges.find? id = some row ∧ row.isLive = true) :
    w.outside.opened s = w.outside.epoch := by
  obtain ⟨row, hrow, hlive⟩ := hlive
  obtain ⟨value, x, hvalue, hx, hchallenge⟩ := h.answers hg id rfl
  obtain ⟨y, hy, -, hepoch, -⟩ := hi.challenges.issued row (Table.mem_of_find? hrow)
  have hid : row.id = id := Table.key_of_find? hrow
  obtain rfl : x = y := Option.some.inj (hx.symm.trans (hid ▸ hy))
  -- the challenge was issued before the response named it, and the session was open after that
  have hbefore : x.epoch ≤ e := hi.named hg value e (h.arrived value hvalue) id x hx hchallenge
  obtain ⟨hsome, hsince⟩ := h.since s rfl
  obtain ⟨opened, hopened⟩ := Option.isSome_iff_exists.mp hsome
  have hbound := (hi.sessions s opened hopened).1
  have hnow := hepoch hlive
  omega

/-- A response arrives. -/
theorem safe_arrive : Safe (authDiscipline guarded) i (arrive named) w
    (fun _ w' => ∃ e, Attempt guarded named e none none w') fun _ _ => True := by
  cases named with
  | none =>
      refine .pure fun w' _ _ =>
        ⟨0, Nat.zero_le _, fun _ h => ?_, fun _ h => ?_, fun _ _ h => ?_⟩ <;> cases h
  | some value =>
  refine .transaction (fun w' hr hi b db' hrun _ => ?_) fun _ _ _ _ _ => trivial
  obtain rfl : w'.store = db' := (Prod.mk.inj (Except.ok.inj hrun)).2
  let log : AuthLog :=
    { w'.outside with named := w'.outside.named ++ [(value, w'.outside.epoch)] }
  have hworld : Config.committed authSystem w' i (some (.arrive value)) w'.store =
      ⟨w'.store, log⟩ := rfl
  have hrely : AuthRely guarded w' ⟨w'.store, log⟩ := by
    have hrefl : AuthRely guarded w' w' := .refl w'
    exact ⟨hrefl.epoch, fun a ha => List.mem_append_left _ ha, hrefl.issued, hrefl.grants,
      hrefl.sessions, hrefl.credentials, hrefl.next, hrefl.lock⟩
  have hinv : AuthInv guarded ⟨w'.store, log⟩ := by
    refine ⟨hi.owner, ⟨hi.challenges.issued, hi.challenges.serial, hi.challenges.distinct,
      hi.challenges.nodup, hi.challenges.bounded⟩, ⟨hi.grants.granted, hi.grants.nodup,
      hi.grants.stored⟩, hi.sessions, hi.credentials, hi.enrolled, fun hg v e hv id x hx hxv => ?_,
      hi.lock⟩
    rcases List.mem_append.mp hv with hold | hnew
    · exact hi.named hg v e hold id x hx hxv
    · obtain ⟨-, rfl⟩ := Prod.mk.inj (List.mem_singleton.mp hnew)
      exact (hi.challenges.serial id x hx).2
  rw [hworld]
  refine ⟨⟨hinv, fun _ _ => hrely⟩, ⟨hrely, fun _ row h => ⟨row, h, le_refl _⟩, .inl (.refl _),
    fun _ h => absurd h (by simp), fun _ h => absurd h (by simp)⟩, .pure fun w₂ hr₂ _ =>
      ⟨w'.outside.epoch, ?_⟩⟩
  refine stable_attempt (i := i) _ _ hr₂ ‹_› ⟨le_refl _, fun v hv => ?_, fun _ h => ?_,
    fun _ _ h => ?_⟩
  · obtain rfl := Option.some.inj hv
    exact List.mem_append_right _ (List.mem_singleton_self _)
  · cases h
  · cases h

/-- A session that is found open is open since the response arrived. -/
theorem safe_verifySession {ctx : AuthContext} {token : String}
    (h : Attempt guarded named e none none w) :
    Safe (authDiscipline guarded) i (verifySession ctx token) w
      (fun row => Attempt guarded named e (some row.id) none) fun _ _ => True := by
  refine .bind (.read (fun w' hr hi => .pure fun w₂ hr₂ hi₂ => ?_) fun _ _ _ _ _ => trivial)
  have h' := stable_attempt (i := i) _ _ hr hi h
  cases hrow : readSessionByToken (ctx.hashToken token) w'.store with
  | none => exact .throw fun _ _ _ => trivial
  | some row =>
  have hfind : w'.store.ownerSessions.find? row.id = some row :=
    Table.mem_iff_find?.mp (List.mem_of_find?_eq_some hrow)
  by_cases hopen : row.isOpen = true
  · have hsince : Attempt guarded named e (some row.id) none w' := by
      refine ⟨h'.past, h'.arrived, fun s hs => ?_, h'.answers⟩
      obtain rfl := Option.some.inj hs
      rw [hfind, (hi.sessions _ row hfind).2 hopen]
      exact ⟨rfl, h'.past⟩
    have hknown := stable_attempt (i := i) _ _ hr₂ hi₂ hsince
    refine (preserves_ask stable_attempt .now).andThen hknown (fun now w₃ h₃ => ?_)
      fun _ _ _ => trivial
    by_cases hvalid : row.isOpen = false ∨ row.expiresAt ≤ now
    · rw [if_pos hvalid]
      exact .throw fun _ _ _ => trivial
    rw [if_neg hvalid]
    refine (preserves_controlStatus stable_attempt ctx).andThen h₃ (fun status w₄ h₄ => ?_)
      fun _ _ _ => trivial
    cases openGeneration status with
    | none => exact .throw fun _ _ _ => trivial
    | some opened =>
        obtain ⟨generation, kind⟩ := opened
        dsimp only
        split
        · exact .throw fun _ _ _ => trivial
        split
        · exact .throw fun _ _ _ => trivial
        · exact .pure fun w₅ hr₅ hi₅ => stable_attempt _ _ hr₅ hi₅ h₄
  · refine (preserves_ask (K := fun _ => True) .trivial .now).andThen trivial (fun now w₃ _ => ?_)
      fun _ _ _ => trivial
    rw [if_pos (.inl (Bool.eq_false_iff.mpr hopen))]
    exact .throw fun _ _ _ => trivial

/-- The challenge that is found is the one that the response names. -/
theorem safe_challengeForResponse {purpose : ChallengePurpose} {now : Time}
    (h : Attempt guarded named e session none w) :
    Safe (authDiscipline guarded) i (challengeForResponse named purpose now) w
      (fun row => Attempt guarded named e session (some row.id)) fun _ _ => True := by
  refine .bind (.ofExcept (fun value hvalue w₁ hr₁ hi₁ => ?_) fun _ _ _ _ _ => trivial)
  have hnamed : named = some value := by
    unfold parseClientData at hvalue
    split at hvalue
    · split at hvalue
      · cases hvalue
      · rw [Except.ok.inj hvalue]
    · cases hvalue
  have h₁ := stable_attempt (i := i) _ _ hr₁ hi₁ h
  refine .bind (.read (fun w' hr hi => .pure fun w₂ hr₂ hi₂ => ?_) fun _ _ _ _ _ => trivial)
  have h' := stable_attempt (i := i) _ _ hr hi h₁
  cases hrow : findLiveChallenge value purpose w'.store with
  | none => exact .throw fun _ _ _ => trivial
  | some row =>
  have hfound := List.find?_some hrow
  simp only [Bool.and_eq_true, beq_iff_eq] at hfound
  have hanswers : Attempt guarded named e session (some row.id) w' := by
    refine ⟨h'.past, h'.arrived, h'.since, fun hg id hid => ?_⟩
    obtain rfl := Option.some.inj hid
    obtain ⟨x, hx, hchallenge, -⟩ := hi.challenges.issued row (List.mem_of_find?_eq_some hrow)
    exact ⟨value, x, hnamed, hx, hchallenge.trans hfound.1.1⟩
  dsimp only
  split
  · exact .throw fun _ _ _ => trivial
  · exact .pure fun w₃ hr₃ hi₃ => stable_attempt (i := i) _ _ (hr₂.trans hr₃) hi₃ hanswers

/-- The challenge of a verified assertion is the one that the response names. -/
theorem safe_verifyAssertion {ctx : AuthContext} {response : AuthenticationResponse}
    {purpose : ChallengePurpose} {ownerId : Uuid} {now : Time}
    (h : Attempt guarded response.challenge e session none w) :
    Safe (authDiscipline guarded) i (verifyAssertion ctx response purpose ownerId now) w
      (fun r => Attempt guarded response.challenge e session (some r.1.id)) fun _ _ => True := by
  refine .bind ((safe_challengeForResponse h).mono (fun row w₁ hi₁ h₁ => ?_) fun _ _ _ => id)
  split
  · exact .throw fun _ _ _ => trivial
  refine (preserves_query stable_attempt _).andThen h₁ (fun found w₂ h₂ => ?_) fun _ _ _ => trivial
  cases found.filter fun row => row.ownerId == ownerId with
  | none => exact .throw fun _ _ _ => trivial
  | some credential =>
      refine (preserves_verifyWebauthn stable_attempt (preserves_ask stable_attempt _)).andThen h₂
        (fun counter w₃ h₃ => ?_) fun _ _ _ => trivial
      exact .pure fun w₄ hr₄ hi₄ => stable_attempt _ _ hr₄ hi₄ h₃

/-! ## Commits of ceremonies -/

/-- The commit of a ceremony is safe when its session is of this epoch once its challenge is found
live. -/
theorem safe_ceremony {c : Ceremony} {t : AuthTx α}
    (ht : ∀ db b db', t.run db = .ok (b, db') → CeremonyStep c db db')
    (hsession : guarded → ∀ s, c.sessionId = some s → ∃ named e,
      Attempt guarded named e (some s) (some c.challengeId) w) :
    Safe (authDiscipline guarded) i (transactAs (.commit c) t) w (fun _ _ => True)
      fun _ _ => True := by
  refine .transaction (fun w' hr hi b db' hrun _ => ?_) fun _ _ _ _ _ => trivial
  have hstep := ht w'.store b db' hrun
  have hworld : Config.committed authSystem w' i (some (.commit c)) db' =
      ⟨db', w'.outside.performed w'.store db' c⟩ := rfl
  rw [hworld]
  have hrely : AuthRely guarded w' ⟨db', w'.outside.performed w'.store db' c⟩ := .performed hstep
  refine ⟨⟨hi.performed hstep, fun _ _ => hrely⟩, ⟨hrely, fun id row hrow => ?_, .inr ⟨c, rfl⟩,
    fun c' hc' => ?_, fun c' hc' id row row' hrow hrow' hne => ?_⟩, .pure fun _ _ _ => trivial⟩
  · obtain ⟨row', hrow', hcounter, -⟩ := hstep.credentialsKept id row hrow
    exact ⟨row', hrow', hcounter⟩
  · obtain rfl : c = c' := by simpa using hc'
    refine ⟨?_, fun g hg => ?_, fun hg s hs => ?_, fun cr hcr => ?_⟩
    · obtain ⟨row, hrow, hlive⟩ := hstep.challenge
      obtain ⟨x, hx, -, hepoch, -⟩ := hi.challenges.issued row (Table.mem_of_find? hrow)
      have hid : row.id = c.challengeId := Table.key_of_find? hrow
      exact ⟨x, hid ▸ hx, hepoch hlive⟩
    · obtain ⟨row, hrow, hlive⟩ := hstep.grant g hg
      have hid : row.id = g := Table.key_of_find? hrow
      rw [← hid]
      exact (hi.grants.granted row (Table.mem_of_find? hrow)).2.1 hlive
    · obtain ⟨named, e, hattempt⟩ := hsession hg s hs
      exact (stable_attempt (i := i) _ _ hr hi hattempt).current hi hg hstep.challenge
    · obtain ⟨row, hrow, hactive⟩ := hstep.credential cr hcr
      exact (hi.credentials cr row hrow).2 hactive
  · obtain rfl : c = c' := by simpa using hc'
    rcases hstep.sessions id row' hrow' with hnone | ⟨row₀, hrow₀, hmarked, -⟩
    · rw [hnone] at hrow
      cases hrow
    · obtain rfl := Option.some.inj (hrow.symm.trans hrow₀)
      exact hmarked hne

/-! ## Beginning a ceremony -/

/-- The program keeps the discipline with nothing to know. -/
abbrev KeepsAuth {α : Type} (guarded : Prop) (i : ℕ) (p : AuthProgram α) : Prop :=
  Preserves (authDiscipline guarded) i (fun _ => True) p

theorem keeps_query (f : AuthDatabase → α) : KeepsAuth guarded i (query f) :=
  preserves_query .trivial f

theorem keeps_ask (c : AuthCall) : KeepsAuth guarded i (AuthProgram.ask c) :=
  preserves_ask .trivial c

theorem keeps_pure (a : α) : KeepsAuth guarded i (pure a) := .pure .trivial a

/-- The issue of a challenge is recorded. -/
theorem keeps_insertChallenge (row : WebauthnChallenge) (hnew : row.consumedAt = none) :
    KeepsAuth guarded i
      (transactAs (.issueChallenge row.id row.challenge) (AuthTx.insertChallenge row)) := by
  refine ⟨fun w _ => safe_lightly (by simp) (fun w' _ _ hguard b db' hrun => ?_)
    fun _ _ _ _ => trivial⟩
  obtain ⟨hstep, hsame⟩ := insertChallenge_issues hnew hrun
  refine ⟨⟨false, some (row.id, row.challenge), none, rfl, hstep, fun h => absurd h (by simp),
    fun _ hactive => hactive.of_same hsame, fun hg id value hc => ?_⟩, fun _ _ _ => trivial⟩
  obtain ⟨rfl, rfl⟩ := Prod.mk.inj (Option.some.inj hc)
  exact hguard hg _ _ rfl

theorem keeps_issueChallenge (ctx : AuthContext) (purpose : ChallengePurpose)
    (ownerId : Option Uuid) (challenge : String) (generation : Uuid) (now : Time) :
    KeepsAuth guarded i (issueChallenge ctx purpose ownerId challenge generation now) := by
  refine .bind (preserves_same .trivial fun _ _ _ h => deleteExpiredChallenges_issues h) fun _ => ?_
  refine .bind (keeps_query _) fun live => .ite (fun _ => .throw_bind .trivial) fun _ => ?_
  exact .bind (keeps_ask _) fun id => keeps_insertChallenge ⟨id, _, _, _, _, _, _, _⟩ rfl

theorem keeps_startEnrollment (ctx : AuthContext) (grantToken : String) :
    KeepsAuth guarded i (startEnrollment ctx grantToken) := by
  refine .bind (keeps_ask _) fun now =>
    .bind (preserves_requireLiveGrant .trivial ctx grantToken now) fun grant =>
      .bind (preserves_enrollmentContext .trivial ctx _) fun enrollment => ?_
  split
  · exact .bind (keeps_pure _) fun _ => .bind (keeps_ask _) fun challenge =>
      .bind (keeps_issueChallenge ..) fun _ => keeps_pure _
  · exact .bind (keeps_query _) fun _ => .bind (keeps_ask _) fun challenge =>
      .bind (keeps_issueChallenge ..) fun _ => keeps_pure _

theorem keeps_startAssertionCeremony (ctx : AuthContext) (purpose : ChallengePurpose)
    (ownerId generation : Uuid) (now : Time) :
    KeepsAuth guarded i (startAssertionCeremony ctx purpose ownerId generation now) :=
  .bind (keeps_query _) fun _ => .bind (keeps_ask _) fun _ =>
    .bind (keeps_issueChallenge ..) fun _ => keeps_pure _

theorem keeps_startLogin (ctx : AuthContext) : KeepsAuth guarded i (startLogin ctx) := by
  refine .bind (preserves_loginContext .trivial ctx) fun context => ?_
  obtain ⟨ownerId, generation, kind⟩ := context
  refine .bind (keeps_query _) fun existing => .ite (fun _ => .throw_bind .trivial) fun _ => ?_
  exact .bind (keeps_ask _) fun now => keeps_startAssertionCeremony ..

theorem keeps_startReverification (ctx : AuthContext) (token : String) :
    KeepsAuth guarded i (startReverification ctx token) :=
  .bind (preserves_verifySession .trivial ctx token) fun _ => .bind (keeps_ask _) fun _ =>
    .bind (preserves_requireOwnerId .trivial _) fun _ =>
      .bind (preserves_controlGeneration .trivial ctx) fun _ =>
        keeps_startAssertionCeremony ..

theorem keeps_startCredentialEnrollment (ctx : AuthContext) (token : String) :
    KeepsAuth guarded i (startCredentialEnrollment ctx token) :=
  .bind (preserves_verifySession .trivial ctx token) fun _ =>
    .bind (preserves_requireOwnerId .trivial _) fun _ =>
      .bind (preserves_requireRecentVerification .trivial ctx _) fun _ =>
        .bind (keeps_query _) fun _ => .bind (keeps_ask _) fun _ =>
          .bind (preserves_controlGeneration .trivial ctx) fun _ =>
            .bind (keeps_ask _) fun _ => .bind (keeps_issueChallenge ..) fun _ => keeps_pure _

theorem keeps_revokeSession (ctx : AuthContext) (token : String) :
    KeepsAuth guarded i (revokeSession ctx token) :=
  .bind (keeps_ask _) fun _ => preserves_same .trivial fun _ _ _ h => closeSession_issues h

theorem keeps_listCredentials (ctx : AuthContext) (token : String) :
    KeepsAuth guarded i (listCredentials ctx token) :=
  .bind (preserves_verifySession .trivial ctx token) fun _ =>
    .bind (preserves_requireOwnerId .trivial _) fun _ => .bind (keeps_query _) fun _ =>
      keeps_pure _

/-! ## Completing a ceremony -/

theorem keeps_completeEnrollment (ctx : AuthContext) (grantToken label : String)
    (response : RegistrationResponse) :
    KeepsAuth guarded i (completeEnrollment ctx grantToken label response) := by
  have harrive : KeepsAuth guarded i (arrive response.challenge) :=
    ⟨fun w _ => safe_arrive.mono (fun _ _ _ _ => trivial) fun _ _ _ _ => trivial⟩
  refine .bind harrive fun _ =>
    .bind (Preserves.ofExcept (S := authSignature) .trivial _) fun label =>
    .bind (keeps_ask _) fun now =>
      .bind (preserves_requireLiveGrant .trivial ctx grantToken now) fun grant =>
        .bind (preserves_enrollmentContext .trivial ctx _) fun enrollment =>
          .bind (preserves_challengeForResponse .trivial _ _ now) fun challenge => ?_
  refine .ite (fun _ => .throw_bind .trivial) fun _ => ?_
  refine .ite (fun _ => .throw_bind .trivial) fun _ => ?_
  refine .bind (preserves_requireRegistration .trivial ctx _ response) fun info =>
    .bind (keeps_ask _) fun newOwnerId => .bind (keeps_ask _) fun credentialId =>
      .bind (keeps_ask _) fun sessionId => .bind (keeps_ask _) fun token =>
        .bind ⟨fun w _ => ?_⟩ fun _ => keeps_pure _
  exact safe_ceremony (fun _ _ _ h => commitEnrollment_step (fun _ => rfl) h)
    fun _ _ h => absurd h (by simp)

theorem keeps_completeLogin (ctx : AuthContext) (response : AuthenticationResponse) :
    KeepsAuth guarded i (completeLogin ctx response) := by
  refine ⟨fun w _ => .bind (safe_arrive.mono (fun _ w₁ _ h₁ => ?_) fun _ _ _ => id)⟩
  obtain ⟨e, h₁⟩ := h₁
  refine (preserves_ask stable_attempt .now).andThen h₁ (fun now w₂ h₂ => ?_) fun _ _ _ => trivial
  refine (preserves_loginContext stable_attempt ctx).andThen h₂ (fun context w₃ h₃ => ?_)
    fun _ _ _ => trivial
  obtain ⟨ownerId, generation, kind⟩ := context
  refine .bind ((safe_verifyAssertion h₃).mono (fun r w₄ _ _ => ?_) fun _ _ _ => id)
  obtain ⟨challenge, credential, newCounter⟩ := r
  refine Preserves.safe (.ite (fun _ => .throw_bind .trivial) fun _ => ?_) w₄ trivial
  refine .bind (keeps_ask _) fun sessionId => .bind (keeps_ask _) fun token =>
    .bind ⟨fun w _ => ?_⟩ fun _ => keeps_pure _
  exact safe_ceremony (fun _ _ _ h => commitLogin_step h) fun _ _ h => absurd h (by simp)

theorem keeps_completeReverification (ctx : AuthContext) (token : String)
    (response : AuthenticationResponse) :
    KeepsAuth guarded i (completeReverification ctx token response) := by
  refine ⟨fun w _ => .bind (safe_arrive.mono (fun _ w₁ _ h₁ => ?_) fun _ _ _ => id)⟩
  obtain ⟨e, h₁⟩ := h₁
  refine .bind ((safe_verifySession h₁).mono (fun session w₂ _ h₂ => ?_) fun _ _ _ => id)
  refine (preserves_ask stable_attempt .now).andThen h₂ (fun now w₃ h₃ => ?_) fun _ _ _ => trivial
  refine (preserves_requireOwnerId stable_attempt session.id).andThen h₃ (fun ownerId w₄ h₄ => ?_)
    fun _ _ _ => trivial
  refine (preserves_controlGeneration stable_attempt ctx).andThen h₄ (fun generation w₅ h₅ => ?_)
    fun _ _ _ => trivial
  refine .bind ((safe_verifyAssertion h₅).mono (fun r w₆ _ h₆ => ?_) fun _ _ _ => id)
  obtain ⟨challenge, credential, newCounter⟩ := r
  dsimp only
  split
  · exact .throw fun _ _ _ => trivial
  refine .bind (.mono (safe_ceremony (fun _ _ _ h => commitReverification_step h)
    fun _ s hs => ?_) (fun _ w₇ _ _ => .pure fun _ _ _ => trivial) fun _ _ _ => id)
  obtain rfl := Option.some.inj hs
  exact ⟨_, e, h₆⟩

theorem keeps_completeCredentialEnrollment (ctx : AuthContext) (token label : String)
    (response : RegistrationResponse) :
    KeepsAuth guarded i (completeCredentialEnrollment ctx token label response) := by
  refine ⟨fun w _ => .bind (safe_arrive.mono (fun _ w₁ _ h₁ => ?_) fun _ _ _ => id)⟩
  obtain ⟨e, h₁⟩ := h₁
  refine .bind ((safe_verifySession h₁).mono (fun session w₂ _ h₂ => ?_) fun _ _ _ => id)
  refine (Preserves.ofExcept stable_attempt (normalizeLabel label)).andThen h₂
    (fun normalized w₃ h₃ => ?_) fun _ _ _ => trivial
  refine (preserves_requireOwnerId stable_attempt session.id).andThen h₃ (fun ownerId w₄ h₄ => ?_)
    fun _ _ _ => trivial
  refine (preserves_requireRecentVerification stable_attempt ctx _).andThen h₄ (fun _ w₅ h₅ => ?_)
    fun _ _ _ => trivial
  refine (preserves_ask stable_attempt .now).andThen h₅ (fun now w₆ h₆ => ?_) fun _ _ _ => trivial
  refine (preserves_controlGeneration stable_attempt ctx).andThen h₆ (fun generation w₇ h₇ => ?_)
    fun _ _ _ => trivial
  refine .bind ((safe_challengeForResponse h₇).mono (fun challenge w₈ _ h₈ => ?_) fun _ _ _ => id)
  by_cases howner : challenge.ownerId ≠ some ownerId
  · rw [if_pos howner]
    exact .throw fun _ _ _ => trivial
  rw [if_neg howner]
  by_cases hgeneration : challenge.recoveryGeneration ≠ generation
  · rw [if_pos hgeneration]
    exact .throw fun _ _ _ => trivial
  rw [if_neg hgeneration]
  refine (preserves_requireRegistration stable_attempt ctx _ response).andThen h₈
    (fun info w₉ h₉ => ?_) fun _ _ _ => trivial
  refine (preserves_ask stable_attempt .generateId).andThen h₉ (fun credentialId w₁₀ h₁₀ => ?_)
    fun _ _ _ => trivial
  refine .bind (.mono (safe_ceremony (fun _ _ _ h => commitCredential_step h)
    fun _ s hs => ?_) (fun _ _ _ _ => .pure fun _ _ _ => trivial) fun _ _ _ => id)
  obtain rfl := Option.some.inj hs
  exact ⟨_, e, h₁₀⟩

/-! ## Removing a passkey -/

/-- A removal that still holds the owner row lock leaves an active passkey. -/
structure Spares (n : ℕ) (credentialId : Uuid) (w : AuthWorld) : Prop where
  begun : n < w.store.nextTransaction
  known : ∃ row, w.store.ownerCredentials.find? credentialId = some row
  /-- Another active passkey is left, unless a revocation already took this one as well. -/
  spare : w.store.ownerLock = some n →
    (∀ row, w.store.ownerCredentials.find? credentialId = some row → row.isActive = false) ∨
      ∃ row ∈ w.store.ownerCredentials, row.isActive = true ∧ row.id ≠ credentialId

theorem stable_spares {n : ℕ} {credentialId : Uuid} :
    Stable (authDiscipline guarded) i (Spares n credentialId) := by
  intro w w' hr _ h
  obtain ⟨row, hrow⟩ := h.known
  obtain ⟨row', hrow', -, hactive⟩ := hr.credentials credentialId row hrow
  refine ⟨lt_of_lt_of_le h.begun hr.next, ⟨row', hrow'⟩, fun hlock => ?_⟩
  obtain ⟨hlock', hkept⟩ := hr.lock n h.begun hlock
  rcases hkept with hkept | hrevoked
  · rcases h.spare hlock' with hgone | ⟨spare, hspare, hspareActive, hne⟩
    · refine .inl fun row₂ hrow₂ => Bool.eq_false_iff.mpr fun hactive₂ => ?_
      obtain rfl := Option.some.inj (hrow'.symm.trans hrow₂)
      have hgone' := hgone row hrow
      rw [hactive hactive₂] at hgone'
      cases hgone'
    · obtain ⟨spare', hspare', hactive'⟩ :=
        hkept spare.id spare (Table.mem_iff_find?.mp hspare) hspareActive
      have hid : spare'.id = spare.id := Table.key_of_find? hspare'
      exact .inr ⟨spare', Table.mem_of_find? hspare', hactive', hid ▸ hne⟩
  · exact .inl fun row₂ hrow₂ => hrevoked credentialId row row₂ hrow hrow₂

theorem stable_begun {n : ℕ} :
    Stable (authDiscipline guarded) i fun w => n < w.store.nextTransaction :=
  fun _ _ hr _ h => lt_of_lt_of_le h hr.next

/-- A removal counts the passkeys and removes one under the lock. -/
theorem safe_removeLocked {n credentialId ownerId : Uuid} (h : n < w.store.nextTransaction) :
    Safe (authDiscipline guarded) i (removeLocked n credentialId ownerId) w (fun _ _ => True)
      fun _ _ => True := by
  have hread : ∀ {w' : AuthWorld} {K : AuthWorld → Prop}, K w' →
      Stable (authDiscipline guarded) i K → Lightly guarded none w' w'.store K :=
    fun hk hK => lightly_of_issues (.refl _) (fun hactive => hactive)
      fun w₂ hr₂ hi₂ => hK _ w₂ hr₂ hi₂ hk
  -- the row that is selected stays stored
  refine .bind (Safe.mono (safe_lightly (Q := fun r w' => n < w'.store.nextTransaction ∧
    ∀ row, r = some row → ∃ row', w'.store.ownerCredentials.find? row.id = some row') (by simp)
    (fun w' hr hi _ r db' hrun => ?_) fun _ _ _ _ => trivial) (fun r w₁ _ h₁ => ?_) fun _ _ _ => id)
  · obtain ⟨rfl, -, hrow⟩ := selectCredential_ok hrun
    refine hread ⟨lt_of_lt_of_le h hr.next, fun row hr => ?_⟩ fun w₁ w₂ hr₂ _ hk =>
      ⟨lt_of_lt_of_le hk.1 hr₂.next, fun row hr => ?_⟩
    · have hid : row.id = credentialId := Table.key_of_find? (hrow row hr)
      exact ⟨row, hid ▸ hrow row hr⟩
    · obtain ⟨row', hrow'⟩ := hk.2 row hr
      obtain ⟨row₂, hrow₂, -⟩ := hr₂.credentials _ row' hrow'
      exact ⟨row₂, hrow₂⟩
  cases r with
  | none => exact .throw fun _ _ _ => trivial
  | some credential =>
  obtain ⟨hbegun, hknown⟩ := h₁
  have hknown₁ := hknown credential rfl
  refine .bind (Safe.mono (safe_lightly (Q := fun remaining w' => remaining.length ≤ 1 ∨
    Spares n credential.id w') (by simp) (fun w' hr hi _ remaining db' hrun => ?_)
    fun _ _ _ _ => trivial) (fun remaining w₂ hi₂ h₂ => ?_) fun _ _ _ => id)
  · obtain ⟨rfl, -, rfl⟩ := selectRemaining_ok hrun
    refine hread ?_ fun w₁ w₂ hr₂ hi₂ hk => hk.imp (fun hle => hle) fun hk =>
      stable_spares (i := i) _ _ hr₂ hi₂ hk
    by_cases hle : (activeCredentials ownerId w'.store).length ≤ 1
    · exact .inl hle
    · obtain ⟨row, hrow⟩ := hknown₁
      obtain ⟨row', hrow', -⟩ := hr.credentials _ row hrow
      exact .inr ⟨lt_of_lt_of_le hbegun hr.next, ⟨row', hrow'⟩, fun _ => .inr (exists_spare hle)⟩
  by_cases hle : remaining.length ≤ 1
  · dsimp only
    rw [if_pos hle]
    exact .throw fun _ _ _ => trivial
  dsimp only
  rw [if_neg hle]
  have hspares : Spares n credential.id w₂ := h₂.resolve_left hle
  refine (preserves_ask stable_spares .now).andThen hspares (fun now w₃ h₃ => ?_)
    fun _ _ _ => trivial
  refine safe_lightly (by simp) (fun w' hr hi _ u db' hrun => ?_) fun _ _ _ _ => trivial
  have h' := stable_spares (i := i) _ _ hr hi h₃
  refine lightly_of_issues (commitRemoval_issues hrun) (fun hactive => ?_) fun _ _ _ => trivial
  refine commitRemoval_spares hrun ?_
  rcases h'.spare (commitRemoval_ok hrun).1 with hgone | hspare
  · -- a revoked passkey is none of the active ones
    obtain ⟨row, hrow, hrowActive⟩ := hactive
    refine ⟨row, hrow, hrowActive, fun hid => ?_⟩
    have hgone' := hgone row (hid ▸ Table.mem_iff_find?.mp hrow)
    rw [hrowActive] at hgone'
    cases hgone'
  · exact hspare

theorem keeps_removeCredential (ctx : AuthContext) (token : String) (credentialId : Option Uuid) :
    KeepsAuth guarded i (removeCredential ctx token credentialId) := by
  refine .bind (preserves_verifySession .trivial ctx token) fun session =>
    .bind (preserves_requireOwnerId .trivial _) fun ownerId =>
      .bind (preserves_requireRecentVerification .trivial ctx _) fun _ => ?_
  cases credentialId with
  | none => exact preserves_reject .trivial ..
  | some credentialId =>
  refine ⟨fun w _ => .bind (Safe.mono (safe_lightly (Q := fun n w' => n < w'.store.nextTransaction)
    (by simp) (fun w' _ _ _ n db' hrun => ?_) fun _ _ _ _ => trivial) (fun n w₁ _ h₁ => ?_)
      fun _ _ _ => id)⟩
  · obtain ⟨hstep, hsame⟩ := lockOwner_issues hrun
    obtain ⟨rfl, -, rfl⟩ := lockOwner_ok hrun
    exact lightly_of_issues hstep (fun hactive => hactive.of_same hsame) fun w₂ hr₂ _ =>
      lt_of_lt_of_le (Nat.lt_succ_self _) hr₂.next
  · refine .cleanup .trivial (safe_removeLocked h₁) ?_
    exact preserves_same .trivial fun _ _ _ h => rollback_issues h

/-! ## The operator -/

theorem keeps_initializeControls (ctx : AuthContext) :
    KeepsAuth guarded i (initializeControls ctx) := by
  unfold initializeControls
  cases ctx.generation with
  | none => exact keeps_pure _
  | some deployment => exact preserves_same .trivial fun _ _ _ h => commitInitialize_issues h

theorem keeps_completeRecovery (ctx : AuthContext) :
    KeepsAuth guarded i (completeRecovery ctx) := by
  unfold completeRecovery
  cases ctx.generation with
  | none => exact keeps_pure _
  | some deployment => exact preserves_same .trivial fun _ _ _ h => commitCompleteRecovery_issues h

/-- A recovery that begins revokes everything, or leaves the passkeys alone. -/
theorem keeps_beginRecovery (ctx : AuthContext) : KeepsAuth guarded i (beginRecovery ctx) := by
  unfold beginRecovery
  cases ctx.generation with
  | none => exact keeps_pure _
  | some deployment =>
  refine .bind (keeps_ask _) fun now => ⟨fun w _ => safe_lightly (by simp)
    (fun w' _ _ _ r db' hrun => ⟨?_, fun _ _ _ => trivial⟩) fun _ _ _ _ => trivial⟩
  obtain ⟨hstep, ⟨hstate, hsame⟩ | ⟨hstate, hrevoked⟩⟩ := commitBeginRecovery_revokes hrun
  · refine ⟨false, none, none, ?_, hstep, .of_remains fun hactive => hactive.of_same hsame⟩
    simp [AuthLog.afterCommit, hstate, AuthLog.issuing]
  · refine ⟨true, none, none, ?_, hstep, fun _ => ⟨rfl, hrevoked⟩, fun h => absurd h (by simp),
      fun _ _ _ h => absurd h (by simp)⟩
    simp [AuthLog.afterCommit, hstate, AuthLog.issuing, AuthLog.revoked]

theorem keeps_issueBootstrapGrant (ctx : AuthContext) :
    KeepsAuth guarded i (issueBootstrapGrant ctx) := by
  refine .bind (keeps_query _) fun ownerRow => .ite (fun _ => .throw_bind .trivial) fun _ => ?_
  have hstatus : KeepsAuth guarded i (initializedStatus ctx) := by
    refine .bind (preserves_controlStatus .trivial ctx) fun status => ?_
    split
    · refine .bind (keeps_initializeControls ctx) fun outcome => ?_
      split
      · exact preserves_reject .trivial ..
      · exact preserves_controlStatus .trivial ctx
      · exact preserves_reject .trivial ..
    · exact keeps_pure _
  refine .bind hstatus fun status => ?_
  cases openGeneration status with
  | none => exact preserves_reject .trivial ..
  | some opened =>
      refine .bind (keeps_ask _) fun id => .bind (keeps_ask _) fun token =>
        .bind (keeps_ask _) fun now => .bind ⟨fun w _ => ?_⟩ fun _ => keeps_pure _
      refine safe_lightly (by simp) (fun w' _ _ _ u db' hrun => ⟨⟨false, none, some id, rfl, ?_⟩,
        fun _ _ _ => trivial⟩) fun _ _ _ _ => trivial
      obtain ⟨hstep, hsame⟩ := commitBootstrapGrant_issues hrun
      exact ⟨hstep, fun h => absurd h (by simp), fun _ hactive => hactive.of_same hsame,
        fun _ _ _ h => absurd h (by simp)⟩

theorem keeps_issueRecoveryGrant (ctx : AuthContext) :
    KeepsAuth guarded i (issueRecoveryGrant ctx) := by
  refine .bind (keeps_query _) fun ownerRow => .ite (fun _ => .throw_bind .trivial) fun _ => ?_
  cases ctx.generation with
  | none => exact preserves_reject .trivial ..
  | some deployment =>
      refine .bind (keeps_ask _) fun id => .bind (keeps_ask _) fun token =>
        .bind (keeps_ask _) fun now => .bind ⟨fun w _ => ?_⟩ fun _ => keeps_pure _
      refine safe_lightly (by simp) (fun w' _ _ _ u db' hrun => ⟨⟨true, none, some id, rfl, ?_⟩,
        fun _ _ _ => trivial⟩) fun _ _ _ _ => trivial
      obtain ⟨hstep, hrevoked⟩ := commitRecoveryGrant_revokes hrun
      exact ⟨hstep, fun _ => ⟨rfl, hrevoked⟩, fun h => absurd h (by simp),
        fun _ _ _ h => absurd h (by simp)⟩

/-! ## All operations -/

/-- Every operation of the system keeps the discipline. -/
theorem keeps_authOp (op : AuthOp) : KeepsAuth guarded i op.run := by
  cases op with
  | startEnrollment ctx token => exact .bind (keeps_startEnrollment ctx token) fun _ => keeps_pure _
  | completeEnrollment ctx token label response =>
      exact .bind (keeps_completeEnrollment ctx token label response) fun _ => keeps_pure _
  | startLogin ctx => exact .bind (keeps_startLogin ctx) fun _ => keeps_pure _
  | completeLogin ctx response =>
      exact .bind (keeps_completeLogin ctx response) fun _ => keeps_pure _
  | revokeSession ctx token => exact keeps_revokeSession ctx token
  | listCredentials ctx token =>
      exact .bind (keeps_listCredentials ctx token) fun _ => keeps_pure _
  | startReverification ctx token =>
      exact .bind (keeps_startReverification ctx token) fun _ => keeps_pure _
  | completeReverification ctx token response =>
      exact .bind (keeps_completeReverification ctx token response) fun _ => keeps_pure _
  | startCredentialEnrollment ctx token =>
      exact .bind (keeps_startCredentialEnrollment ctx token) fun _ => keeps_pure _
  | completeCredentialEnrollment ctx token label response =>
      exact .bind (keeps_completeCredentialEnrollment ctx token label response) fun _ =>
        keeps_pure _
  | removeCredential ctx token credentialId => exact keeps_removeCredential ctx token credentialId
  | issueBootstrapGrant ctx => exact .bind (keeps_issueBootstrapGrant ctx) fun _ => keeps_pure _
  | issueRecoveryGrant ctx => exact .bind (keeps_issueRecoveryGrant ctx) fun _ => keeps_pure _
  | initializeControls ctx => exact .bind (keeps_initializeControls ctx) fun _ => keeps_pure _
  | beginRecovery ctx => exact .bind (keeps_beginRecovery ctx) fun _ => keeps_pure _
  | completeRecovery ctx => exact .bind (keeps_completeRecovery ctx) fun _ => keeps_pure _
  | dropConnection => exact preserves_same .trivial fun _ _ _ h => unlockOwner_issues h
  | elsewhere f =>
      refine preserves_same .trivial fun db _ db' h => ?_
      obtain rfl : _ = db' := (Prod.mk.inj (Except.ok.inj h)).2
      exact ⟨.of_untouched rfl rfl rfl (fun _ hr => hr) rfl (.of_same rfl rfl), rfl⟩

end MailHub.Auth
