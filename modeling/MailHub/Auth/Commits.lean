import MailHub.Auth.Steps

/-!
# What the commit of a ceremony does

Every commit of a ceremony consumes a live challenge, and what it opens, registers or marks it does
in the same transaction. An assertion is checked against the passkey as it is then.
-/

namespace MailHub.Auth

open Relational Interleaving

variable {db db' : AuthDatabase}

/-- The commit of a ceremony. -/
structure CeremonyStep (c : Ceremony) (db db' : AuthDatabase) : Prop where
  owner : ∀ o ∈ db'.owner, o ∈ db.owner ∨ o.singleton = true
  /-- The ceremony consumes a live challenge. -/
  challenge : ∃ row, db.webauthnChallenges.find? c.challengeId = some row ∧ row.isLive = true
  challenges : ∀ r' ∈ db'.webauthnChallenges, ∃ r ∈ db.webauthnChallenges, r'.id = r.id ∧
    r'.challenge = r.challenge ∧ (r'.isLive = true → r.isLive = true) ∧
    (r'.consumedAt = none → r.consumedAt = none ∧ r.id ≠ c.challengeId)
  /-- An enrollment consumes a live grant. -/
  grant : ∀ g, c.grantId = some g →
    ∃ row, db.enrollmentGrants.find? g = some row ∧ row.isLive = true
  grants : ∀ r' ∈ db'.enrollmentGrants, ∃ r ∈ db.enrollmentGrants, r'.id = r.id ∧
    (r'.isLive = true → r.isLive = true) ∧
    (r'.consumedAt = none → r.consumedAt = none ∧ c.grantId ≠ some r.id)
  grantsKept : ∀ id, (db.enrollmentGrants.find? id).isSome →
    (db'.enrollmentGrants.find? id).isSome
  sessions : ∀ id row', db'.ownerSessions.find? id = some row' →
    db.ownerSessions.find? id = none ∨ ∃ row, db.ownerSessions.find? id = some row ∧
      (row'.verifiedAt ≠ row.verifiedAt → c.sessionId = some id) ∧ row'.isOpen = row.isOpen
  sessionsKept : ∀ id, (db.ownerSessions.find? id).isSome → (db'.ownerSessions.find? id).isSome
  credentials : ∀ id row', db'.ownerCredentials.find? id = some row' →
    db.ownerCredentials.find? id = none ∨
      ∃ row, db.ownerCredentials.find? id = some row ∧ row'.isActive = row.isActive
  credentialsKept : ∀ id row, db.ownerCredentials.find? id = some row →
    ∃ row', db'.ownerCredentials.find? id = some row' ∧ row.counter ≤ row'.counter ∧
      row'.isActive = row.isActive
  /-- An assertion was signed by an active passkey. -/
  credential : ∀ cr, c.credentialId = some cr →
    ∃ row, db.ownerCredentials.find? cr = some row ∧ row.isActive = true
  /-- An enrollment leaves an active passkey. -/
  enrolled : c.grantId.isSome → HasActive db'
  lock : LockStep db db'

/-! ## The statements -/

theorem consumeChallenge_ok {challengeId : Uuid} {now : Time}
    (h : (consumeChallenge challengeId now).run db = .ok (true, db')) :
    (∃ row, db.webauthnChallenges.find? challengeId = some row ∧ row.isLive = true) ∧
      { db with
        webauthnChallenges := db.webauthnChallenges.update
          (fun row => row.id == challengeId && row.isLive)
          (fun row => { row with consumedAt := some now }) fun _ => rfl } = db' := by
  unfold consumeChallenge at h
  simp at h
  obtain ⟨hselected, rfl⟩ := h
  obtain ⟨row, hrow⟩ := List.exists_mem_of_ne_nil _ hselected
  obtain ⟨hmem, hp⟩ := Table.mem_select.mp hrow
  simp only [Bool.and_eq_true, beq_iff_eq] at hp
  obtain ⟨rfl, hlive⟩ := hp
  exact ⟨⟨row, Table.mem_iff_find?.mp hmem, hlive⟩, rfl⟩

theorem requireChallenge_ok {challengeId : Uuid} {now : Time} {message : String} {u : Unit}
    (h : (requireChallenge challengeId now message).run db = .ok (u, db')) :
    (∃ row, db.webauthnChallenges.find? challengeId = some row ∧ row.isLive = true) ∧
      { db with
        webauthnChallenges := db.webauthnChallenges.update
          (fun row => row.id == challengeId && row.isLive)
          (fun row => { row with consumedAt := some now }) fun _ => rfl } = db' := by
  unfold requireChallenge AuthTx.reject at h
  simp at h
  exact consumeChallenge_ok h

theorem consumeGrant_ok {grantId : Uuid} {now : Time}
    (h : (consumeGrant grantId now).run db = .ok (true, db')) :
    (∃ row, db.enrollmentGrants.find? grantId = some row ∧ row.isLive = true) ∧
      { db with
        enrollmentGrants := db.enrollmentGrants.update
          (fun row => row.id == grantId && row.isLive)
          (fun row => { row with consumedAt := some now }) fun _ => rfl } = db' := by
  unfold consumeGrant at h
  simp at h
  obtain ⟨hselected, rfl⟩ := h
  obtain ⟨row, hrow⟩ := List.exists_mem_of_ne_nil _ hselected
  obtain ⟨hmem, hp⟩ := Table.mem_select.mp hrow
  simp only [Bool.and_eq_true, beq_iff_eq] at hp
  obtain ⟨rfl, hlive⟩ := hp
  exact ⟨⟨row, Table.mem_iff_find?.mp hmem, hlive⟩, rfl⟩

theorem insertOwner_ok {id : Uuid} {u : Unit}
    (h : (AuthTx.insertOwner id).run db = .ok (u, db')) :
    ∃ t, (∀ o ∈ t, o ∈ db.owner ∨ o.singleton = true) ∧ { db with owner := t } = db' := by
  unfold AuthTx.insertOwner at h
  cases hinsert : db.owner.insert? ⟨true, id⟩ with
  | none =>
      simp [hinsert] at h
      exact ⟨db.owner, fun o ho => .inl ho, h⟩
  | some t =>
      simp [hinsert] at h
      refine ⟨t, fun o ho => ?_, h⟩
      rcases (Table.mem_insert? hinsert).mp ho with hold | rfl
      · exact .inl hold
      · exact .inr rfl

theorem registerCredential_ok {row : OwnerCredential} {u : Unit}
    (h : (AuthTx.registerCredential row).run db = .ok (u, db')) :
    ∃ t, db.ownerCredentials.insert? row = some t ∧ { db with ownerCredentials := t } = db' := by
  have hrun : (AuthTx.insertCredential row).run db = .ok (u, db') := by
    unfold AuthTx.registerCredential at h
    cases hinsert : (AuthTx.insertCredential row).run db with
    | error e => simp [StateT.run, Except.mapError] at h hinsert; simp [hinsert] at h
    | ok r => simp [StateT.run, Except.mapError] at h hinsert; simpa [hinsert] using h
  unfold AuthTx.insertCredential AuthTx.requireOwnerReference at hrun
  cases hinsert : db.ownerCredentials.insert? row with
  | none => simp [hinsert] at hrun
  | some t =>
      simp [hinsert] at hrun
      exact ⟨t, rfl, hrun.2.2⟩

theorem insertSession_ok {row : OwnerSession} {u : Unit}
    (h : (AuthTx.insertSession row).run db = .ok (u, db')) :
    ∃ t, db.ownerSessions.insert? row = some t ∧ { db with ownerSessions := t } = db' := by
  unfold AuthTx.insertSession AuthTx.requireOwnerReference at h
  cases hinsert : db.ownerSessions.insert? row with
  | none => simp [hinsert] at h
  | some t =>
      simp [hinsert] at h
      exact ⟨t, rfl, h.2.2⟩

/-- A rejection commits nothing. -/
theorem reject_run {α : Type} {code : AuthErrorCode} {message : String} :
    (AuthTx.reject code message : AuthTx α).run db = .error (.auth code message) := rfl

/-- The check of an assertion against the stored passkey. -/
theorem requireLiveCredential_ok {credentialId : Uuid} {newCounter : ℕ} {u : Unit}
    (h : (requireLiveCredential credentialId newCounter).run db = .ok (u, db')) :
    db = db' ∧ ∃ row, db.ownerCredentials.find? credentialId = some row ∧ row.isActive = true ∧
      row.counter ≤ newCounter := by
  unfold requireLiveCredential at h
  rw [StateT.run_bind, StateT.run_get, pure_bind] at h
  cases hrow : db.ownerCredentials.find? credentialId with
  | none => simp [hrow, reject_run] at h
  | some row =>
      simp only [hrow] at h
      split at h
      · rw [StateT.run_bind, reject_run, error_bind] at h
        cases h
      split at h
      · rw [reject_run] at h
        cases h
      · rw [StateT.run_pure, pure_eq_ok] at h
        refine ⟨(Prod.mk.inj h).2, row, rfl, Bool.eq_true_of_not_eq_false ‹_›, ?_⟩
        omega

theorem stampVerification_ok {sessionId : Uuid} {now : Time} {row : OwnerSession}
    (h : (stampVerification sessionId now).run db = .ok (row, db')) :
    { db with
      ownerSessions := db.ownerSessions.update (·.id == sessionId)
        (fun row => { row with verifiedAt := now }) fun _ => rfl } = db' := by
  unfold stampVerification at h
  simp only [StateT.run_bind, StateT.run_get, StateT.run_set, bind_eq_ok] at h
  simp at h
  split at h
  · simp at h
    exact h.2
  · simp at h

/-! ## Effects on the tables -/

/-- The challenges after one was consumed. -/
theorem consumed_challenges {challengeId : Uuid} {now : Time} {t : Table WebauthnChallenge}
    {r' : WebauthnChallenge} (hr' : r' ∈ t.update (fun row => row.id == challengeId && row.isLive)
      (fun row => { row with consumedAt := some now }) fun _ => rfl)
    (hlive : ∃ row, t.find? challengeId = some row ∧ row.isLive = true) :
    ∃ r ∈ t, r'.id = r.id ∧ r'.challenge = r.challenge ∧ (r'.isLive = true → r.isLive = true) ∧
      (r'.consumedAt = none → r.consumedAt = none ∧ r.id ≠ challengeId) := by
  obtain ⟨row, hrow, hrowlive⟩ := hlive
  obtain ⟨r, hr, rfl⟩ := List.mem_map.mp hr'
  refine ⟨r, hr, ?_, ?_, fun hlive => ?_, fun hnone => ?_⟩
  · split <;> rfl
  · split <;> rfl
  · split at hlive
    · simp [WebauthnChallenge.isLive] at hlive
    · exact hlive
  · split at hnone
    · cases hnone
    · refine ⟨hnone, fun hid => ?_⟩
      have hsame : r = row := by
        have hfind := Table.mem_iff_find?.mp hr
        rw [show Keyed.key r = challengeId from hid, hrow] at hfind
        exact (Option.some.inj hfind).symm
      simp_all

/-- The grants after one was consumed. -/
theorem consumed_grants {grantId : Uuid} {now : Time} {t : Table EnrollmentGrant}
    {r' : EnrollmentGrant} (hr' : r' ∈ t.update (fun row => row.id == grantId && row.isLive)
      (fun row => { row with consumedAt := some now }) fun _ => rfl)
    (hlive : ∃ row, t.find? grantId = some row ∧ row.isLive = true) :
    ∃ r ∈ t, r'.id = r.id ∧ (r'.isLive = true → r.isLive = true) ∧
      (r'.consumedAt = none → r.consumedAt = none ∧ r.id ≠ grantId) := by
  obtain ⟨row, hrow, hrowlive⟩ := hlive
  obtain ⟨r, hr, rfl⟩ := List.mem_map.mp hr'
  refine ⟨r, hr, ?_, fun hlive => ?_, fun hnone => ?_⟩
  · split <;> rfl
  · split at hlive
    · simp [EnrollmentGrant.isLive] at hlive
    · exact hlive
  · split at hnone
    · cases hnone
    · refine ⟨hnone, fun hid => ?_⟩
      have hsame : r = row := by
        have hfind := Table.mem_iff_find?.mp hr
        rw [show Keyed.key r = grantId from hid, hrow] at hfind
        exact (Option.some.inj hfind).symm
      simp_all

/-- The grants of a ceremony that is no enrollment. -/
theorem kept_grants {c : Ceremony} (hc : c.grantId = none) {t : Table EnrollmentGrant}
    {r' : EnrollmentGrant} (hr' : r' ∈ t) :
    ∃ r ∈ t, r'.id = r.id ∧ (r'.isLive = true → r.isLive = true) ∧
      (r'.consumedAt = none → r.consumedAt = none ∧ c.grantId ≠ some r.id) :=
  ⟨r', hr', rfl, fun h => h, fun h => ⟨h, by simp [hc]⟩⟩

/-- A session that an insertion adds was not there before. -/
theorem inserted_sessions {t t' : Table OwnerSession} {row : OwnerSession} {c : Ceremony}
    (h : t.insert? row = some t') : (∀ id row', t'.find? id = some row' → t.find? id = none ∨
      ∃ row, t.find? id = some row ∧ (row'.verifiedAt ≠ row.verifiedAt → c.sessionId = some id) ∧
        row'.isOpen = row.isOpen) ∧ ∀ id, (t.find? id).isSome → (t'.find? id).isSome := by
  constructor
  · intro id row' hrow'
    rcases Table.find?_of_insert?_eq_some h hrow' with hnone | hold
    · exact .inl hnone
    · exact .inr ⟨row', hold, fun hne => absurd rfl hne, rfl⟩
  · intro id hsome
    obtain ⟨old, hold⟩ := Option.isSome_iff_exists.mp hsome
    rw [Table.find?_insert?_of_eq_some h hold]
    rfl

/-- A passkey that an insertion adds was not there before. -/
theorem inserted_credentials {t t' : Table OwnerCredential} {row : OwnerCredential}
    (h : t.insert? row = some t') : (∀ id row', t'.find? id = some row' → t.find? id = none ∨
      ∃ row, t.find? id = some row ∧ row'.isActive = row.isActive) ∧
      ∀ id row, t.find? id = some row → ∃ row', t'.find? id = some row' ∧
        row.counter ≤ row'.counter ∧ row'.isActive = row.isActive := by
  constructor
  · intro id row' hrow'
    rcases Table.find?_of_insert?_eq_some h hrow' with hnone | hold
    · exact .inl hnone
    · exact .inr ⟨row', hold, rfl⟩
  · intro id old hold
    exact ⟨old, Table.find?_insert?_of_eq_some h hold, le_refl _, rfl⟩

/-- The passkeys after one of them signed an assertion that advances its counter. -/
theorem used_credentials {t : Table OwnerCredential} {credentialId : Uuid} {counter : ℕ}
    (now : Time) {signer : OwnerCredential} (hsigner : t.find? credentialId = some signer)
    (hcounter : signer.counter ≤ counter) {t' : Table OwnerCredential}
    (ht' : t' = t.update (·.id == credentialId)
      (fun row => { row with counter, lastUsedAt := some now }) fun _ => rfl) :
    (∀ id row', t'.find? id = some row' → t.find? id = none ∨
      ∃ row, t.find? id = some row ∧ row'.isActive = row.isActive) ∧
      ∀ id row, t.find? id = some row → ∃ row', t'.find? id = some row' ∧
        row.counter ≤ row'.counter ∧ row'.isActive = row.isActive := by
  subst ht'
  constructor
  · intro id row' hrow'
    rw [Table.find?_update] at hrow'
    obtain ⟨row, hrow, rfl⟩ := Option.map_eq_some_iff.mp hrow'
    refine .inr ⟨row, hrow, ?_⟩
    split <;> rfl
  · intro id row hrow
    refine ⟨_, by rw [Table.find?_update, hrow, Option.map_some], ?_, ?_⟩
    · split
      next hid =>
        have hkey : row.id = credentialId := by simpa using hid
        have hid' : row.id = id := Table.key_of_find? hrow
        rw [← hkey, hid', hrow] at hsigner
        rw [Option.some.inj hsigner]
        exact hcounter
      next => exact le_refl _
    · split <;> rfl

/-! ## The commits -/

/-- What an enrollment writes once it consumed its grant and knows its owner. -/
theorem enroll_ok {challengeId : Uuid} {credential : OwnerCredential} {session : OwnerSession}
    {now : Time} {message : String} {type : String} {opened : OwnerSession}
    (h : (do
      AuthTx.registerCredential credential
      requireChallenge challengeId now message
      AuthTx.insertSession session
      AuthTx.recordAuthEvent type
      return session : AuthTx OwnerSession).run db = .ok (opened, db')) :
    (∃ row, db.webauthnChallenges.find? challengeId = some row ∧ row.isLive = true) ∧
      ∃ ownerCredentials ownerSessions trail,
        db.ownerCredentials.insert? credential = some ownerCredentials ∧
        db.ownerSessions.insert? session = some ownerSessions ∧
        { db with
          ownerCredentials, ownerSessions, trail
          webauthnChallenges := db.webauthnChallenges.update
            (fun row => row.id == challengeId && row.isLive)
            (fun row => { row with consumedAt := some now }) fun _ => rfl } = db' := by
  simp only [StateT.run_bind, bind_eq_ok, Prod.exists] at h
  obtain ⟨_, db₁, hcredential, _, db₂, hchallenge, _, db₃, hsession, h⟩ := h
  obtain ⟨tc, htc, rfl⟩ := registerCredential_ok hcredential
  obtain ⟨hlive, rfl⟩ := requireChallenge_ok hchallenge
  obtain ⟨ts, hts, rfl⟩ := insertSession_ok hsession
  simp [AuthTx.recordAuthEvent] at h
  exact ⟨hlive, tc, ts, _, htc, hts, h.2⟩

/-- The commit of an enrollment. -/
theorem commitEnrollment_step {grantId challengeId newOwnerId : Uuid} {ownerId : Option Uuid}
    {credential : Uuid → OwnerCredential} {session : Uuid → OwnerSession} {now : Time}
    {opened : OwnerSession} (hactive : ∀ id, (credential id).isActive = true)
    (h : (commitEnrollment grantId challengeId ownerId newOwnerId credential session now).run db =
      .ok (opened, db')) :
    CeremonyStep { challengeId, grantId := some grantId } db db' := by
  unfold commitEnrollment at h
  simp only [StateT.run_bind, bind_eq_ok, Prod.exists] at h
  obtain ⟨granted, db₁, hgrant, h⟩ := h
  cases granted with
  | false => simp [reject_run] at h
  | true =>
  obtain ⟨hgrantLive, rfl⟩ := consumeGrant_ok hgrant
  have hrun : ∃ (owner : Table Owner) (currentOwnerId : Uuid),
      (∀ o ∈ owner, o ∈ db.owner ∨ o.singleton = true) ∧
      (∃ row, db.webauthnChallenges.find? challengeId = some row ∧ row.isLive = true) ∧
      ∃ ownerCredentials ownerSessions trail,
        db.ownerCredentials.insert? (credential currentOwnerId) = some ownerCredentials ∧
        db.ownerSessions.insert? (session currentOwnerId) = some ownerSessions ∧
        { db with
          owner, ownerCredentials, ownerSessions, trail
          enrollmentGrants := db.enrollmentGrants.update
            (fun row => row.id == grantId && row.isLive)
            (fun row => { row with consumedAt := some now }) fun _ => rfl
          webauthnChallenges := db.webauthnChallenges.update
            (fun row => row.id == challengeId && row.isLive)
            (fun row => { row with consumedAt := some now }) fun _ => rfl } = db' := by
    cases ownerId with
    | some ownerId => exact ⟨db.owner, ownerId, fun o ho => .inl ho, enroll_ok h⟩
    | none =>
        simp only [Bool.not_true, Bool.false_eq_true, if_false, StateT.run_bind, bind_eq_ok,
          Prod.exists] at h
        obtain ⟨_, db₂, howner, current, db₃, hget, h⟩ := h
        obtain ⟨t, ht, rfl⟩ := insertOwner_ok howner
        obtain ⟨rfl, rfl⟩ := Prod.mk.inj (Except.ok.inj hget)
        split at h
        next row hrow => exact ⟨t, row.id, ht, enroll_ok h⟩
        next => simp at h
  obtain ⟨owner, currentOwnerId, howner, hlive, tc, ts, trail, htc, hts, rfl⟩ := hrun
  obtain ⟨hsessions, hsessionsKept⟩ := inserted_sessions
    (c := { challengeId, grantId := some grantId }) hts
  obtain ⟨hcredentials, hcredentialsKept⟩ := inserted_credentials htc
  refine ⟨howner, hlive, fun r' hr' => consumed_challenges hr' hlive, fun g hg => ?_,
    fun r' hr' => ?_, fun id hsome => ?_, hsessions, hsessionsKept, hcredentials, hcredentialsKept,
    fun cr hcr => absurd hcr (by simp), fun _ => ?_, .of_same rfl rfl⟩
  · obtain rfl := Option.some.inj hg
    exact hgrantLive
  · obtain ⟨r, hr, hid, hlive', hnone⟩ := consumed_grants hr' hgrantLive
    refine ⟨r, hr, hid, hlive', fun h => ⟨(hnone h).1, fun hg => (hnone h).2 ?_⟩⟩
    exact (Option.some.inj hg).symm
  · rw [Table.find?_update]
    simpa using hsome
  · exact ⟨credential currentOwnerId, (Table.mem_insert? htc).mpr (.inr rfl), hactive _⟩

/-- The commit of a login. -/
theorem commitLogin_step {challengeId credentialId : Uuid} {newCounter : ℕ}
    {session opened : OwnerSession} {now : Time}
    (h : (commitLogin challengeId credentialId newCounter session now).run db =
      .ok (opened, db')) :
    CeremonyStep { challengeId, credentialId := some credentialId } db db' := by
  unfold commitLogin updateCredentialAfterUse at h
  simp only [StateT.run_bind, bind_eq_ok, Prod.exists] at h
  obtain ⟨_, db₁, hchallenge, _, db₂, hcredential, _, db₃, hused, _, db₄, hsession, h⟩ := h
  obtain ⟨hlive, rfl⟩ := requireChallenge_ok hchallenge
  obtain ⟨rfl, signer, hsigner, hactive, hcounter⟩ := requireLiveCredential_ok hcredential
  obtain rfl := (Prod.mk.inj (Except.ok.inj hused)).2
  obtain ⟨ts, hts, rfl⟩ := insertSession_ok hsession
  simp [AuthTx.recordAuthEvent] at h
  obtain ⟨-, rfl⟩ := h
  obtain ⟨hsessions, hsessionsKept⟩ := inserted_sessions
    (c := { challengeId, credentialId := some credentialId }) hts
  obtain ⟨hcredentials, hcredentialsKept⟩ := used_credentials now hsigner hcounter rfl
  refine ⟨fun o ho => .inl ho, hlive, fun r' hr' => consumed_challenges hr' hlive,
    fun g hg => absurd hg (by simp), fun r' hr' => kept_grants rfl hr', fun _ hsome => hsome,
    hsessions, hsessionsKept, hcredentials, hcredentialsKept, fun cr hcr => ?_,
    fun hg => absurd hg (by simp), .of_same rfl rfl⟩
  obtain rfl := Option.some.inj hcr
  exact ⟨signer, hsigner, hactive⟩

/-- The commit of a verification refresh. -/
theorem commitReverification_step {challengeId credentialId sessionId : Uuid} {newCounter : ℕ}
    {updated : OwnerSession} {now : Time}
    (h : (commitReverification challengeId credentialId sessionId newCounter now).run db =
      .ok (updated, db')) :
    CeremonyStep { challengeId, sessionId := some sessionId, credentialId := some credentialId }
      db db' := by
  unfold commitReverification updateCredentialAfterUse at h
  simp only [StateT.run_bind, bind_eq_ok, Prod.exists] at h
  obtain ⟨_, db₁, hchallenge, _, db₂, hcredential, _, db₃, hused, row, db₄, hstamp, h⟩ := h
  obtain ⟨hlive, rfl⟩ := requireChallenge_ok hchallenge
  obtain ⟨rfl, signer, hsigner, hactive, hcounter⟩ := requireLiveCredential_ok hcredential
  obtain rfl := (Prod.mk.inj (Except.ok.inj hused)).2
  obtain rfl := stampVerification_ok hstamp
  simp [AuthTx.recordAuthEvent] at h
  obtain ⟨-, rfl⟩ := h
  obtain ⟨hcredentials, hcredentialsKept⟩ := used_credentials now hsigner hcounter rfl
  refine ⟨fun o ho => .inl ho, hlive, fun r' hr' => consumed_challenges hr' hlive,
    fun g hg => absurd hg (by simp), fun r' hr' => kept_grants rfl hr', fun _ hsome => hsome,
    fun id row' hrow' => .inr ?_, fun id hsome => ?_, hcredentials, hcredentialsKept,
    fun cr hcr => ?_, fun hg => absurd hg (by simp), .of_same rfl rfl⟩
  · rw [Table.find?_update] at hrow'
    obtain ⟨row, hrow, rfl⟩ := Option.map_eq_some_iff.mp hrow'
    refine ⟨row, hrow, fun hne => ?_, ?_⟩
    · split at hne
      next hid =>
        have hkey : row.id = sessionId := by simpa using hid
        have hid' : row.id = id := Table.key_of_find? hrow
        rw [← hkey, hid']
      next => exact absurd rfl hne
    · split <;> rfl
  · rw [Table.find?_update]
    simpa using hsome
  · obtain rfl := Option.some.inj hcr
    exact ⟨signer, hsigner, hactive⟩

/-- The commit that adds a passkey. -/
theorem commitCredential_step {challengeId : Uuid} {sessionId : Option Uuid}
    {row added : OwnerCredential} {now : Time}
    (h : (commitCredential challengeId row now).run db = .ok (added, db')) :
    CeremonyStep { challengeId, sessionId } db db' := by
  unfold commitCredential at h
  simp only [StateT.run_bind, bind_eq_ok, Prod.exists] at h
  obtain ⟨n, db₁, hlock, _, db₂, hchallenge, _, db₃, hcredential, h⟩ := h
  obtain ⟨rfl, -, rfl⟩ := lockOwner_ok hlock
  obtain ⟨hlive, rfl⟩ := requireChallenge_ok hchallenge
  obtain ⟨tc, htc, rfl⟩ := registerCredential_ok hcredential
  simp [AuthTx.recordAuthEvent, unlockOwner] at h
  obtain ⟨-, rfl⟩ := h
  obtain ⟨hcredentials, hcredentialsKept⟩ := inserted_credentials htc
  exact ⟨fun o ho => .inl ho, hlive, fun r' hr' => consumed_challenges hr' hlive,
    fun g hg => absurd hg (by simp), fun r' hr' => kept_grants rfl hr', fun _ hsome => hsome,
    fun id row' hrow' => .inr ⟨row', hrow', fun hne => absurd rfl hne, rfl⟩, fun _ hsome => hsome,
    hcredentials, hcredentialsKept, fun cr hcr => absurd hcr (by simp),
    fun hg => absurd hg (by simp), ⟨.inr (.inl rfl), Nat.le_succ _⟩⟩

end MailHub.Auth
