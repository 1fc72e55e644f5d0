import MailHub.Auth.System

/-!
# What each transaction does to the authentication state

Apart from the commits of ceremonies, a transaction opens no session and registers no passkey: it
issues at most one challenge and one grant, and what it does to the other rows only ends them. A
revocation ends them all. The commit of a ceremony consumes a live challenge.
-/

namespace MailHub.Auth

open Relational Interleaving

variable {db db' : AuthDatabase} {α : Type} {a : α}

/-! ## Transactions outside ceremonies -/

/-- The lock after a transaction: it stays, it is released, or the next transaction takes it. -/
structure LockStep (db db' : AuthDatabase) : Prop where
  lock : db'.ownerLock = db.ownerLock ∨ db'.ownerLock = none ∨
    db'.ownerLock = some db.nextTransaction ∧ db.nextTransaction < db'.nextTransaction
  next : db.nextTransaction ≤ db'.nextTransaction

theorem LockStep.of_same (h : db'.ownerLock = db.ownerLock)
    (hnext : db'.nextTransaction = db.nextTransaction) : LockStep db db' :=
  ⟨.inl h, by rw [hnext]⟩

/-- An active passkey is left. -/
def HasActive (db : AuthDatabase) : Prop := ∃ row ∈ db.ownerCredentials, row.isActive = true

theorem HasActive.of_same (h : HasActive db)
    (hsame : db'.ownerCredentials = db.ownerCredentials) : HasActive db' := by
  obtain ⟨row, hrow, hactive⟩ := h
  exact ⟨row, hsame ▸ hrow, hactive⟩

/-- A transaction that issues at most one challenge and one grant and otherwise only ends rows. -/
structure Issues (challenge : Option (Uuid × String)) (grant : Option Uuid)
    (db db' : AuthDatabase) : Prop where
  owner : db'.owner = db.owner
  challenges : ∀ r' ∈ db'.webauthnChallenges,
    (challenge = some (r'.id, r'.challenge) ∧ r'.consumedAt = none) ∨
    ∃ r ∈ db.webauthnChallenges, r'.id = r.id ∧ r'.challenge = r.challenge ∧
      (r'.isLive = true → r.isLive = true) ∧ (r'.consumedAt = none → r.consumedAt = none) ∧
      challenge.map Prod.fst ≠ some r.id
  grants : ∀ r' ∈ db'.enrollmentGrants,
    (grant = some r'.id ∧ db.enrollmentGrants.find? r'.id = none) ∨
    ∃ r ∈ db.enrollmentGrants, r'.id = r.id ∧ (r'.isLive = true → r.isLive = true) ∧
      (r'.consumedAt = none → r.consumedAt = none) ∧ grant ≠ some r.id
  grantsKept : ∀ id, (db.enrollmentGrants.find? id).isSome →
    (db'.enrollmentGrants.find? id).isSome
  sessions : ∀ id row', db'.ownerSessions.find? id = some row' →
    ∃ row, db.ownerSessions.find? id = some row ∧ row'.verifiedAt = row.verifiedAt ∧
      (row'.isOpen = true → row.isOpen = true)
  sessionsKept : ∀ id, (db.ownerSessions.find? id).isSome → (db'.ownerSessions.find? id).isSome
  credentials : ∀ id row', db'.ownerCredentials.find? id = some row' →
    ∃ row, db.ownerCredentials.find? id = some row ∧ (row'.isActive = true → row.isActive = true)
  credentialsKept : ∀ id row, db.ownerCredentials.find? id = some row →
    ∃ row', db'.ownerCredentials.find? id = some row' ∧ row'.counter = row.counter
  /-- Active passkeys stay active, unless all are revoked or the owner row lock was held. -/
  actives : db'.ownerLock = none ∨
    (∀ id row, db.ownerCredentials.find? id = some row → row.isActive = true →
      ∃ row', db'.ownerCredentials.find? id = some row' ∧ row'.isActive = true) ∨
    ∀ row' ∈ db'.ownerCredentials, row'.isActive = false
  lock : LockStep db db'

/-- Nothing is live but the grant that replaces what was revoked. -/
structure Revoked (grant : Option Uuid) (db : AuthDatabase) : Prop where
  challenges : ∀ r ∈ db.webauthnChallenges, r.isLive = false
  grants : ∀ r ∈ db.enrollmentGrants, r.isLive = true → grant = some r.id
  sessions : ∀ r ∈ db.ownerSessions, r.isOpen = false
  credentials : ∀ r ∈ db.ownerCredentials, r.isActive = false

/-- A transaction that leaves passkeys and sessions alone. -/
theorem Issues.of_same {challenge : Option (Uuid × String)} {grant : Option Uuid}
    (howner : db'.owner = db.owner) (hcredentials : db'.ownerCredentials = db.ownerCredentials)
    (hsessions : db'.ownerSessions = db.ownerSessions)
    (hchallenges : ∀ r' ∈ db'.webauthnChallenges,
      (challenge = some (r'.id, r'.challenge) ∧ r'.consumedAt = none) ∨
        r' ∈ db.webauthnChallenges ∧ challenge.map Prod.fst ≠ some r'.id)
    (hgrants : ∀ r' ∈ db'.enrollmentGrants,
      (grant = some r'.id ∧ db.enrollmentGrants.find? r'.id = none) ∨
      ∃ r ∈ db.enrollmentGrants, r'.id = r.id ∧ (r'.isLive = true → r.isLive = true) ∧
        (r'.consumedAt = none → r.consumedAt = none) ∧ grant ≠ some r.id)
    (hkept : ∀ id, (db.enrollmentGrants.find? id).isSome →
      (db'.enrollmentGrants.find? id).isSome) (hlock : LockStep db db') :
    Issues challenge grant db db' where
  owner := howner
  challenges r' hr' := (hchallenges r' hr').imp id fun h =>
    ⟨r', h.1, rfl, rfl, fun hlive => hlive, fun hnone => hnone, h.2⟩
  grants := hgrants
  grantsKept := hkept
  sessions id row' h := ⟨row', by rw [← hsessions, h], rfl, fun hopen => hopen⟩
  sessionsKept id h := by rw [hsessions]; exact h
  credentials id row' h := ⟨row', by rw [← hcredentials, h], fun hactive => hactive⟩
  credentialsKept id row h := ⟨row, by rw [hcredentials, h], rfl⟩
  actives := .inr (.inl fun id row h hactive => ⟨row, by rw [hcredentials, h], hactive⟩)
  lock := hlock

/-- A transaction of another service or of the operator that leaves the tables alone. -/
theorem Issues.of_untouched (howner : db'.owner = db.owner)
    (hcredentials : db'.ownerCredentials = db.ownerCredentials)
    (hsessions : db'.ownerSessions = db.ownerSessions)
    (hchallenges : ∀ r ∈ db'.webauthnChallenges, r ∈ db.webauthnChallenges)
    (hgrants : db'.enrollmentGrants = db.enrollmentGrants) (hlock : LockStep db db') :
    Issues none none db db' := by
  refine .of_same howner hcredentials hsessions (fun r hr => .inr ⟨hchallenges r hr, by simp⟩)
    (fun r hr => .inr ⟨r, hgrants ▸ hr, rfl, fun h => h, fun h => h, by simp⟩) (fun id h => ?_)
    hlock
  rw [hgrants]
  exact h

theorem Issues.refl (db : AuthDatabase) : Issues none none db db :=
  .of_untouched rfl rfl rfl (fun _ h => h) rfl (.of_same rfl rfl)

/-! ### The clients -/

theorem deleteExpiredChallenges_issues {now : Time} {u : Unit}
    (h : (deleteExpiredChallenges now).run db = .ok (u, db')) :
    Issues none none db db' ∧ db'.ownerCredentials = db.ownerCredentials := by
  obtain rfl := (Prod.mk.inj (Except.ok.inj h)).2
  refine ⟨.of_untouched rfl rfl rfl (fun r hr => ?_) rfl (.of_same rfl rfl), rfl⟩
  exact (Table.mem_delete.mp hr).1

theorem closeSession_issues {tokenHash : String} {now : Time} {u : Unit}
    (h : (closeSession tokenHash now).run db = .ok (u, db')) :
    Issues none none db db' ∧ db'.ownerCredentials = db.ownerCredentials := by
  let isOpen := fun row : OwnerSession => row.tokenHash == tokenHash && row.isOpen
  have hrun : ∃ trail, { db with
      ownerSessions := db.ownerSessions.update isOpen
        (fun row => { row with revokedAt := some now }) fun _ => rfl
      trail } = db' := by
    simp [closeSession, AuthTx.recordAuthEvent] at h
    rcases h with ⟨-, rfl⟩ | ⟨-, rfl⟩ <;> exact ⟨_, rfl⟩
  obtain ⟨trail, rfl⟩ := hrun
  have hrest := Issues.refl db
  refine ⟨⟨rfl, hrest.challenges, hrest.grants, hrest.grantsKept, fun id row' hrow' => ?_,
    fun id hsome => ?_, hrest.credentials, hrest.credentialsKept, hrest.actives,
    .of_same rfl rfl⟩, rfl⟩
  · rw [Table.find?_update] at hrow'
    obtain ⟨row, hrow, rfl⟩ := Option.map_eq_some_iff.mp hrow'
    refine ⟨row, hrow, ?_, fun hopen => ?_⟩
    · split <;> rfl
    · split at hopen
      · cases hopen
      · exact hopen
  · rw [Table.find?_update]
    simpa using hsome

/-- A new challenge is the one that its row says. -/
theorem insertChallenge_issues {row : WebauthnChallenge} {u : Unit} (hnew : row.consumedAt = none)
    (h : (AuthTx.insertChallenge row).run db = .ok (u, db')) :
    Issues (some (row.id, row.challenge)) none db db' ∧
      db'.ownerCredentials = db.ownerCredentials := by
  have hrun : ∃ t, db.webauthnChallenges.insert? row = some t ∧
      { db with webauthnChallenges := t } = db' := by
    unfold AuthTx.insertChallenge at h
    cases howner : row.ownerId with
    | none =>
        cases hinsert : db.webauthnChallenges.insert? row with
        | none => simp [howner, hinsert] at h
        | some t =>
            simp [howner, hinsert] at h
            exact ⟨t, rfl, h.2⟩
    | some ownerId =>
        cases hinsert : db.webauthnChallenges.insert? row with
        | none => simp [howner, hinsert, AuthTx.requireOwnerReference] at h
        | some t =>
            simp [howner, hinsert, AuthTx.requireOwnerReference] at h
            exact ⟨t, rfl, h.2⟩
  obtain ⟨t, hinsert, rfl⟩ := hrun
  have hrest := Issues.refl db
  refine ⟨.of_same rfl rfl rfl (fun r' hr' => ?_) hrest.grants hrest.grantsKept
    (.of_same rfl rfl), rfl⟩
  rcases (Table.mem_insert? hinsert).mp hr' with hold | rfl
  · refine .inr ⟨hold, fun hid => ?_⟩
    have hfree := Table.find?_eq_none_iff.mp (Table.find?_of_insert? hinsert) r' hold
    exact hfree (Option.some.inj hid).symm
  · exact .inl ⟨rfl, hnew⟩

/-! ### The operator -/

theorem commitInitialize_issues {deployment : Uuid} {r : InitializeOutcome}
    (h : (commitInitialize deployment).run db = .ok (r, db')) :
    Issues none none db db' ∧ db'.ownerCredentials = db.ownerCredentials := by
  unfold commitInitialize setServiceState AuthTx.recordRecoveryEvent at h
  simp at h
  rcases h with ⟨-, -, rfl⟩ | ⟨-, ⟨-, -, rfl⟩ | ⟨-, -, rfl⟩⟩
  · exact ⟨.refl db, rfl⟩
  · exact ⟨.refl db, rfl⟩
  · exact ⟨.of_untouched rfl rfl rfl (fun _ hr => hr) rfl (.of_same rfl rfl), rfl⟩

theorem commitCompleteRecovery_issues {deployment : Uuid} {r : CompleteOutcome}
    (h : (commitCompleteRecovery deployment).run db = .ok (r, db')) :
    Issues none none db db' ∧ db'.ownerCredentials = db.ownerCredentials := by
  have hrun : ∃ mail trail, { db with mail, trail } = db' := by
    unfold commitCompleteRecovery setServiceState AuthTx.recordRecoveryEvent at h
    cases hstate : db.mail.serviceState with
    | none =>
        simp [hstate] at h
        exact ⟨db.mail, db.trail, h.2⟩
    | some row =>
        simp [hstate] at h
        rcases h with ⟨-, ⟨-, ⟨-, -, rfl⟩ | ⟨-, ⟨-, -, rfl⟩ | ⟨-, -, rfl⟩⟩⟩ | ⟨-, -, rfl⟩⟩ |
          ⟨-, -, rfl⟩ <;> exact ⟨_, _, rfl⟩
  obtain ⟨mail, trail, rfl⟩ := hrun
  exact ⟨.of_untouched rfl rfl rfl (fun _ hr => hr) rfl (.of_same rfl rfl), rfl⟩

/-- A revocation ends everything. -/
theorem revokeAllAuthState_revokes {now : Time} {u : Unit}
    (h : (revokeAllAuthState now).run db = .ok (u, db')) :
    Issues none none db db' ∧ Revoked none db' := by
  obtain rfl := (Prod.mk.inj (Except.ok.inj h)).2
  have hcredentials : ∀ r : OwnerCredential,
      (if r.isActive then { r with revokedAt := some now } else r).isActive = false := by
    intro r
    split
    · rfl
    · exact Bool.eq_false_iff.mpr ‹_›
  have hsessions : ∀ r : OwnerSession,
      (if r.isOpen then { r with revokedAt := some now } else r).isOpen = false := by
    intro r
    split
    · rfl
    · exact Bool.eq_false_iff.mpr ‹_›
  have hchallenges : ∀ r : WebauthnChallenge,
      (if r.isLive then { r with revokedAt := some now } else r).isLive = false := by
    intro r
    split
    · simp [WebauthnChallenge.isLive]
    · exact Bool.eq_false_iff.mpr ‹_›
  have hgrants : ∀ r : EnrollmentGrant,
      (if r.isLive then { r with revokedAt := some now } else r).isLive = false := by
    intro r
    split
    · simp [EnrollmentGrant.isLive]
    · exact Bool.eq_false_iff.mpr ‹_›
  refine ⟨⟨rfl, fun r' hr' => .inr ?_, fun r' hr' => .inr ?_, fun id hsome => ?_,
    fun id row' hrow' => ?_, fun id hsome => ?_, fun id row' hrow' => ?_, fun id row hrow => ?_,
    .inr (.inr fun row' hrow' => ?_), .of_same rfl rfl⟩, ⟨fun r' hr' => ?_, fun r' hr' hlive => ?_,
    fun r' hr' => ?_, fun r' hr' => ?_⟩⟩
  · obtain ⟨r, hr, rfl⟩ := List.mem_map.mp hr'
    refine ⟨r, hr, ?_, ?_, fun hlive => ?_, fun hnone => ?_, by simp⟩
    · split <;> rfl
    · split <;> rfl
    · rw [hchallenges r] at hlive
      cases hlive
    · split at hnone <;> exact hnone
  · obtain ⟨r, hr, rfl⟩ := List.mem_map.mp hr'
    refine ⟨r, hr, ?_, fun hlive => ?_, fun hnone => ?_, by simp⟩
    · split <;> rfl
    · rw [hgrants r] at hlive
      cases hlive
    · split at hnone <;> exact hnone
  · rw [Table.find?_update]
    simpa using hsome
  · rw [Table.find?_update] at hrow'
    obtain ⟨row, hrow, rfl⟩ := Option.map_eq_some_iff.mp hrow'
    refine ⟨row, hrow, ?_, fun hopen => ?_⟩
    · split <;> rfl
    · rw [hsessions row] at hopen
      cases hopen
  · rw [Table.find?_update]
    simpa using hsome
  · rw [Table.find?_update] at hrow'
    obtain ⟨row, hrow, rfl⟩ := Option.map_eq_some_iff.mp hrow'
    refine ⟨row, hrow, fun hactive => ?_⟩
    rw [hcredentials row] at hactive
    cases hactive
  · refine ⟨_, by rw [Table.find?_update, hrow, Option.map_some], ?_⟩
    split <;> rfl
  · obtain ⟨r, hr, rfl⟩ := List.mem_map.mp hrow'
    exact hcredentials r
  · obtain ⟨r, hr, rfl⟩ := List.mem_map.mp hr'
    exact hchallenges r
  · obtain ⟨r, hr, rfl⟩ := List.mem_map.mp hr'
    rw [hgrants r] at hlive
    cases hlive
  · obtain ⟨r, hr, rfl⟩ := List.mem_map.mp hr'
    exact hsessions r
  · obtain ⟨r, hr, rfl⟩ := List.mem_map.mp hr'
    exact hcredentials r

theorem revokeGrantsForPurpose_issues {purpose : GrantPurpose} {now : Time} {u : Unit}
    (h : (revokeGrantsForPurpose purpose now).run db = .ok (u, db')) :
    Issues none none db db' ∧ db'.ownerCredentials = db.ownerCredentials := by
  obtain rfl := (Prod.mk.inj (Except.ok.inj h)).2
  refine ⟨.of_same rfl rfl rfl (fun r hr => .inr ⟨hr, by simp⟩) (fun r' hr' => .inr ?_)
    (fun id hsome => ?_) (.of_same rfl rfl), rfl⟩
  · obtain ⟨r, hr, rfl⟩ := List.mem_map.mp hr'
    refine ⟨r, hr, ?_, fun hlive => ?_, fun hnone => ?_, by simp⟩
    · split <;> rfl
    · split at hlive
      · simp [EnrollmentGrant.isLive] at hlive
      · exact hlive
    · split at hnone <;> exact hnone
  · rw [Table.find?_update]
    simpa using hsome

theorem insertGrant_ok {row : EnrollmentGrant} {u : Unit}
    (h : (AuthTx.insertGrant row).run db = .ok (u, db')) :
    ∃ t, db.enrollmentGrants.insert? row = some t ∧ { db with enrollmentGrants := t } = db' := by
  unfold AuthTx.insertGrant at h
  cases hinsert : db.enrollmentGrants.insert? row with
  | none => simp [hinsert] at h
  | some t =>
      simp [hinsert] at h
      exact ⟨t, rfl, h.2.2⟩

/-- A grant that is issued at the end of a transaction. -/
theorem Issues.thenGrant {row : EnrollmentGrant} {t : Table EnrollmentGrant}
    {trail : List AuthEvent} (h : Issues none none db db') (hinsert : db'.enrollmentGrants.insert? row = some t) :
    Issues none (some row.id) db { db' with enrollmentGrants := t, trail } := by
  have hfree := Table.find?_eq_none_iff.mp (Table.find?_of_insert? hinsert)
  have hfresh : db.enrollmentGrants.find? row.id = none := by
    by_contra hsome
    have hkept := h.grantsKept row.id (Option.isSome_iff_ne_none.mpr hsome)
    exact absurd (Table.find?_of_insert? hinsert) (Option.isSome_iff_ne_none.mp hkept)
  refine ⟨h.owner, h.challenges, fun r' hr' => ?_, fun id hsome => ?_, h.sessions,
    h.sessionsKept, h.credentials, h.credentialsKept, h.actives, ⟨h.lock.lock, h.lock.next⟩⟩
  · rcases (Table.mem_insert? hinsert).mp hr' with hold | rfl
    · rcases h.grants r' hold with ⟨hnone, -⟩ | ⟨r, hr, hid, hlive, hconsumed, -⟩
      · cases hnone
      · refine .inr ⟨r, hr, hid, hlive, hconsumed, fun hrow => hfree r' hold ?_⟩
        exact hid.trans (Option.some.inj hrow).symm
    · exact .inl ⟨rfl, hfresh⟩
  · rw [Table.find?_insert? hinsert]
    split
    · rfl
    · exact h.grantsKept id hsome

theorem commitBootstrapGrant_issues {row : EnrollmentGrant} {now : Time} {u : Unit}
    (h : (commitBootstrapGrant row now).run db = .ok (u, db')) :
    Issues none (some row.id) db db' ∧ db'.ownerCredentials = db.ownerCredentials := by
  unfold commitBootstrapGrant AuthTx.recordAuthEvent AuthTx.reject at h
  simp at h
  obtain ⟨-, _, db₁, hrevoke, _, db₂, hinsert, rfl⟩ := h
  obtain ⟨t, ht, rfl⟩ := insertGrant_ok hinsert
  obtain ⟨hissues, hsame⟩ := revokeGrantsForPurpose_issues hrevoke
  exact ⟨hissues.thenGrant ht, hsame⟩

theorem commitRecoveryGrant_revokes {row : EnrollmentGrant} {now : Time} {u : Unit}
    (h : (commitRecoveryGrant row now).run db = .ok (u, db')) :
    Issues none (some row.id) db db' ∧ Revoked (some row.id) db' := by
  unfold commitRecoveryGrant AuthTx.recordAuthEvent at h
  simp at h
  obtain ⟨_, db₁, hrevoke, _, db₂, hinsert, rfl⟩ := h
  obtain ⟨t, ht, rfl⟩ := insertGrant_ok hinsert
  obtain ⟨hissues, hrevoked⟩ := revokeAllAuthState_revokes hrevoke
  refine ⟨hissues.thenGrant ht, hrevoked.challenges, fun r hr hlive => ?_, hrevoked.sessions,
    hrevoked.credentials⟩
  rcases (Table.mem_insert? ht).mp hr with hold | rfl
  · cases hrevoked.grants r hold hlive
  · rfl

/-- What a recovery revokes when it writes the control row. -/
theorem revokeRestoredAuth_revokes {row : ServiceStateRow} {now : Time} {u : Unit}
    (trail : List AuthEvent) (h : (revokeRestoredAuth now).run
      { db with mail := { db.mail with serviceState := some row } } = .ok (u, db')) :
    Issues none none db { db' with trail } ∧ Revoked none db' ∧
      db'.mail.serviceState = some row := by
  unfold revokeRestoredAuth AuthTx.recordAuthEvent at h
  simp at h
  obtain ⟨_, db₂, hrevoke, rfl⟩ := h
  obtain ⟨hissues, hrevoked⟩ := revokeAllAuthState_revokes hrevoke
  obtain rfl := (Prod.mk.inj (Except.ok.inj hrevoke)).2
  exact ⟨⟨hissues.owner, hissues.challenges, hissues.grants, hissues.grantsKept, hissues.sessions,
    hissues.sessionsKept, hissues.credentials, hissues.credentialsKept, hissues.actives,
    ⟨hissues.lock.lock, hissues.lock.next⟩⟩, ⟨hrevoked.challenges, hrevoked.grants,
    hrevoked.sessions, hrevoked.credentials⟩, rfl⟩

/-- The start of a recovery revokes everything when it changes the control row, and nothing when it
leaves the row alone. -/
theorem commitBeginRecovery_revokes {deployment : Uuid} {now : Time} {r : BeginOutcome}
    (h : (commitBeginRecovery deployment now).run db = .ok (r, db')) :
    Issues none none db db' ∧
      (db.mail.serviceState = db'.mail.serviceState ∧ db'.ownerCredentials = db.ownerCredentials ∨
        db.mail.serviceState ≠ db'.mail.serviceState ∧ Revoked none db') := by
  unfold commitBeginRecovery setServiceState AuthTx.recordRecoveryEvent at h
  cases hstate : db.mail.serviceState with
  | none =>
      simp [hstate] at h
      obtain ⟨_, db₁, hrun, -, rfl⟩ := h
      obtain ⟨hissues, hrevoked, hrow⟩ := revokeRestoredAuth_revokes _ hrun
      exact ⟨hissues, .inr ⟨by simp [hrow], hrevoked.challenges, hrevoked.grants,
        hrevoked.sessions, hrevoked.credentials⟩⟩
  | some row =>
      simp [hstate] at h
      rcases h with ⟨-, ⟨-, -, rfl⟩ | ⟨-, -, rfl⟩⟩ | ⟨hgeneration, _, db₁, hrun, -, rfl⟩
      · exact ⟨.refl db, .inl ⟨hstate.symm, rfl⟩⟩
      · exact ⟨.of_untouched rfl rfl rfl (fun _ hr => hr) rfl (.of_same rfl rfl),
          .inl ⟨hstate.symm, rfl⟩⟩
      · obtain ⟨hissues, hrevoked, hrow⟩ := revokeRestoredAuth_revokes _ hrun
        refine ⟨hissues, .inr ⟨fun hsame => hgeneration ?_, hrevoked.challenges, hrevoked.grants,
          hrevoked.sessions, hrevoked.credentials⟩⟩
        rw [Option.some.inj (hsame.trans hrow)]

/-! ### The owner row lock -/

theorem lockOwner_ok {n : ℕ} (h : lockOwner.run db = .ok (n, db')) :
    n = db.nextTransaction ∧ db.ownerLock = none ∧
      { db with ownerLock := some n, nextTransaction := n + 1 } = db' := by
  unfold lockOwner AuthTx.reject at h
  simp at h
  obtain ⟨hlock, -, rfl, rfl⟩ := h
  exact ⟨rfl, hlock, rfl⟩

theorem lockOwner_issues {n : ℕ} (h : lockOwner.run db = .ok (n, db')) :
    Issues none none db db' ∧ db'.ownerCredentials = db.ownerCredentials := by
  obtain ⟨rfl, -, rfl⟩ := lockOwner_ok h
  exact ⟨.of_untouched rfl rfl rfl (fun _ hr => hr) rfl
    ⟨.inr (.inr ⟨rfl, Nat.lt_succ_self _⟩), Nat.le_succ _⟩, rfl⟩

theorem unlockOwner_issues {u : Unit} (h : unlockOwner.run db = .ok (u, db')) :
    Issues none none db db' ∧ db'.ownerCredentials = db.ownerCredentials := by
  obtain rfl := (Prod.mk.inj (Except.ok.inj h)).2
  exact ⟨.of_untouched rfl rfl rfl (fun _ hr => hr) rfl ⟨.inr (.inl rfl), le_refl _⟩, rfl⟩

theorem rollback_issues {n : ℕ} {u : Unit} (h : (rollback n).run db = .ok (u, db')) :
    Issues none none db db' ∧ db'.ownerCredentials = db.ownerCredentials := by
  obtain rfl := (Prod.mk.inj (Except.ok.inj h)).2
  dsimp only
  split
  · exact ⟨.of_untouched rfl rfl rfl (fun _ hr => hr) rfl ⟨.inr (.inl rfl), le_refl _⟩, rfl⟩
  · exact ⟨.refl db, rfl⟩

theorem selectCredential_ok {n credentialId ownerId : Uuid} {r : Option OwnerCredential}
    (h : (selectCredential n credentialId ownerId).run db = .ok (r, db')) :
    db' = db ∧ db.ownerLock = some n ∧ ∀ row, r = some row →
      db.ownerCredentials.find? credentialId = some row := by
  unfold selectCredential requireOpen at h
  simp at h
  obtain ⟨⟨hlock, rfl⟩, rfl⟩ := h
  refine ⟨rfl, hlock, fun row hrow => ?_⟩
  exact (Option.filter_eq_some_iff.mp hrow).1

theorem selectRemaining_ok {n ownerId : Uuid} {rows : List OwnerCredential}
    (h : (selectRemaining n ownerId).run db = .ok (rows, db')) :
    db' = db ∧ db.ownerLock = some n ∧ rows = activeCredentials ownerId db := by
  unfold selectRemaining requireOpen at h
  simp at h
  obtain ⟨⟨hlock, rfl⟩, rfl⟩ := h
  exact ⟨rfl, hlock, rfl⟩

theorem mem_activeCredentials {ownerId : Uuid} {row : OwnerCredential}
    (h : row ∈ activeCredentials ownerId db) : row ∈ db.ownerCredentials ∧ row.isActive = true := by
  unfold activeCredentials at h
  rw [List.mem_insertionSort] at h
  obtain ⟨hmem, hp⟩ := Table.mem_select.mp h
  exact ⟨hmem, (Bool.and_eq_true_iff.mp hp).2⟩

/-- Among two active passkeys there is one to spare. -/
theorem exists_spare {ownerId credentialId : Uuid}
    (h : ¬ (activeCredentials ownerId db).length ≤ 1) :
    ∃ row ∈ db.ownerCredentials, row.isActive = true ∧ row.id ≠ credentialId := by
  by_contra hnone
  push Not at hnone
  -- otherwise every active passkey has the identifier, and there is one row with it
  have hkeys : ((activeCredentials ownerId db).map (·.id)).Nodup := by
    have hperm : (activeCredentials ownerId db).Perm _ := List.perm_insertionSort _ _
    rw [(hperm.map _).nodup_iff]
    exact db.ownerCredentials.nodup.sublist (List.filter_sublist.map _)
  have hsingle : (activeCredentials ownerId db).map (·.id) ⊆ [credentialId] := by
    intro id hid
    obtain ⟨row, hrow, rfl⟩ := List.mem_map.mp hid
    obtain ⟨hmem, hactive⟩ := mem_activeCredentials hrow
    rw [hnone row hmem hactive]
    exact List.mem_singleton_self _
  have hlength := (List.subperm_of_subset hkeys hsingle).length_le
  rw [List.length_map, List.length_singleton] at hlength
  exact h hlength

theorem commitRemoval_ok {n credentialId : Uuid} {now : Time} {u : Unit}
    (h : (commitRemoval n credentialId now).run db = .ok (u, db')) :
    db.ownerLock = some n ∧ ∃ trail, { db with
      ownerCredentials := db.ownerCredentials.update (·.id == credentialId)
        (fun row => { row with revokedAt := some now }) fun _ => rfl
      trail, ownerLock := none } = db' := by
  unfold commitRemoval requireOpen unlockOwner AuthTx.recordAuthEvent at h
  simp at h
  obtain ⟨hlock, rfl⟩ := h
  exact ⟨hlock, _, rfl⟩

theorem commitRemoval_issues {n credentialId : Uuid} {now : Time} {u : Unit}
    (h : (commitRemoval n credentialId now).run db = .ok (u, db')) :
    Issues none none db db' := by
  obtain ⟨-, trail, rfl⟩ := commitRemoval_ok h
  have hrest := Issues.refl db
  refine ⟨rfl, hrest.challenges, hrest.grants, hrest.grantsKept, hrest.sessions,
    hrest.sessionsKept, fun id row' hrow' => ?_, fun id row hrow => ?_, .inl rfl,
    ⟨.inr (.inl rfl), le_refl _⟩⟩
  · rw [Table.find?_update] at hrow'
    obtain ⟨row, hrow, rfl⟩ := Option.map_eq_some_iff.mp hrow'
    refine ⟨row, hrow, fun hactive => ?_⟩
    split at hactive
    · cases hactive
    · exact hactive
  · refine ⟨_, by rw [Table.find?_update, hrow, Option.map_some], ?_⟩
    split <;> rfl

/-- A removal leaves the passkey that it spares. -/
theorem commitRemoval_spares {n credentialId : Uuid} {now : Time} {u : Unit}
    (h : (commitRemoval n credentialId now).run db = .ok (u, db'))
    (hspare : ∃ row ∈ db.ownerCredentials, row.isActive = true ∧ row.id ≠ credentialId) :
    HasActive db' := by
  obtain ⟨-, trail, rfl⟩ := commitRemoval_ok h
  obtain ⟨row, hrow, hactive, hid⟩ := hspare
  refine ⟨row, List.mem_map.mpr ⟨row, hrow, ?_⟩, hactive⟩
  rw [if_neg (by simpa using hid)]

end MailHub.Auth
