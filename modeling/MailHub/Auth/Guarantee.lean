import MailHub.Auth.Commits

/-!
# The authentication discipline

The log says in which epoch between two revocations each row came to be, and whatever is still
live came to be in the current one. A worker that completes a ceremony relies on what it read under
this record, and a removal on the lock of the owner row.
-/

namespace MailHub.Auth

open Relational Interleaving

/-- Database and log at one moment of a run. -/
abbrev AuthWorld := World authSignature AuthLog

variable {guarded : Prop} {i : ℕ} {α : Type} {w w' : AuthWorld} {log : AuthLog}
  {db db' : AuthDatabase} {revokes : Bool} {challenge : Option (Uuid × String)}
  {grant : Option Uuid}

/-! ## The invariant -/

/-- The stored challenges are on record: a live one was issued in this epoch, and one that is not
consumed yet was consumed by nobody. -/
structure ChallengesRecorded (t : Table WebauthnChallenge) (log : AuthLog) : Prop where
  issued : ∀ r ∈ t, ∃ x, log.issued r.id = some x ∧ x.challenge = r.challenge ∧
    (r.isLive = true → x.epoch = log.epoch) ∧ (r.consumedAt = none → x.serial ∉ log.consumed)
  serial : ∀ id x, log.issued id = some x → x.serial < log.issuances ∧ x.epoch ≤ log.epoch
  distinct : ∀ id id' x x', log.issued id = some x → log.issued id' = some x' →
    x.serial = x'.serial → id = id'
  nodup : log.consumed.Nodup
  bounded : ∀ n ∈ log.consumed, n < log.issuances

/-- The stored grants are on record. -/
structure GrantsRecorded (t : Table EnrollmentGrant) (log : AuthLog) : Prop where
  granted : ∀ r ∈ t, log.granted r.id ≤ log.epoch ∧
    (r.isLive = true → log.granted r.id = log.epoch) ∧ (r.consumedAt = none → r.id ∉ log.redeemed)
  nodup : log.redeemed.Nodup
  stored : ∀ g ∈ log.redeemed, (t.find? g).isSome

/-- An open session was opened in this epoch. -/
def SessionsRecorded (t : Table OwnerSession) (log : AuthLog) : Prop :=
  ∀ id row, t.find? id = some row →
    log.opened id ≤ log.epoch ∧ (row.isOpen = true → log.opened id = log.epoch)

/-- An active passkey was registered in this epoch. -/
def CredentialsRecorded (t : Table OwnerCredential) (log : AuthLog) : Prop :=
  ∀ id row, t.find? id = some row →
    log.registered id ≤ log.epoch ∧ (row.isActive = true → log.registered id = log.epoch)

/-- A response names only challenges that were issued before it arrived. -/
def NamedAfter (log : AuthLog) : Prop :=
  ∀ value e, (value, e) ∈ log.named →
    ∀ id x, log.issued id = some x → x.challenge = value → x.epoch ≤ e

/-- The invariant of database and log. -/
structure AuthInv (guarded : Prop) (w : AuthWorld) : Prop where
  owner : ∀ o ∈ w.store.owner, o.singleton = true
  challenges : ChallengesRecorded w.store.webauthnChallenges w.outside
  grants : GrantsRecorded w.store.enrollmentGrants w.outside
  sessions : SessionsRecorded w.store.ownerSessions w.outside
  credentials : CredentialsRecorded w.store.ownerCredentials w.outside
  /-- An enrollment leaves a passkey for the rest of the epoch. -/
  enrolled : w.outside.enrolled = true → HasActive w.store
  named : guarded → NamedAfter w.outside
  lock : ∀ n, w.store.ownerLock = some n → n < w.store.nextTransaction

/-! ## What workers rely on -/

/-- Active passkeys stay active, or everything that was registered is revoked. -/
def ActivesKept (db db' : AuthDatabase) : Prop :=
  (∀ id row, db.ownerCredentials.find? id = some row → row.isActive = true →
    ∃ row', db'.ownerCredentials.find? id = some row' ∧ row'.isActive = true) ∨
  ∀ id row row', db.ownerCredentials.find? id = some row →
    db'.ownerCredentials.find? id = some row' → row'.isActive = false

/-- What everybody relies on. -/
structure AuthRely (guarded : Prop) (w w' : AuthWorld) : Prop where
  epoch : w.outside.epoch ≤ w'.outside.epoch
  named : ∀ a ∈ w.outside.named, a ∈ w'.outside.named
  issued : guarded → ∀ id x, w.outside.issued id = some x → w'.outside.issued id = some x
  grants : ∀ id, (w.store.enrollmentGrants.find? id).isSome →
    (w'.store.enrollmentGrants.find? id).isSome ∧ w'.outside.granted id = w.outside.granted id
  sessions : ∀ id, (w.store.ownerSessions.find? id).isSome →
    (w'.store.ownerSessions.find? id).isSome ∧ w'.outside.opened id = w.outside.opened id
  credentials : ∀ id row, w.store.ownerCredentials.find? id = some row →
    ∃ row', w'.store.ownerCredentials.find? id = some row' ∧
      w'.outside.registered id = w.outside.registered id ∧
      (row'.isActive = true → row.isActive = true)
  next : w.store.nextTransaction ≤ w'.store.nextTransaction
  /-- Whoever still holds the lock held it all the time, and no passkey was removed meanwhile. -/
  lock : ∀ n < w.store.nextTransaction, w'.store.ownerLock = some n →
    w.store.ownerLock = some n ∧ ActivesKept w.store w'.store

theorem AuthRely.refl (w : AuthWorld) : AuthRely guarded w w :=
  ⟨le_refl _, fun _ h => h, fun _ _ _ h => h, fun _ h => ⟨h, rfl⟩, fun _ h => ⟨h, rfl⟩,
    fun _ row h => ⟨row, h, rfl, fun h => h⟩, le_refl _,
    fun _ _ h => ⟨h, .inl fun _ row hrow hactive => ⟨row, hrow, hactive⟩⟩⟩

theorem AuthRely.trans {w₁ w₂ w₃ : AuthWorld} (h₁ : AuthRely guarded w₁ w₂)
    (h₂ : AuthRely guarded w₂ w₃) : AuthRely guarded w₁ w₃ where
  epoch := le_trans h₁.epoch h₂.epoch
  named a ha := h₂.named a (h₁.named a ha)
  issued hg id x hx := h₂.issued hg id x (h₁.issued hg id x hx)
  grants id hid := by
    obtain ⟨hsome, hgranted⟩ := h₁.grants id hid
    obtain ⟨hsome', hgranted'⟩ := h₂.grants id hsome
    exact ⟨hsome', hgranted'.trans hgranted⟩
  sessions id hid := by
    obtain ⟨hsome, hopened⟩ := h₁.sessions id hid
    obtain ⟨hsome', hopened'⟩ := h₂.sessions id hsome
    exact ⟨hsome', hopened'.trans hopened⟩
  credentials id row hrow := by
    obtain ⟨row₂, hrow₂, hregistered, hactive⟩ := h₁.credentials id row hrow
    obtain ⟨row₃, hrow₃, hregistered', hactive'⟩ := h₂.credentials id row₂ hrow₂
    exact ⟨row₃, hrow₃, hregistered'.trans hregistered, fun h => hactive (hactive' h)⟩
  next := le_trans h₁.next h₂.next
  lock n hn hlock := by
    obtain ⟨hlock₂, hkept₂⟩ := h₂.lock n (lt_of_lt_of_le hn h₁.next) hlock
    obtain ⟨hlock₁, hkept₁⟩ := h₁.lock n hn hlock₂
    refine ⟨hlock₁, ?_⟩
    rcases hkept₁ with hkept₁ | hrevoked
    · rcases hkept₂ with hkept₂ | hrevoked
      · refine .inl fun id row hrow hactive => ?_
        obtain ⟨row₂, hrow₂, hactive₂⟩ := hkept₁ id row hrow hactive
        exact hkept₂ id row₂ hrow₂ hactive₂
      · refine .inr fun id row row₃ hrow hrow₃ => ?_
        obtain ⟨row₂, hrow₂, -⟩ := h₁.credentials id row hrow
        exact hrevoked id row₂ row₃ hrow₂ hrow₃
    · -- what was revoked stays revoked
      refine .inr fun id row row₃ hrow hrow₃ => ?_
      obtain ⟨row₂, hrow₂, -⟩ := h₁.credentials id row hrow
      obtain ⟨row₃', hrow₃', -, hactive⟩ := h₂.credentials id row₂ hrow₂
      obtain rfl := Option.some.inj (hrow₃.symm.trans hrow₃')
      by_contra hne
      have hrevoked₂ := hrevoked id row row₂ hrow hrow₂
      rw [hactive (Bool.eq_true_of_not_eq_false hne)] at hrevoked₂
      cases hrevoked₂

/-- The lock after one step. -/
theorem LockStep.held (h : LockStep db db') {n : ℕ} (hn : n < db.nextTransaction)
    (hlock : db'.ownerLock = some n) : db.ownerLock = some n := by
  rcases h.lock with hsame | hnone | ⟨hnext, -⟩
  · rw [← hsame, hlock]
  · rw [hnone] at hlock
    cases hlock
  · have hn' := Option.some.inj (hnext.symm.trans hlock)
    omega

theorem LockStep.bounded (h : LockStep db db')
    (hinv : ∀ n, db.ownerLock = some n → n < db.nextTransaction) :
    ∀ n, db'.ownerLock = some n → n < db'.nextTransaction := by
  intro n hlock
  rcases h.lock with hsame | hnone | ⟨hnext, hlt⟩
  · exact lt_of_lt_of_le (hinv n (hsame ▸ hlock)) h.next
  · rw [hnone] at hlock
    cases hlock
  · rwa [← Option.some.inj (hnext.symm.trans hlock)]

/-! ## What a transaction outside ceremonies keeps -/

/-- The log after a transaction that issues a challenge and a grant, and may revoke the rest. -/
def AuthLog.issuing (log : AuthLog) (revokes : Bool) (challenge : Option (Uuid × String))
    (grant : Option Uuid) : AuthLog :=
  let epoch := if revokes then log.epoch + 1 else log.epoch
  { log with
    epoch
    enrolled := !revokes && log.enrolled
    issuances := match challenge with
      | some _ => log.issuances + 1
      | none => log.issuances
    issued := match challenge with
      | some (id, value) =>
          Function.update log.issued id (some ⟨log.issuances, epoch, value⟩)
      | none => log.issued
    granted := match grant with
      | some id => Function.update log.granted id epoch
      | none => log.granted }

theorem AuthLog.epoch_le_issuing : log.epoch ≤ (log.issuing revokes challenge grant).epoch := by
  cases revokes with
  | false => exact le_refl _
  | true => exact Nat.le_succ _

/-- Without a revocation the epoch goes on. -/
theorem AuthLog.issuing_epoch (h : revokes = false) :
    (log.issuing revokes challenge grant).epoch = log.epoch := by
  rw [h]
  rfl

theorem ChallengesRecorded.issues (h : ChallengesRecorded db.webauthnChallenges log)
    (hstep : Issues challenge grant db db')
    (hrevokes : revokes = true →
      challenge = none ∧ ∀ r ∈ db'.webauthnChallenges, r.isLive = false) :
    ChallengesRecorded db'.webauthnChallenges (log.issuing revokes challenge grant) := by
  -- a row that was there before keeps its issue
  have hold : ∀ r' ∈ db'.webauthnChallenges, ∀ r ∈ db.webauthnChallenges, r'.id = r.id →
      r'.challenge = r.challenge → (r'.isLive = true → r.isLive = true) →
      (r'.consumedAt = none → r.consumedAt = none) → ∃ x, log.issued r'.id = some x ∧
        x.challenge = r'.challenge ∧
        (r'.isLive = true → x.epoch = (log.issuing revokes challenge grant).epoch) ∧
        (r'.consumedAt = none → x.serial ∉ log.consumed) := by
    intro r' hr' r hr hid hchallenge hlive hnone
    obtain ⟨x, hx, hvalue, hepoch, hfresh⟩ := h.issued r hr
    refine ⟨x, by rw [hid, hx], by rw [hvalue, hchallenge], fun hl => ?_,
      fun hn => hfresh (hnone hn)⟩
    cases hrev : revokes with
    | false => exact hepoch (hlive hl)
    | true =>
        rw [(hrevokes hrev).2 r' hr'] at hl
        cases hl
  cases challenge with
  | none =>
      refine ⟨fun r' hr' => ?_, fun id x hx => ?_, h.distinct, h.nodup, h.bounded⟩
      · rcases hstep.challenges r' hr' with ⟨hnew, -⟩ | ⟨r, hr, hid, hvalue, hlive, hnone, -⟩
        · cases hnew
        · exact hold r' hr' r hr hid hvalue hlive hnone
      · obtain ⟨hserial, hepoch⟩ := h.serial id x hx
        exact ⟨hserial, le_trans hepoch AuthLog.epoch_le_issuing⟩
  | some issue =>
  obtain ⟨newId, value⟩ := issue
  have hissued : ∀ id x, (log.issuing revokes (some (newId, value)) grant).issued id = some x →
      (id = newId ∧ x = ⟨log.issuances, (log.issuing revokes (some (newId, value)) grant).epoch,
        value⟩) ∨ log.issued id = some x := by
    intro id x hx
    change Function.update log.issued newId _ id = some x at hx
    by_cases hid : id = newId
    · rw [hid, Function.update_self] at hx
      exact .inl ⟨hid, (Option.some.inj hx).symm⟩
    · rw [Function.update_of_ne hid] at hx
      exact .inr hx
  refine ⟨fun r' hr' => ?_, fun id x hx => ?_, fun id id' x x' hx hx' hserial => ?_, h.nodup,
    fun n hn => Nat.lt_succ_of_lt (h.bounded n hn)⟩
  · rcases hstep.challenges r' hr' with ⟨hnew, -⟩ | ⟨r, hr, hid, hvalue, hlive, hnone, hne⟩
    · obtain ⟨rfl, rfl⟩ := Prod.mk.inj (Option.some.inj hnew)
      refine ⟨_, Function.update_self .., rfl, fun _ => rfl, fun _ hmem => ?_⟩
      exact absurd (h.bounded _ hmem) (lt_irrefl _)
    · obtain ⟨x, hx, hrest⟩ := hold r' hr' r hr hid hvalue hlive hnone
      have hne' : r'.id ≠ newId := fun heq => hne (by rw [Option.map_some, ← hid, heq])
      exact ⟨x, (Function.update_of_ne hne' ..).trans hx, hrest⟩
  · rcases hissued id x hx with ⟨-, rfl⟩ | hx
    · exact ⟨Nat.lt_succ_self _, le_refl _⟩
    · obtain ⟨hserial, hepoch⟩ := h.serial id x hx
      exact ⟨Nat.lt_succ_of_lt hserial, le_trans hepoch AuthLog.epoch_le_issuing⟩
  · rcases hissued id x hx with ⟨hnew, rfl⟩ | hold₁
    · rcases hissued id' x' hx' with ⟨hnew', -⟩ | hold₂
      · rw [hnew, hnew']
      · have hlt := (h.serial id' x' hold₂).1
        rw [← hserial] at hlt
        exact absurd hlt (lt_irrefl _)
    · rcases hissued id' x' hx' with ⟨-, rfl⟩ | hold₂
      · have hlt := (h.serial id x hold₁).1
        rw [hserial] at hlt
        exact absurd hlt (lt_irrefl _)
      · exact h.distinct id id' x x' hold₁ hold₂ hserial

/-- A new grant is of the epoch in which the transaction leaves the log. -/
theorem AuthLog.issuing_granted (id : Uuid) : (log.issuing revokes challenge grant).granted id =
    if grant = some id then (log.issuing revokes challenge grant).epoch else log.granted id := by
  cases grant with
  | none => rfl
  | some g =>
      by_cases hid : id = g
      · subst hid
        rw [if_pos rfl]
        exact Function.update_self ..
      · rw [if_neg fun heq => hid (Option.some.inj heq).symm]
        exact Function.update_of_ne hid ..

theorem GrantsRecorded.issues (h : GrantsRecorded db.enrollmentGrants log)
    (hstep : Issues challenge grant db db')
    (hrevokes : revokes = true →
      ∀ r ∈ db'.enrollmentGrants, r.isLive = true → grant = some r.id) :
    GrantsRecorded db'.enrollmentGrants (log.issuing revokes challenge grant) := by
  refine ⟨fun r' hr' => ?_, h.nodup, fun g hg => hstep.grantsKept g (h.stored g hg)⟩
  rw [AuthLog.issuing_granted]
  rcases hstep.grants r' hr' with ⟨hnew, hfree⟩ | ⟨r, hr, hid, hlive, hnone, hne⟩
  · rw [if_pos hnew]
    refine ⟨le_refl _, fun _ => rfl, fun _ hmem => ?_⟩
    have hstored := h.stored _ hmem
    rw [hfree] at hstored
    cases hstored
  · rw [hid, if_neg hne]
    obtain ⟨hle, hepoch, hfresh⟩ := h.granted r hr
    refine ⟨le_trans hle AuthLog.epoch_le_issuing, fun hl => ?_, fun hn => hfresh (hnone hn)⟩
    cases hrev : revokes with
    | false => exact hepoch (hlive hl)
    | true =>
        have hnew := hrevokes hrev r' hr' hl
        rw [hid] at hnew
        exact absurd hnew hne

theorem SessionsRecorded.issues (h : SessionsRecorded db.ownerSessions log)
    (hstep : Issues challenge grant db db')
    (hrevokes : revokes = true → ∀ r ∈ db'.ownerSessions, r.isOpen = false) :
    SessionsRecorded db'.ownerSessions (log.issuing revokes challenge grant) := by
  intro id row' hrow'
  obtain ⟨row, hrow, -, hopen⟩ := hstep.sessions id row' hrow'
  obtain ⟨hle, hepoch⟩ := h id row hrow
  refine ⟨le_trans hle AuthLog.epoch_le_issuing, fun hopen' => ?_⟩
  cases hrev : revokes with
  | false => exact hepoch (hopen hopen')
  | true =>
      rw [hrevokes hrev row' (Table.mem_of_find? hrow')] at hopen'
      cases hopen'

theorem CredentialsRecorded.issues (h : CredentialsRecorded db.ownerCredentials log)
    (hstep : Issues challenge grant db db')
    (hrevokes : revokes = true → ∀ r ∈ db'.ownerCredentials, r.isActive = false) :
    CredentialsRecorded db'.ownerCredentials (log.issuing revokes challenge grant) := by
  intro id row' hrow'
  obtain ⟨row, hrow, hactive⟩ := hstep.credentials id row' hrow'
  obtain ⟨hle, hepoch⟩ := h id row hrow
  refine ⟨le_trans hle AuthLog.epoch_le_issuing, fun hactive' => ?_⟩
  cases hrev : revokes with
  | false => exact hepoch (hactive hactive')
  | true =>
      rw [hrevokes hrev row' (Table.mem_of_find? hrow')] at hactive'
      cases hactive'

/-- The identifiers of new challenges are fresh, and no response named a challenge before it was
issued: both come from the random numbers of the library. -/
def Unforeseeable (tag : Option AuthTag) (log : AuthLog) : Prop :=
  ∀ id value, tag = some (.issueChallenge id value) →
    log.issued id = none ∧ ∀ e, (value, e) ∉ log.named

theorem NamedAfter.issues (h : NamedAfter log)
    (hfresh : ∀ id value, challenge = some (id, value) → ∀ e, (value, e) ∉ log.named) :
    NamedAfter (log.issuing revokes challenge grant) := by
  intro value e hnamed id x hx hvalue
  cases challenge with
  | none => exact h value e hnamed id x hx hvalue
  | some issue =>
      obtain ⟨newId, new⟩ := issue
      change Function.update log.issued newId _ id = some x at hx
      by_cases hid : id = newId
      · rw [hid, Function.update_self] at hx
        obtain rfl := Option.some.inj hx
        have hne : (new, e) ∉ log.named := hfresh newId new rfl e
        exact absurd hnamed (hvalue ▸ hne)
      · rw [Function.update_of_ne hid] at hx
        exact h value e hnamed id x hx hvalue

/-- What a transaction outside ceremonies needs of its log, beyond what it does. -/
structure Admissible (guarded : Prop) (revokes : Bool) (challenge : Option (Uuid × String))
    (grant : Option Uuid) (w : AuthWorld) (db' : AuthDatabase) : Prop where
  revoked : revokes = true → challenge = none ∧ Revoked grant db'
  remains : revokes = false → HasActive w.store → HasActive db'
  fresh : guarded → ∀ id value, challenge = some (id, value) →
    w.outside.issued id = none ∧ ∀ e, (value, e) ∉ w.outside.named

/-- A transaction that issues and revokes nothing only has to leave an active passkey. -/
theorem Admissible.of_remains {w : AuthWorld} (h : HasActive w.store → HasActive db') :
    Admissible guarded false none none w db' :=
  ⟨fun hrevokes => absurd hrevokes (by simp), fun _ => h, fun _ _ _ hc => absurd hc (by simp)⟩

theorem AuthInv.issues (hw : AuthInv guarded w) (hstep : Issues challenge grant w.store db')
    (hadm : Admissible guarded revokes challenge grant w db') :
    AuthInv guarded ⟨db', w.outside.issuing revokes challenge grant⟩ where
  owner o ho := hw.owner o (hstep.owner ▸ ho)
  challenges := hw.challenges.issues hstep fun h => ⟨(hadm.revoked h).1, (hadm.revoked h).2.1⟩
  grants := hw.grants.issues hstep fun h => (hadm.revoked h).2.2
  sessions := hw.sessions.issues hstep fun h => (hadm.revoked h).2.3
  credentials := hw.credentials.issues hstep fun h => (hadm.revoked h).2.4
  enrolled h := by
    cases hrev : revokes with
    | true => simp [AuthLog.issuing, hrev] at h
    | false => exact hadm.remains hrev (hw.enrolled (by simpa [AuthLog.issuing, hrev] using h))
  named hg := (hw.named hg).issues fun id value hc => (hadm.fresh hg id value hc).2
  lock := hstep.lock.bounded hw.lock

/-- The others can rely on a transaction outside ceremonies. -/
theorem AuthRely.issues (hstep : Issues challenge grant w.store db')
    (hadm : Admissible guarded revokes challenge grant w db') :
    AuthRely guarded w ⟨db', w.outside.issuing revokes challenge grant⟩ where
  epoch := AuthLog.epoch_le_issuing
  named a ha := ha
  issued hg id x hx := by
    cases challenge with
    | none => exact hx
    | some issue =>
        obtain ⟨newId, value⟩ := issue
        have hne : id ≠ newId := by
          rintro rfl
          rw [(hadm.fresh hg id value rfl).1] at hx
          cases hx
        exact (Function.update_of_ne hne ..).trans hx
  grants id hid := by
    refine ⟨hstep.grantsKept id hid, ?_⟩
    have hne : grant ≠ some id := by
      rintro rfl
      obtain ⟨row', hrow'⟩ := Option.isSome_iff_exists.mp (hstep.grantsKept id hid)
      have hid' : row'.id = id := Table.key_of_find? hrow'
      rcases hstep.grants row' (Table.mem_of_find? hrow') with ⟨-, hfree⟩ | ⟨r, -, hr, -, -, hne⟩
      · rw [hid'] at hfree
        rw [hfree] at hid
        cases hid
      · exact hne (by rw [← hr, hid'])
    exact (AuthLog.issuing_granted id).trans (if_neg hne)
  sessions id hid := ⟨hstep.sessionsKept id hid, rfl⟩
  credentials id row hrow := by
    obtain ⟨row', hrow', -⟩ := hstep.credentialsKept id row hrow
    obtain ⟨row₀, hrow₀, hactive⟩ := hstep.credentials id row' hrow'
    obtain rfl := Option.some.inj (hrow.symm.trans hrow₀)
    exact ⟨row', hrow', rfl, hactive⟩
  next := hstep.lock.next
  lock n hn hlock := by
    refine ⟨hstep.lock.held hn hlock, ?_⟩
    rcases hstep.actives with hnone | hkept | hrevoked
    · have hlock' : db'.ownerLock = some n := hlock
      rw [hnone] at hlock'
      cases hlock'
    · exact .inl hkept
    · exact .inr fun id row row' _ hrow' => hrevoked row' (Table.mem_of_find? hrow')

/-! ## What a ceremony keeps -/

variable {c : Ceremony}

/-- The log after a ceremony keeps the record of what was there before. -/
theorem AuthLog.performed_opened {id : Uuid} (h : (db.ownerSessions.find? id).isSome) :
    (log.performed db db' c).opened id = log.opened id := by
  obtain ⟨row, hrow⟩ := Option.isSome_iff_exists.mp h
  simp [AuthLog.performed, hrow]

theorem AuthLog.performed_registered {id : Uuid} (h : (db.ownerCredentials.find? id).isSome) :
    (log.performed db db' c).registered id = log.registered id := by
  obtain ⟨row, hrow⟩ := Option.isSome_iff_exists.mp h
  simp [AuthLog.performed, hrow]

theorem ChallengesRecorded.performed (h : ChallengesRecorded db.webauthnChallenges log)
    (hstep : CeremonyStep c db db') :
    ChallengesRecorded db'.webauthnChallenges (log.performed db db' c) := by
  obtain ⟨row, hrow, hlive⟩ := hstep.challenge
  have hid : row.id = c.challengeId := Table.key_of_find? hrow
  obtain ⟨x, hx, -, -, hfresh⟩ := h.issued row (Table.mem_of_find? hrow)
  have hnone : row.consumedAt = none := by
    simp only [WebauthnChallenge.isLive, Bool.and_eq_true, Option.isNone_iff_eq_none] at hlive
    exact hlive.1
  rw [hid] at hx
  have hconsumed : (log.performed db db' c).consumed = log.consumed ++ [x.serial] := by
    simp [AuthLog.performed, hx]
  refine ⟨fun r' hr' => ?_, h.serial, h.distinct, ?_, fun n hn => ?_⟩
  · obtain ⟨r, hr, hid', hvalue, hlive', hkept⟩ := hstep.challenges r' hr'
    obtain ⟨y, hy, hvalue', hepoch, hfresh'⟩ := h.issued r hr
    refine ⟨y, by rw [hid']; exact hy, by rw [hvalue', hvalue], fun hl => hepoch (hlive' hl),
      fun hn => ?_⟩
    obtain ⟨hn', hne⟩ := hkept hn
    rw [hconsumed, List.mem_append, List.mem_singleton]
    rintro (hmem | hserial)
    · exact hfresh' hn' hmem
    · exact hne (h.distinct r.id c.challengeId y x hy hx hserial)
  · rw [hconsumed]
    refine List.nodup_append.mpr ⟨h.nodup, List.nodup_singleton _, fun n hn m hm => ?_⟩
    obtain rfl := List.mem_singleton.mp hm
    exact fun heq => hfresh hnone (heq ▸ hn)
  · rw [hconsumed] at hn
    rcases List.mem_append.mp hn with hn | hn
    · exact h.bounded n hn
    · obtain rfl := List.mem_singleton.mp hn
      exact (h.serial _ x hx).1

theorem GrantsRecorded.performed (h : GrantsRecorded db.enrollmentGrants log)
    (hstep : CeremonyStep c db db') :
    GrantsRecorded db'.enrollmentGrants (log.performed db db' c) := by
  have hredeemed : ∀ g, g ∈ (log.performed db db' c).redeemed ↔
      g ∈ log.redeemed ∨ c.grantId = some g := by
    intro g
    simp [AuthLog.performed]
  refine ⟨fun r' hr' => ?_, ?_, fun g hg => hstep.grantsKept g ?_⟩
  · obtain ⟨r, hr, hid, hlive, hkept⟩ := hstep.grants r' hr'
    obtain ⟨hle, hepoch, hfresh⟩ := h.granted r hr
    rw [hid, hredeemed]
    refine ⟨hle, fun hl => hepoch (hlive hl), fun hn hmem => ?_⟩
    obtain ⟨hn', hne⟩ := hkept hn
    exact hmem.elim (hfresh hn') hne
  · refine List.nodup_append.mpr ⟨h.nodup, ?_, fun g hg g' hg' => ?_⟩
    · cases c.grantId <;> simp
    · rintro rfl
      obtain ⟨row, hrow, hlive⟩ := hstep.grant g (by simpa using hg')
      have hid : row.id = g := Table.key_of_find? hrow
      simp only [EnrollmentGrant.isLive, Bool.and_eq_true, Option.isNone_iff_eq_none] at hlive
      exact (h.granted row (Table.mem_of_find? hrow)).2.2 hlive.1 (hid ▸ hg)
  · rcases (hredeemed g).mp hg with hg | hg
    · exact h.stored g hg
    · obtain ⟨row, hrow, -⟩ := hstep.grant g hg
      rw [hrow]
      rfl

theorem SessionsRecorded.performed (h : SessionsRecorded db.ownerSessions log)
    (hstep : CeremonyStep c db db') :
    SessionsRecorded db'.ownerSessions (log.performed db db' c) := by
  intro id row' hrow'
  rcases hstep.sessions id row' hrow' with hnew | ⟨row, hrow, -, hopen⟩
  · have hopened : (log.performed db db' c).opened id = log.epoch := by
      simp [AuthLog.performed, hnew, hrow']
    exact ⟨le_of_eq hopened, fun _ => hopened⟩
  · obtain ⟨hle, hepoch⟩ := h id row hrow
    rw [AuthLog.performed_opened (by rw [hrow]; rfl)]
    exact ⟨hle, fun hopen' => hepoch (hopen ▸ hopen')⟩

theorem CredentialsRecorded.performed (h : CredentialsRecorded db.ownerCredentials log)
    (hstep : CeremonyStep c db db') :
    CredentialsRecorded db'.ownerCredentials (log.performed db db' c) := by
  intro id row' hrow'
  rcases hstep.credentials id row' hrow' with hnew | ⟨row, hrow, hactive⟩
  · have hregistered : (log.performed db db' c).registered id = log.epoch := by
      simp [AuthLog.performed, hnew, hrow']
    exact ⟨le_of_eq hregistered, fun _ => hregistered⟩
  · obtain ⟨hle, hepoch⟩ := h id row hrow
    rw [AuthLog.performed_registered (by rw [hrow]; rfl)]
    exact ⟨hle, fun hactive' => hepoch (hactive ▸ hactive')⟩

theorem AuthInv.performed (hw : AuthInv guarded w) (hstep : CeremonyStep c w.store db') :
    AuthInv guarded ⟨db', w.outside.performed w.store db' c⟩ where
  owner o ho := (hstep.owner o ho).elim (hw.owner o) id
  challenges := hw.challenges.performed hstep
  grants := hw.grants.performed hstep
  sessions := hw.sessions.performed hstep
  credentials := hw.credentials.performed hstep
  enrolled h := by
    rcases Bool.or_eq_true_iff.mp h with h | h
    · obtain ⟨row, hrow, hactive⟩ := hw.enrolled h
      obtain ⟨row', hrow', -, hactive'⟩ :=
        hstep.credentialsKept _ row (Table.mem_iff_find?.mp hrow)
      exact ⟨row', Table.mem_of_find? hrow', hactive'.trans hactive⟩
    · exact hstep.enrolled h
  named hg := hw.named hg
  lock := hstep.lock.bounded hw.lock

/-- The others can rely on the commit of a ceremony. -/
theorem AuthRely.performed (hstep : CeremonyStep c w.store db') :
    AuthRely guarded w ⟨db', w.outside.performed w.store db' c⟩ where
  epoch := le_refl _
  named a ha := ha
  issued _ id x hx := hx
  grants id hid := ⟨hstep.grantsKept id hid, rfl⟩
  sessions id hid := ⟨hstep.sessionsKept id hid, AuthLog.performed_opened hid⟩
  credentials id row hrow := by
    obtain ⟨row', hrow', -, hactive⟩ := hstep.credentialsKept id row hrow
    exact ⟨row', hrow', AuthLog.performed_registered (by rw [hrow]; rfl),
      fun h => hactive ▸ h⟩
  next := hstep.lock.next
  lock n hn hlock := by
    refine ⟨hstep.lock.held hn hlock, .inl fun id row hrow hactive => ?_⟩
    obtain ⟨row', hrow', -, hactive'⟩ := hstep.credentialsKept id row hrow
    exact ⟨row', hrow', hactive'.trans hactive⟩

end MailHub.Auth
