import MailHub.Auth.Guarantee

/-!
# The operations keep the authentication discipline

Beginning a ceremony issues a challenge and nothing else. Completing one knows when its response
arrived, that its session was open after that, and which challenge it answers; under unforeseeable
challenges the commit then finds all of them in the current epoch.
-/

namespace MailHub.Auth

open Relational Interleaving

open AuthProgram (query transact transactAs reject)

variable {guarded : Prop} {i : ℕ} {α : Type} {w : AuthWorld} {log : AuthLog}

/-! ## The discipline -/

/-- Nobody gains anything: no session, no passkey and no verification mark is new. -/
structure Idle (db db' : AuthDatabase) : Prop where
  sessions : ∀ id row', db'.ownerSessions.find? id = some row' →
    ∃ row, db.ownerSessions.find? id = some row ∧ row'.verifiedAt = row.verifiedAt
  credentials : ∀ id row', db'.ownerCredentials.find? id = some row' →
    (db.ownerCredentials.find? id).isSome

/-- Everything that a ceremony rests on came to be in the current epoch. -/
structure Current (guarded : Prop) (log : AuthLog) (c : Ceremony) : Prop where
  challenge : ∃ x, log.issued c.challengeId = some x ∧ x.epoch = log.epoch
  grant : ∀ g, c.grantId = some g → log.granted g = log.epoch
  session : guarded → ∀ s, c.sessionId = some s → log.opened s = log.epoch
  credential : ∀ cr, c.credentialId = some cr → log.registered cr = log.epoch

/-- What every commit of the system is shown to do. -/
structure Lawful (guarded : Prop) (tag : Option AuthTag) (w w' : AuthWorld) : Prop where
  rely : AuthRely guarded w w'
  /-- Signature counters never decrease. -/
  counters : ∀ id row, w.store.ownerCredentials.find? id = some row →
    ∃ row', w'.store.ownerCredentials.find? id = some row' ∧ row.counter ≤ row'.counter
  /-- Only ceremonies gain anything. -/
  idle : Idle w.store w'.store ∨ ∃ c, tag = some (.commit c)
  current : ∀ c, tag = some (.commit c) → Current guarded w.outside c
  /-- A ceremony marks its own session. -/
  marked : ∀ c, tag = some (.commit c) → ∀ id row row',
    w.store.ownerSessions.find? id = some row → w'.store.ownerSessions.find? id = some row' →
      row'.verifiedAt ≠ row.verifiedAt → c.sessionId = some id

theorem Idle.refl (db : AuthDatabase) : Idle db db :=
  ⟨fun _ row' h => ⟨row', h, rfl⟩, fun _ _ h => by rw [h]; rfl⟩

/-- The discipline of the authentication service. -/
def authDiscipline (guarded : Prop) : Discipline authSystem where
  inv := AuthInv guarded
  rely := fun _ => AuthRely guarded
  assumes := ⟨fun _ tag w _ => guarded → Unforeseeable tag w.outside, fun _ _ _ _ => True⟩
  ensures := ⟨fun _ tag w w' => Lawful guarded tag w w', fun _ _ _ _ => True⟩
  rely_refl := fun _ => .refl
  rely_trans := fun _ _ _ _ => .trans
  ensures_read := fun _ w _ => ⟨.refl w, fun _ row h => ⟨row, h, le_refl _⟩, .inl (.refl _),
    fun _ h => absurd h (by simp), fun _ h => absurd h (by simp)⟩
  inv_tick := fun _ t => nomatch t
  rely_tick := fun _ _ t => nomatch t
  inv_retire := fun _ _ h => h
  rely_retire := fun w _ _ _ _ => .refl w

/-! ## Steps -/

/-- What the transaction of a worker outside ceremonies does, and what the worker knows then. -/
structure Lightly (guarded : Prop) (tag : Option AuthTag) (w : AuthWorld) (db' : AuthDatabase)
    (K : AuthWorld → Prop) : Prop where
  step : ∃ revokes challenge grant,
    w.outside.afterCommit w.store db' tag = w.outside.issuing revokes challenge grant ∧
      Issues challenge grant w.store db' ∧ Admissible guarded revokes challenge grant w db'
  known : ∀ w', AuthRely guarded ⟨db', w.outside.afterCommit w.store db' tag⟩ w' →
    AuthInv guarded w' → K w'

/-- A transaction outside ceremonies is safe. -/
theorem safe_lightly {tag : Option AuthTag} {t : AuthTx α} {Q : α → AuthWorld → Prop}
    {E : Failure → AuthWorld → Prop} (htag : ∀ c, tag ≠ some (.commit c))
    (h : ∀ w', AuthRely guarded w w' → AuthInv guarded w' →
      (guarded → Unforeseeable tag w'.outside) → ∀ b db', t.run w'.store = .ok (b, db') →
        Lightly guarded tag w' db' (Q b))
    (hE : ∀ e w', AuthRely guarded w w' → AuthInv guarded w' → E e w') :
    Safe (authDiscipline guarded) i (Program.transaction tag t) w Q E := by
  refine .transaction (fun w' hr hi b db' hrun hguard => ?_) fun e w' hr hi _ => hE e w' hr hi
  obtain ⟨⟨revokes, challenge, grant, hlog, hstep, hadm⟩, hknown⟩ := h w' hr hi hguard b db' hrun
  have hworld : Config.committed authSystem w' i tag db' =
      ⟨db', w'.outside.issuing revokes challenge grant⟩ := by
    rw [← hlog]
    rfl
  have hknown' : ∀ w₂, AuthRely guarded (Config.committed authSystem w' i tag db') w₂ →
      AuthInv guarded w₂ → Q b w₂ := hknown
  rw [hworld] at hknown' ⊢
  have hrely := AuthRely.issues hstep hadm
  refine ⟨⟨hi.issues hstep hadm, fun _ _ => hrely⟩, ⟨hrely, fun id row hrow => ?_,
    .inl ⟨fun id row' hrow' => ?_, fun id row' hrow' => ?_⟩, fun c hc => absurd hc (htag c),
    fun c hc => absurd hc (htag c)⟩, .pure hknown'⟩
  · obtain ⟨row', hrow', hcounter⟩ := hstep.credentialsKept id row hrow
    exact ⟨row', hrow', le_of_eq hcounter.symm⟩
  · obtain ⟨row, hrow, hverified, -⟩ := hstep.sessions id row' hrow'
    exact ⟨row, hrow, hverified⟩
  · obtain ⟨row, hrow, -⟩ := hstep.credentials id row' hrow'
    rw [hrow]
    rfl

/-- A transaction without a name that only ends rows, but leaves an active passkey. -/
theorem lightly_of_issues {w : AuthWorld} {db' : AuthDatabase} {K : AuthWorld → Prop}
    (hstep : Issues none none w.store db') (hremains : HasActive w.store → HasActive db')
    (hknown : ∀ w', AuthRely guarded ⟨db', w.outside⟩ w' → AuthInv guarded w' → K w') :
    Lightly guarded none w db' K :=
  ⟨⟨false, none, none, rfl, hstep, .of_remains hremains⟩, hknown⟩

section Keeping

variable {K : AuthWorld → Prop} (hK : Stable (authDiscipline guarded) i K)

include hK

/-- A transaction without a name that keeps an active passkey keeps what is known. -/
theorem preserves_lightly {t : AuthTx α}
    (h : ∀ db b db', t.run db = .ok (b, db') →
      Issues none none db db' ∧ (HasActive db → HasActive db')) :
    Preserves (authDiscipline guarded) i K (transact t) := by
  refine ⟨fun w hw => safe_lightly (by simp) (fun w' hr hi _ b db' hrun => ?_)
    fun _ w' hr hi => hK w w' hr hi hw⟩
  obtain ⟨hstep, hremains⟩ := h w'.store b db' hrun
  refine lightly_of_issues hstep hremains fun w₂ hr₂ hi₂ => ?_
  have hrely : AuthRely guarded w' _ := .issues hstep (.of_remains hremains)
  exact hK w w₂ (hr.trans (hrely.trans hr₂)) hi₂ hw

/-- A transaction that leaves the passkeys alone. -/
theorem preserves_same {t : AuthTx α}
    (h : ∀ db b db', t.run db = .ok (b, db') →
      Issues none none db db' ∧ db'.ownerCredentials = db.ownerCredentials) :
    Preserves (authDiscipline guarded) i K (transact t) := by
  refine preserves_lightly hK fun db b db' hrun => ?_
  obtain ⟨hstep, hsame⟩ := h db b db' hrun
  exact ⟨hstep, fun hactive => hactive.of_same hsame⟩

/-- A request to a library or to the clock keeps what is known. -/
theorem preserves_ask (c : AuthCall) :
    Preserves (authDiscipline guarded) i K (AuthProgram.ask c) := by
  refine ⟨fun w hw => .request fun w' hr hi r o ho _ => ?_⟩
  obtain rfl : w'.outside = o := Option.some.inj ho
  exact ⟨⟨hi, fun _ _ => .refl w'⟩, trivial,
    (Preserves.ofExcept hK r).safe w' (hK w w' hr hi hw)⟩

theorem preserves_query (f : AuthDatabase → α) :
    Preserves (authDiscipline guarded) i K (query f) := .read hK f

theorem preserves_pure (a : α) :
    Preserves (authDiscipline guarded) i K (pure a : AuthProgram α) := .pure hK a

theorem preserves_reject (code : AuthErrorCode) (message : String) :
    Preserves (authDiscipline guarded) i K (reject code message : AuthProgram α) := .throw hK _

/-! ### Checks -/

theorem preserves_controlStatus (ctx : AuthContext) :
    Preserves (authDiscipline guarded) i K (controlStatus ctx) := preserves_query hK _

theorem preserves_controlGeneration (ctx : AuthContext) :
    Preserves (authDiscipline guarded) i K (controlGeneration ctx) := by
  refine .bind (preserves_controlStatus hK ctx) fun status => ?_
  cases openGeneration status with
  | none => exact preserves_reject hK ..
  | some generation => exact preserves_pure hK _

theorem preserves_requireLiveGrant (ctx : AuthContext) (grantToken : String) (now : Time) :
    Preserves (authDiscipline guarded) i K (requireLiveGrant ctx grantToken now) := by
  refine .bind (preserves_query hK _) fun row => ?_
  cases row with
  | none => exact preserves_reject hK ..
  | some row => exact .ite (fun _ => .throw_bind hK) fun _ => preserves_pure hK _

theorem preserves_challengeForResponse (named : Option String) (purpose : ChallengePurpose)
    (now : Time) :
    Preserves (authDiscipline guarded) i K (challengeForResponse named purpose now) := by
  refine .bind (Preserves.ofExcept hK _) fun challenge => .bind (preserves_query hK _) fun row => ?_
  cases row with
  | none => exact preserves_reject hK ..
  | some row => exact .ite (fun _ => .throw_bind hK) fun _ => preserves_pure hK _

theorem preserves_enrollmentContext (ctx : AuthContext) (grantPurpose : GrantPurpose) :
    Preserves (authDiscipline guarded) i K (enrollmentContext ctx grantPurpose) := by
  refine .bind (preserves_controlStatus hK ctx) fun status => ?_
  cases openGeneration status with
  | none => exact preserves_reject hK ..
  | some opened =>
      refine .bind (preserves_query hK _) fun ownerRow => ?_
      cases grantPurpose <;> cases ownerRow
      · exact preserves_pure hK _
      · exact preserves_reject hK ..
      · exact preserves_reject hK ..
      · exact preserves_pure hK _

theorem preserves_loginContext (ctx : AuthContext) :
    Preserves (authDiscipline guarded) i K (loginContext ctx) := by
  refine .bind (preserves_controlStatus hK ctx) fun status => ?_
  cases openGeneration status with
  | none => exact preserves_reject hK ..
  | some opened =>
      refine .bind (preserves_query hK _) fun ownerRow => ?_
      cases ownerRow with
      | none => exact preserves_reject hK ..
      | some ownerRow => exact preserves_pure hK _

theorem preserves_verifyWebauthn {p : AuthProgram α}
    (hp : Preserves (authDiscipline guarded) i K p) :
    Preserves (authDiscipline guarded) i K (verifyWebauthn p) := by
  refine .bind (.attempt hK hp) fun r => ?_
  split
  · exact preserves_pure hK _
  · exact preserves_reject hK ..
  · exact preserves_reject hK ..

theorem preserves_requireRegistration (ctx : AuthContext) (challenge : String)
    (response : RegistrationResponse) :
    Preserves (authDiscipline guarded) i K (requireRegistration ctx challenge response) := by
  refine .bind (preserves_verifyWebauthn hK (preserves_ask hK _)) fun verified => ?_
  cases verified with
  | none => exact preserves_reject hK ..
  | some info => exact preserves_pure hK _

theorem preserves_verifySession (ctx : AuthContext) (token : String) :
    Preserves (authDiscipline guarded) i K (verifySession ctx token) := by
  refine .bind (preserves_query hK _) fun row => ?_
  cases row with
  | none => exact preserves_reject hK ..
  | some row =>
      refine .bind (preserves_ask hK _) fun now => .ite (fun _ => .throw_bind hK) fun _ => ?_
      refine .bind (preserves_controlStatus hK ctx) fun status => ?_
      cases openGeneration status with
      | none => exact preserves_reject hK ..
      | some opened =>
          exact .ite (fun _ => .throw_bind hK) fun _ => .ite (fun _ => .throw_bind hK) fun _ =>
            preserves_pure hK _

theorem preserves_requireOwnerId (sessionId : Uuid) :
    Preserves (authDiscipline guarded) i K (requireOwnerId sessionId) := by
  refine .bind (preserves_query hK _) fun row => ?_
  cases row with
  | none => exact preserves_reject hK ..
  | some row => exact preserves_pure hK _

theorem preserves_requireRecentVerification (ctx : AuthContext) (verifiedAt : Time) :
    Preserves (authDiscipline guarded) i K (requireRecentVerification ctx verifiedAt) := by
  refine .bind (preserves_ask hK _) fun now => .ite (fun _ => ?_) fun _ => preserves_pure hK _
  exact preserves_reject hK ..

end Keeping

end MailHub.Auth
