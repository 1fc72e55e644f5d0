import MailHub.Auth.Service

/-!
# Ceremonies

Each ceremony is begun by one request, which issues its challenge, and completed by another, which
answers it. The completing request reads the challenge, waits for the cryptographic check, and
commits in one transaction that consumes the challenge.
-/

namespace MailHub.Auth

open Relational Interleaving

open AuthProgram (query transact transactAs reject)

/-! ## Sessions -/

/-- Resolve a session token. -/
def verifySession (ctx : AuthContext) (token : String) : AuthProgram OwnerSession := do
  match ← query (readSessionByToken (ctx.hashToken token)) with
  | none => reject .unauthorized "Sign in to continue."
  | some row =>
      let now ← AuthProgram.now
      if row.isOpen = false ∨ row.expiresAt ≤ now then
        reject .unauthorized "Sign in to continue."
      let status ← controlStatus ctx
      match openGeneration status with
      | none =>
          reject .unauthorized ("This service is recovering from a restore. Sign in again after " ++
            "recovery completes.")
      | some (generation, kind) =>
          if row.recoveryGeneration ≠ generation then
            reject .unauthorized "This session belongs to an earlier recovery history."
          if kind = .inspection ∧ row.kind ≠ .inspection then
            reject .unauthorized ("This session predates the current recovery. Sign in again " ++
              "after recovery completes.")
          return row

/-- The owner of a session. -/
def requireOwnerId (sessionId : Uuid) : AuthProgram Uuid := do
  match ← query fun db => db.ownerSessions.find? sessionId with
  | none => reject .unauthorized "Sign in to continue."
  | some row => return row.ownerId

/-- Credential changes require a verification within the recent window. -/
def requireRecentVerification (ctx : AuthContext) (verifiedAt : Time) : AuthProgram Unit := do
  let now ← AuthProgram.now
  if now < verifiedAt ∨ ctx.config.recentVerificationMs < now - verifiedAt then
    reject .verificationRequired ("Verify with a passkey before changing passkeys. The " ++
      "verification is valid for five minutes.")

theorem closedSession_key (now : Time) (row : OwnerSession) :
    Keyed.key { row with revokedAt := some now } = Keyed.key row := rfl

/-- Revoke one session. -/
def closeSession (tokenHash : String) (now : Time) : AuthTx Unit := do
  let db ← get
  let isOpen := fun row : OwnerSession => row.tokenHash == tokenHash && row.isOpen
  set { db with
    ownerSessions := db.ownerSessions.update isOpen (fun row => { row with revokedAt := some now })
      (closedSession_key now) }
  if (db.ownerSessions.select isOpen) ≠ [] then
    AuthTx.recordAuthEvent "auth.logout"

/-- Log out. -/
def revokeSession (ctx : AuthContext) (token : String) : AuthProgram Unit := do
  let now ← AuthProgram.now
  transact (closeSession (ctx.hashToken token) now)

/-- List passkeys with labels and last-use times. -/
def listCredentials (ctx : AuthContext) (token : String) :
    AuthProgram (List CredentialSummary) := do
  let session ← verifySession ctx token
  let ownerId ← requireOwnerId session.id
  let active ← query (activeCredentials ownerId)
  return active.map (·.summary)

/-! ## What a ceremony commits -/

/-- Consume the challenge of a ceremony. -/
def requireChallenge (challengeId : Uuid) (now : Time) (message : String) : AuthTx Unit := do
  if !(← consumeChallenge challengeId now) then
    AuthTx.reject .challengeInvalid message

/-- The transaction of an enrollment. -/
def commitEnrollment (grantId challengeId : Uuid) (ownerId : Option Uuid) (newOwnerId : Uuid)
    (credential : Uuid → OwnerCredential) (session : Uuid → OwnerSession) (now : Time) :
    AuthTx OwnerSession := do
  if !(← consumeGrant grantId now) then
    AuthTx.reject .grantInvalid
      "This enrollment token was already used. Ask the operator for a new one."
  let currentOwnerId ← match ownerId with
    | some id => pure id
    | none =>
        AuthTx.insertOwner newOwnerId
        match readOwner (← get) with
        | some row => pure row.id
        | none => throw (.port "Cannot read properties of null (reading 'id')")
  AuthTx.registerCredential (credential currentOwnerId)
  requireChallenge challengeId now
    "This sign-in request was already used. Start the operation again."
  AuthTx.insertSession (session currentOwnerId)
  AuthTx.recordAuthEvent "auth.enrollment.completed"
  return session currentOwnerId

/-- The transaction of a login. -/
def commitLogin (challengeId credentialId : Uuid) (newCounter : ℕ) (session : OwnerSession)
    (now : Time) : AuthTx OwnerSession := do
  requireChallenge challengeId now "This sign-in request was already used. Start again."
  requireLiveCredential credentialId newCounter
  updateCredentialAfterUse credentialId newCounter now
  AuthTx.insertSession session
  AuthTx.recordAuthEvent "auth.login"
  return session

/-- Stamp the verification time of a session. -/
def stampVerification (sessionId : Uuid) (now : Time) : AuthTx OwnerSession := do
  let db ← get
  let ownerSessions := db.ownerSessions.update (·.id == sessionId)
    (fun row => { row with verifiedAt := now }) fun _ => rfl
  set { db with ownerSessions }
  match ownerSessions.find? sessionId with
  | some row => return row
  | none => throw (.port "Cannot read properties of undefined (reading 'id')")

/-- The transaction of a verification refresh. -/
def commitReverification (challengeId credentialId sessionId : Uuid) (newCounter : ℕ)
    (now : Time) : AuthTx OwnerSession := do
  requireChallenge challengeId now "This verification request was already used. Start again."
  requireLiveCredential credentialId newCounter
  updateCredentialAfterUse credentialId newCounter now
  let updated ← stampVerification sessionId now
  AuthTx.recordAuthEvent "auth.reverified"
  return updated

/-- The transaction that adds a passkey; it waits for the owner row lock. -/
def commitCredential (challengeId : Uuid) (row : OwnerCredential) (now : Time) :
    AuthTx OwnerCredential := do
  let _ ← lockOwner
  requireChallenge challengeId now "This request was already used. Start again."
  AuthTx.registerCredential row
  AuthTx.recordAuthEvent "auth.credential.added"
  unlockOwner
  return row

/-! ## Enrollment -/

/-- Begin first-passkey or recovery enrollment. -/
def startEnrollment (ctx : AuthContext) (grantToken : String) : AuthProgram String := do
  let now ← AuthProgram.now
  let grant ← requireLiveGrant ctx grantToken now
  let enrollment ← enrollmentContext ctx grant.purpose
  let existing ← match enrollment.ownerId with
    | none => pure []
    | some ownerId => query (activeCredentials ownerId)
  let challenge ← AuthProgram.ask (.generateRegistrationOptions (existing.map (·.credentialId)))
  issueChallenge ctx enrollment.purpose enrollment.ownerId challenge enrollment.generation now
  return challenge

/-- A verified registration. -/
def requireRegistration (ctx : AuthContext) (challenge : String)
    (response : RegistrationResponse) : AuthProgram RegistrationInfo := do
  let verified ← verifyWebauthn (AuthProgram.ask (.verifyRegistrationResponse
    ⟨challenge, ctx.config.origin, ctx.config.rpId⟩ response))
  match verified with
  | none => reject .webauthnInvalid "The passkey registration could not be verified."
  | some info => return info

/-- The row of a registered passkey. -/
def credentialRow (id ownerId : Uuid) (label : String) (info : RegistrationInfo) (now : Time) :
    OwnerCredential where
  id := id
  ownerId := ownerId
  credentialId := info.credentialId
  label := label
  publicKey := info.publicKey
  counter := info.counter
  transports := info.transports
  deviceType := info.deviceType
  backedUp := info.backedUp
  lastUsedAt := some now
  createdAt := now
  revokedAt := none

/-- The row of a new session. -/
def sessionRow (ctx : AuthContext) (id ownerId : Uuid) (token : String) (generation : Uuid)
    (kind : OwnerSessionKind) (now : Time) : OwnerSession where
  id := id
  ownerId := ownerId
  tokenHash := ctx.hashToken token
  recoveryGeneration := generation
  kind := kind
  verifiedAt := now
  expiresAt := now + ctx.config.sessionTtlMs
  revokedAt := none

/-- A response arrives; only the record of the run sees it. -/
def arrive (named : Option String) : AuthProgram Unit :=
  match named with
  | some challenge => transactAs (.arrive challenge) (pure ())
  | none => pure ()

/-- Complete enrollment. -/
def completeEnrollment (ctx : AuthContext) (grantToken label : String)
    (response : RegistrationResponse) : AuthProgram OpenedSession := do
  arrive response.challenge
  let label ← AuthProgram.lift (normalizeLabel label)
  let now ← AuthProgram.now
  let grant ← requireLiveGrant ctx grantToken now
  let enrollment ← enrollmentContext ctx grant.purpose
  let challenge ← challengeForResponse response.challenge enrollment.purpose now
  if challenge.recoveryGeneration ≠ enrollment.generation then
    reject .challengeInvalid
      "This sign-in request belongs to an earlier recovery history. Start again."
  if enrollment.ownerId ≠ none ∧ challenge.ownerId ≠ enrollment.ownerId then
    reject .challengeInvalid "This sign-in request belongs to another owner."
  let info ← requireRegistration ctx challenge.challenge response
  let newOwnerId ← AuthProgram.generateId
  let credentialId ← AuthProgram.generateId
  let sessionId ← AuthProgram.generateId
  let token ← AuthProgram.generateToken
  let session ← transactAs (.commit { challengeId := challenge.id, grantId := some grant.id })
    (commitEnrollment grant.id challenge.id enrollment.ownerId newOwnerId
      (fun ownerId => credentialRow credentialId ownerId label info now)
      (fun ownerId =>
        sessionRow ctx sessionId ownerId token enrollment.generation enrollment.kind now) now)
  return ⟨token, session.info⟩

/-! ## Assertions -/

/-- Begin an assertion ceremony. -/
def startAssertionCeremony (ctx : AuthContext) (purpose : ChallengePurpose) (ownerId : Uuid)
    (generation : Uuid) (now : Time) : AuthProgram String := do
  let existing ← query (activeCredentials ownerId)
  let challenge ← AuthProgram.ask (.generateAuthenticationOptions (existing.map (·.credentialId)))
  issueChallenge ctx purpose (some ownerId) challenge generation now
  return challenge

/-- A verified assertion: its challenge, its credential and its counter. -/
def verifyAssertion (ctx : AuthContext) (response : AuthenticationResponse)
    (purpose : ChallengePurpose) (ownerId : Uuid) (now : Time) :
    AuthProgram (WebauthnChallenge × OwnerCredential × ℕ) := do
  let challenge ← challengeForResponse response.challenge purpose now
  if challenge.ownerId ≠ some ownerId then
    reject .challengeInvalid "This request belongs to another owner."
  let found ← query fun db => db.ownerCredentials.rows.find? fun row =>
    row.credentialId == response.id && row.isActive
  match found.filter fun row => row.ownerId == ownerId with
  | none => reject .webauthnInvalid "This passkey is not registered."
  | some credential =>
      let newCounter ← verifyWebauthn (AuthProgram.ask (.verifyAuthenticationResponse
        ⟨challenge.challenge, ctx.config.origin, ctx.config.rpId⟩ response
        credential.credentialId credential.publicKey credential.counter))
      return (challenge, credential, newCounter)

/-- Begin a login ceremony. -/
def startLogin (ctx : AuthContext) : AuthProgram String := do
  let (ownerId, generation, _) ← loginContext ctx
  let existing ← query (activeCredentials ownerId)
  if existing = [] then
    reject .ownerMissing "No passkey is registered. Ask the operator to run 'auth recover'."
  let now ← AuthProgram.now
  startAssertionCeremony ctx .login ownerId generation now

/-- Complete login. -/
def completeLogin (ctx : AuthContext) (response : AuthenticationResponse) :
    AuthProgram OpenedSession := do
  arrive response.challenge
  let now ← AuthProgram.now
  let (ownerId, generation, kind) ← loginContext ctx
  let (challenge, credential, newCounter) ← verifyAssertion ctx response .login ownerId now
  if challenge.recoveryGeneration ≠ generation then
    reject .challengeInvalid "This sign-in request is no longer valid. Start again."
  let sessionId ← AuthProgram.generateId
  let token ← AuthProgram.generateToken
  let session ← transactAs
    (.commit { challengeId := challenge.id, credentialId := some credential.id })
    (commitLogin challenge.id credential.id newCounter
      (sessionRow ctx sessionId ownerId token generation kind now) now)
  return ⟨token, session.info⟩

/-- Begin a verification-refresh ceremony for an open session. -/
def startReverification (ctx : AuthContext) (token : String) : AuthProgram String := do
  let session ← verifySession ctx token
  let now ← AuthProgram.now
  let ownerId ← requireOwnerId session.id
  let generation ← controlGeneration ctx
  startAssertionCeremony ctx .reverify ownerId generation now

/-- Complete a verification refresh. -/
def completeReverification (ctx : AuthContext) (token : String)
    (response : AuthenticationResponse) : AuthProgram SessionInfo := do
  arrive response.challenge
  let session ← verifySession ctx token
  let now ← AuthProgram.now
  let ownerId ← requireOwnerId session.id
  let generation ← controlGeneration ctx
  let (challenge, credential, newCounter) ← verifyAssertion ctx response .reverify ownerId now
  if challenge.recoveryGeneration ≠ generation then
    reject .challengeInvalid "This verification request is no longer valid. Start again."
  let updated ← transactAs (.commit
      { challengeId := challenge.id, sessionId := some session.id
        credentialId := some credential.id })
    (commitReverification challenge.id credential.id session.id newCounter now)
  return updated.info

/-! ## Passkeys -/

/-- Begin adding a passkey. -/
def startCredentialEnrollment (ctx : AuthContext) (token : String) : AuthProgram String := do
  let session ← verifySession ctx token
  let ownerId ← requireOwnerId session.id
  requireRecentVerification ctx session.verifiedAt
  let existing ← query (activeCredentials ownerId)
  let challenge ← AuthProgram.ask (.generateRegistrationOptions (existing.map (·.credentialId)))
  let generation ← controlGeneration ctx
  let now ← AuthProgram.now
  issueChallenge ctx .addCredential (some ownerId) challenge generation now
  return challenge

/-- Complete adding a passkey. -/
def completeCredentialEnrollment (ctx : AuthContext) (token label : String)
    (response : RegistrationResponse) : AuthProgram CredentialSummary := do
  arrive response.challenge
  let session ← verifySession ctx token
  let normalized ← AuthProgram.lift (normalizeLabel label)
  let ownerId ← requireOwnerId session.id
  requireRecentVerification ctx session.verifiedAt
  let now ← AuthProgram.now
  let generation ← controlGeneration ctx
  let challenge ← challengeForResponse response.challenge .addCredential now
  if challenge.ownerId ≠ some ownerId then
    reject .challengeInvalid "This request belongs to another owner."
  if challenge.recoveryGeneration ≠ generation then
    reject .challengeInvalid "This request is no longer valid. Start again."
  let info ← requireRegistration ctx challenge.challenge response
  let credentialId ← AuthProgram.generateId
  let row ← transactAs
    (.commit { challengeId := challenge.id, sessionId := some session.id })
    (commitCredential challenge.id (credentialRow credentialId ownerId normalized info now) now)
  return row.summary

/-- The passkey of a removal, while its transaction is open. -/
def selectCredential (transaction credentialId ownerId : Uuid) :
    AuthTx (Option OwnerCredential) := do
  requireOpen transaction
  let db ← get
  return (db.ownerCredentials.find? credentialId).filter fun row =>
    row.ownerId == ownerId && row.isActive

/-- The active passkeys of the owner, while the transaction of a removal is open. -/
def selectRemaining (transaction ownerId : Uuid) : AuthTx (List OwnerCredential) := do
  requireOpen transaction
  return activeCredentials ownerId (← get)

theorem removedCredential_key (now : Time) (row : OwnerCredential) :
    Keyed.key { row with revokedAt := some now } = Keyed.key row := rfl

/-- Revoke a passkey and end the transaction of the removal. -/
def commitRemoval (transaction credentialId : Uuid) (now : Time) : AuthTx Unit := do
  requireOpen transaction
  modify fun db =>
    { db with
      ownerCredentials := db.ownerCredentials.update (·.id == credentialId)
        (fun row => { row with revokedAt := some now }) (removedCredential_key now) }
  AuthTx.recordAuthEvent "auth.credential.removed"
  unlockOwner

/-- Roll back a transaction that is still open. -/
def rollback (transaction : ℕ) : AuthTx Unit :=
  modify fun db => if db.ownerLock = some transaction then { db with ownerLock := none } else db

/-- The statements of a removal under the owner row lock. -/
def removeLocked (transaction credentialId ownerId : Uuid) : AuthProgram Unit := do
  match ← transact (selectCredential transaction credentialId ownerId) with
  | none => reject .invalidRequest "This passkey is not registered."
  | some credential =>
      let remaining ← transact (selectRemaining transaction ownerId)
      if remaining.length ≤ 1 then
        reject .lastCredential ("At least one active passkey must remain. Add another passkey " ++
          "before removing this one.")
      let now ← AuthProgram.now
      transact (commitRemoval transaction credential.id now)

/-- Remove a passkey; an identifier that is no UUID is `none`. -/
def removeCredential (ctx : AuthContext) (token : String) (credentialId : Option Uuid) :
    AuthProgram Unit := do
  let session ← verifySession ctx token
  let ownerId ← requireOwnerId session.id
  requireRecentVerification ctx session.verifiedAt
  match credentialId with
  | none => reject .invalidRequest "The passkey identifier is malformed."
  | some credentialId =>
      let transaction ← transact lockOwner
      (removeLocked transaction credentialId ownerId).cleanup (transact (rollback transaction))

end MailHub.Auth
