import MailHub.Auth.State
import MailHub.Text

/-!
# Passkey authentication

Enrollment runs through operator-issued grants. Login, verification refresh, and credential
management run on WebAuthn ceremonies whose challenges are single-use and bound to one purpose,
owner, and recovery generation. Sessions are cookie tokens; only their hashes are stored.
-/

namespace MailHub.Auth

open Relational Interleaving

/-! ## Configuration and requests -/

/-- Passkey relying-party configuration. -/
structure AuthConfig where
  origin : String
  /-- The hostname of the origin. -/
  rpId : String
  sessionTtlMs : ℕ := 7 * 24 * 60 * 60 * 1000
  challengeTtlMs : ℕ := 5 * 60 * 1000
  grantTtlMs : ℕ := 10 * 60 * 1000
  recentVerificationMs : ℕ := 5 * 60 * 1000
  deriving DecidableEq, Repr

/-- What one process is configured with. -/
structure AuthContext where
  config : AuthConfig
  /-- The recovery generation of the deployment. -/
  generation : Option Uuid
  /-- The hash that stands for a token in the database. -/
  hashToken : String → String

/-- The response to a registration ceremony. -/
structure RegistrationResponse where
  /-- The challenge that the client data names, when it can be read. -/
  challenge : Option String
  attestation : String
  deriving DecidableEq, Repr

/-- The response to an assertion ceremony. -/
structure AuthenticationResponse where
  /-- The identifier of the credential that signed. -/
  id : String
  /-- The challenge that the client data names, when it can be read. -/
  challenge : Option String
  assertion : String
  deriving DecidableEq, Repr

/-- What a verified registration reports. -/
structure RegistrationInfo where
  credentialId : String
  publicKey : String
  counter : ℕ
  transports : Option (List String)
  deviceType : Option String
  backedUp : Bool
  deriving DecidableEq, Repr

/-- What both sides of a ceremony agree on. -/
structure Expected where
  challenge : String
  origin : String
  rpId : String
  deriving DecidableEq, Repr

/-- One request of the authentication service to the outside. -/
inductive AuthCall
  /-- The clock. -/
  | now
  /-- A random identifier. -/
  | generateId
  /-- A random token. -/
  | generateToken
  /-- Options for a new passkey; the answer is their challenge. -/
  | generateRegistrationOptions (exclude : List String)
  /-- Options for an assertion; the answer is their challenge. -/
  | generateAuthenticationOptions (allow : List String)
  | verifyRegistrationResponse (expected : Expected) (response : RegistrationResponse)
  /-- The answer is the counter of the assertion. -/
  | verifyAuthenticationResponse (expected : Expected) (response : AuthenticationResponse)
      (credentialId publicKey : String) (counter : ℕ)

/-- The type of the answer to each request. -/
def AuthCall.Answer : AuthCall → Type
  | now => Time
  | generateId => Uuid
  | generateToken => String
  | generateRegistrationOptions _ => String
  | generateAuthenticationOptions _ => String
  | verifyRegistrationResponse .. => Option RegistrationInfo
  | verifyAuthenticationResponse .. => ℕ

/-- What the commit of a ceremony uses. -/
structure Ceremony where
  challengeId : Uuid
  /-- The grant that an enrollment consumes. -/
  grantId : Option Uuid := none
  /-- The session that a credential is added or verified under. -/
  sessionId : Option Uuid := none
  /-- The credential that signed an assertion. -/
  credentialId : Option Uuid := none
  deriving DecidableEq, Repr

/-- The transactions that a specification names. -/
inductive AuthTag
  /-- A response that names a challenge arrives. -/
  | arrive (challenge : String)
  | issueChallenge (challengeId : Uuid) (challenge : String)
  | issueGrant (grantId : Uuid)
  /-- The operator revokes everything and issues a grant. -/
  | issueRecoveryGrant (grantId : Uuid)
  | beginRecovery
  | commit (ceremony : Ceremony)
  deriving DecidableEq, Repr

/-- The authentication service, as programs on its database. -/
abbrev authSignature : Signature where
  Store := AuthDatabase
  Failure := Failure
  Tag := AuthTag
  Call := AuthCall
  Answer := AuthCall.Answer

/-- An operation of the authentication service. -/
abbrev AuthProgram := Program authSignature

namespace AuthProgram

variable {α : Type}

/-- A computation that may fail. -/
def lift (r : Except Failure α) : AuthProgram α := Program.ofExcept r

/-- Run one transaction without a name. -/
def transact (t : AuthTx α) : AuthProgram α := Program.transaction none t

/-- Run one transaction that a specification names. -/
def transactAs (tag : AuthTag) (t : AuthTx α) : AuthProgram α := Program.transaction (some tag) t

/-- Read the database outside any transaction. -/
def query (f : AuthDatabase → α) : AuthProgram α := Program.read f

/-- Send one request and wait for its answer. -/
def ask (c : AuthCall) : AuthProgram c.Answer := Program.request (S := authSignature) c

def now : AuthProgram Time := ask .now

def generateId : AuthProgram Uuid := ask .generateId

def generateToken : AuthProgram String := ask .generateToken

/-- Reject a request. -/
def reject (code : AuthErrorCode) (message : String) : AuthProgram α :=
  throw (Failure.auth code message)

end AuthProgram

open AuthProgram (query transact transactAs reject)

/-! ## Checks -/

/-- What the client reads of an open session. -/
structure SessionInfo where
  id : Uuid
  kind : OwnerSessionKind
  verifiedAt : Time
  expiresAt : Time
  deriving DecidableEq, Repr

def OwnerSession.info (row : OwnerSession) : SessionInfo :=
  ⟨row.id, row.kind, row.verifiedAt, row.expiresAt⟩

/-- A new session with its token. -/
structure OpenedSession where
  token : String
  session : SessionInfo
  deriving DecidableEq, Repr

structure CredentialSummary where
  id : Uuid
  label : String
  createdAt : Time
  lastUsedAt : Option Time
  deriving DecidableEq, Repr

def OwnerCredential.summary (row : OwnerCredential) : CredentialSummary :=
  ⟨row.id, row.label, row.createdAt, row.lastUsedAt⟩

/-- The recovery control state as a process sees it. -/
def controlStatus (ctx : AuthContext) : AuthProgram ControlStatus :=
  query fun db => readStatus ctx.generation db.mail

/-- The name of a control state in a message. -/
def controlStateText : ControlStatus → String
  | .configMissing => "config_missing"
  | .uninitialized _ => "uninitialized"
  | .generationMismatch .. => "generation_mismatch"
  | .reconciling _ => "reconciling"
  | .ready _ => "ready"

/-- The generation of a service that is ready or reconciling, with the kind of its sessions. -/
def openGeneration : ControlStatus → Option (Uuid × OwnerSessionKind)
  | .ready generation => some (generation, .standard)
  | .reconciling generation => some (generation, .inspection)
  | _ => none

/-- The challenge that a response names. -/
def parseClientData (challenge : Option String) : Except Failure String :=
  match challenge with
  | some challenge =>
      if challenge = "" then
        .error (.auth .challengeInvalid
          "The passkey response is unreadable. Start the operation again.")
      else .ok challenge
  | none => .error (.auth .challengeInvalid
      "The passkey response is unreadable. Start the operation again.")

/-- A label without white space at both ends. -/
@[irreducible] def normalizeLabel (label : String) : Except Failure String :=
  let trimmed := trim label
  if textLength trimmed = 0 ∨ 64 < textLength trimmed then
    .error (.auth .invalidRequest "Give the passkey a label of up to 64 characters.")
  else .ok trimmed

/-- A failure of the WebAuthn library is a failed verification. -/
def verifyWebauthn {α : Type} (operation : AuthProgram α) : AuthProgram α := do
  match ← operation.attempt with
  | .ok value => return value
  | .error (.auth code message) =>
      reject code message
  | .error _ =>
      reject .webauthnInvalid
        "The passkey response failed verification. Check the origin and try again."

/-- The live grant of a token. -/
def requireLiveGrant (ctx : AuthContext) (grantToken : String) (now : Time) :
    AuthProgram EnrollmentGrant := do
  match ← query (findLiveGrant (ctx.hashToken grantToken)) with
  | none =>
      reject .grantInvalid
        "This enrollment token is not valid. Ask the operator for a new one."
  | some row =>
      if row.expiresAt ≤ now then
        reject .grantInvalid "This enrollment token expired. Ask the operator for a new one."
      return row

/-- Locate the live challenge a ceremony response answers. -/
def challengeForResponse (named : Option String) (purpose : ChallengePurpose) (now : Time) :
    AuthProgram WebauthnChallenge := do
  let challenge ← AuthProgram.lift (parseClientData named)
  match ← query (findLiveChallenge challenge purpose) with
  | none =>
      reject .challengeInvalid
        "This sign-in request is no longer valid. Start the operation again."
  | some row =>
      if row.expiresAt ≤ now then
        reject .challengeInvalid
          "This sign-in request expired. Challenges are valid for five minutes."
      return row

/-- Issue one WebAuthn challenge bound to its purpose, owner, and generation. -/
def issueChallenge (ctx : AuthContext) (purpose : ChallengePurpose) (ownerId : Option Uuid)
    (challenge : String) (generation : Uuid) (now : Time) : AuthProgram Unit := do
  transact (deleteExpiredChallenges now)
  let live ← query (liveChallenges purpose ownerId now)
  if challengeLiveCap ≤ live.length then
    reject .challengeRateLimited
      "Too many sign-in requests are waiting. Wait a moment, then start again."
  let id ← AuthProgram.generateId
  transactAs (.issueChallenge id challenge) (AuthTx.insertChallenge
    ⟨id, purpose, ownerId, challenge, generation, now + ctx.config.challengeTtlMs, none, none⟩)

/-- What an enrollment runs under. -/
structure EnrollmentContext where
  purpose : ChallengePurpose
  /-- `none` before the first passkey exists. -/
  ownerId : Option Uuid
  generation : Uuid
  kind : OwnerSessionKind

/-- Enrollment context for one grant purpose. -/
def enrollmentContext (ctx : AuthContext) (grantPurpose : GrantPurpose) :
    AuthProgram EnrollmentContext := do
  let status ← controlStatus ctx
  match openGeneration status with
  | none =>
      reject .authUnavailable (s!"Enrollment is unavailable while the recovery state is " ++
        s!"{controlStateText status}. Run 'recovery begin' after a restore.")
  | some (generation, kind) =>
      let ownerRow ← query readOwner
      match grantPurpose, ownerRow with
      | .bootstrap, some _ =>
          reject .grantInvalid ("This token only authorizes first-passkey " ++
            "registration, and an owner already exists.")
      | .bootstrap, none => return ⟨.firstEnrollment, none, generation, kind⟩
      | .recovery, none =>
          reject .grantInvalid ("This recovery token requires an existing " ++
            "owner. Use a bootstrap token on a fresh installation.")
      | .recovery, some ownerRow => return ⟨.recoveryEnrollment, some ownerRow.id, generation, kind⟩

/-- Login context: login is blocked unless deployment and database agree. -/
def loginContext (ctx : AuthContext) : AuthProgram (Uuid × Uuid × OwnerSessionKind) := do
  match openGeneration (← controlStatus ctx) with
  | none =>
      reject .loginBlocked ("Sign-in is blocked while the recovery state is being " ++
        "repaired. Enrollment stays available.")
  | some (generation, kind) =>
      match ← query readOwner with
      | none =>
          reject .ownerMissing "No owner is registered. Complete setup first."
      | some ownerRow => return (ownerRow.id, generation, kind)

/-- The generation ceremonies bind their challenges to. -/
def controlGeneration (ctx : AuthContext) : AuthProgram Uuid := do
  let status ← controlStatus ctx
  match openGeneration status with
  | none =>
      reject .authUnavailable (s!"This operation is unavailable while the recovery state " ++
        s!"is {controlStateText status}. Run 'recovery begin' after a restore.")
  | some (generation, _) => return generation

end MailHub.Auth
