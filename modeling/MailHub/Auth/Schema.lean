import MailHub.Recovery.Status

/-!
# Authentication state

The tables of the single owner: passkeys, sessions, challenges and enrollment grants, beside the
mail tables whose control row they share. A transaction runs at once, except that of a passkey
removal, whose statements other processes can come between; the lock of the owner row is part of
the store for its sake.
-/

namespace MailHub.Auth

open Relational

/-! ## Rows -/

/-- The single product owner. -/
structure Owner where
  singleton : Bool
  id : Uuid
  deriving DecidableEq, Repr

/-- A registered passkey; only the public key is stored. -/
structure OwnerCredential where
  id : Uuid
  ownerId : Uuid
  /-- WebAuthn credential identifier. -/
  credentialId : String
  label : String
  publicKey : String
  /-- Signature counter from the last verified assertion. -/
  counter : ℕ
  transports : Option (List String)
  deviceType : Option String
  backedUp : Bool
  lastUsedAt : Option Time
  createdAt : Time
  revokedAt : Option Time
  deriving DecidableEq, Repr

inductive OwnerSessionKind
  | standard | inspection
  deriving DecidableEq, Repr

/-- One owner session; the row stores the hash of its token. -/
structure OwnerSession where
  id : Uuid
  ownerId : Uuid
  tokenHash : String
  recoveryGeneration : Uuid
  kind : OwnerSessionKind
  /-- Time of the last successful passkey verification in this session. -/
  verifiedAt : Time
  expiresAt : Time
  revokedAt : Option Time
  deriving DecidableEq, Repr

inductive ChallengePurpose
  | firstEnrollment | recoveryEnrollment | addCredential | login | reverify
  deriving DecidableEq, Repr

/-- One WebAuthn challenge, bound to one purpose, one owner and one recovery generation. -/
structure WebauthnChallenge where
  id : Uuid
  purpose : ChallengePurpose
  /-- Null only for first enrollment: the owner row does not exist yet. -/
  ownerId : Option Uuid
  challenge : String
  recoveryGeneration : Uuid
  expiresAt : Time
  consumedAt : Option Time
  revokedAt : Option Time
  deriving DecidableEq, Repr

inductive GrantPurpose
  | bootstrap | recovery
  deriving DecidableEq, Repr

/-- One enrollment grant issued by an operator command. -/
structure EnrollmentGrant where
  id : Uuid
  purpose : GrantPurpose
  tokenHash : String
  recoveryGeneration : Uuid
  expiresAt : Time
  consumedAt : Option Time
  revokedAt : Option Time
  deriving DecidableEq, Repr

/-- One entry of the audit trail about authentication or recovery. -/
structure AuthEvent where
  type : String
  entityType : String
  deriving DecidableEq, Repr

instance : Keyed Owner Bool := ⟨Owner.singleton⟩
instance : Keyed OwnerCredential Uuid := ⟨OwnerCredential.id⟩
instance : Keyed OwnerSession Uuid := ⟨OwnerSession.id⟩
instance : Keyed WebauthnChallenge Uuid := ⟨WebauthnChallenge.id⟩
instance : Keyed EnrollmentGrant Uuid := ⟨EnrollmentGrant.id⟩

/-- A challenge or a grant that was neither consumed nor revoked. -/
def WebauthnChallenge.isLive (row : WebauthnChallenge) : Bool :=
  row.consumedAt.isNone && row.revokedAt.isNone

def EnrollmentGrant.isLive (row : EnrollmentGrant) : Bool :=
  row.consumedAt.isNone && row.revokedAt.isNone

def OwnerCredential.isActive (row : OwnerCredential) : Bool := row.revokedAt.isNone

def OwnerSession.isOpen (row : OwnerSession) : Bool := row.revokedAt.isNone

/-! ## The database -/

/-- The database with its authentication tables. -/
structure AuthDatabase where
  mail : Database
  owner : Table Owner
  ownerCredentials : Table OwnerCredential
  ownerSessions : Table OwnerSession
  webauthnChallenges : Table WebauthnChallenge
  enrollmentGrants : Table EnrollmentGrant
  trail : List AuthEvent
  /-- The open transaction that holds the lock of the owner row. -/
  ownerLock : Option ℕ
  /-- The number of the next transaction that takes the lock. -/
  nextTransaction : ℕ

/-- The statements of one transaction. -/
abbrev AuthTx := StateT AuthDatabase (Except Failure)

namespace AuthTx

/-- A rejection of the authentication service. -/
def reject {α : Type} (code : AuthErrorCode) (message : String) : AuthTx α :=
  throw (.auth code message)

/-- Record one authentication audit event. -/
def recordAuthEvent (type : String) : AuthTx Unit :=
  modify fun db => { db with trail := db.trail ++ [⟨type, "auth"⟩] }

/-- Record one recovery audit event. -/
def recordRecoveryEvent (type : String) : AuthTx Unit :=
  modify fun db => { db with trail := db.trail ++ [⟨type, "service_state"⟩] }

/-- An owner reference names the owner. -/
def requireOwnerReference (constraint : String) (ownerId : Uuid) : AuthTx Unit := do
  let db ← get
  if (db.owner.select fun o => o.id == ownerId) = [] then
    throw (.constraintViolation constraint)

/-- Insert the owner row, unless there is one. -/
def insertOwner (id : Uuid) : AuthTx Unit := do
  let db ← get
  match db.owner.insert? ⟨true, id⟩ with
  | some owner => set { db with owner }
  | none => return

/-- Insert one passkey. -/
def insertCredential (row : OwnerCredential) : AuthTx Unit := do
  let db ← get
  if (db.ownerCredentials.select fun r => r.credentialId == row.credentialId) ≠ [] then
    throw (.uniqueViolation "owner_credentials_credential_id_unique")
  requireOwnerReference "owner_credentials_owner_id_owner_id_fk" row.ownerId
  match db.ownerCredentials.insert? row with
  | some ownerCredentials => set { db with ownerCredentials }
  | none => throw (.uniqueViolation "owner_credentials_pkey")

/-- A passkey that is already there is a failed registration. -/
def registrationError : Failure → Failure
  | .uniqueViolation "owner_credentials_credential_id_unique" =>
      .auth .webauthnInvalid "This passkey is already registered."
  | e => e

/-- Insert the passkey of a registration ceremony. -/
def registerCredential (row : OwnerCredential) : AuthTx Unit := fun db =>
  ((insertCredential row).run db).mapError registrationError

/-- Insert one session. -/
def insertSession (row : OwnerSession) : AuthTx Unit := do
  let db ← get
  if (db.ownerSessions.select fun r => r.tokenHash == row.tokenHash) ≠ [] then
    throw (.uniqueViolation "owner_sessions_token_hash_unique")
  requireOwnerReference "owner_sessions_owner_id_owner_id_fk" row.ownerId
  match db.ownerSessions.insert? row with
  | some ownerSessions => set { db with ownerSessions }
  | none => throw (.uniqueViolation "owner_sessions_pkey")

/-- Insert one challenge. -/
def insertChallenge (row : WebauthnChallenge) : AuthTx Unit := do
  if row.ownerId = none ∧ row.purpose ≠ .firstEnrollment then
    throw (.constraintViolation "webauthn_challenges_owner_check")
  match row.ownerId with
  | some ownerId => requireOwnerReference "webauthn_challenges_owner_id_owner_id_fk" ownerId
  | none => pure ()
  let db ← get
  match db.webauthnChallenges.insert? row with
  | some webauthnChallenges => set { db with webauthnChallenges }
  | none => throw (.uniqueViolation "webauthn_challenges_pkey")

/-- Insert one grant; a purpose has one live grant. -/
def insertGrant (row : EnrollmentGrant) : AuthTx Unit := do
  let db ← get
  if (db.enrollmentGrants.select fun r => r.purpose == row.purpose && r.isLive) ≠ [] then
    throw (.uniqueViolation "enrollment_grants_live_purpose_uidx")
  if (db.enrollmentGrants.select fun r => r.tokenHash == row.tokenHash) ≠ [] then
    throw (.uniqueViolation "enrollment_grants_token_hash_unique")
  match db.enrollmentGrants.insert? row with
  | some enrollmentGrants => set { db with enrollmentGrants }
  | none => throw (.uniqueViolation "enrollment_grants_pkey")

end AuthTx

end MailHub.Auth
