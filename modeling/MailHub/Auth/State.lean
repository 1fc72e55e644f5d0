import Mathlib.Data.List.Sort
import MailHub.Auth.Schema

/-!
# Authentication state operations

The reads and the guarded updates that the console commands and the passkey service share.
-/

namespace MailHub.Auth

open Relational

/-! ## Reading -/

/-- Read the single owner row, if one exists. -/
def readOwner (db : AuthDatabase) : Option Owner := db.owner.rows.head?

/-- Active credentials of the owner, by age. -/
def activeCredentials (ownerId : Uuid) (db : AuthDatabase) : List OwnerCredential :=
  (db.ownerCredentials.select fun row => row.ownerId == ownerId && row.isActive).insertionSort
    fun a b => a.createdAt ≤ b.createdAt

/-- The session of a token hash, without validity checks. -/
def readSessionByToken (tokenHash : String) (db : AuthDatabase) : Option OwnerSession :=
  db.ownerSessions.rows.find? fun row => row.tokenHash == tokenHash

/-- Whether the owner exists and holds at least one active credential. -/
def hasRegisteredOwner (db : AuthDatabase) : Bool :=
  (readOwner db).any fun owner =>
    db.ownerCredentials.rows.any fun row => row.ownerId == owner.id && row.isActive

/-- Lock the owner row; the number of the transaction that holds the lock. A held lock ends the
wait of this one. -/
def lockOwner : AuthTx ℕ := do
  let db ← get
  if db.ownerLock.isSome then
    throw (.database "canceling statement due to lock timeout")
  if (readOwner db).isNone then
    AuthTx.reject .ownerMissing "No owner is registered."
  set { db with ownerLock := some db.nextTransaction, nextTransaction := db.nextTransaction + 1 }
  return db.nextTransaction

/-- Whether a transaction is still open. -/
def requireOpen (transaction : ℕ) : AuthTx Unit := do
  let db ← get
  if db.ownerLock ≠ some transaction then
    throw (.database "the connection was closed")

/-- End a transaction that holds the lock. -/
def unlockOwner : AuthTx Unit := modify fun db => { db with ownerLock := none }

/-! ## Challenges -/

/-- Live challenges one purpose and owner may hold at once. -/
def challengeLiveCap : ℕ := 32

/-- The live challenges of one purpose and owner. -/
def liveChallenges (purpose : ChallengePurpose) (ownerId : Option Uuid) (now : Time)
    (db : AuthDatabase) : List WebauthnChallenge :=
  db.webauthnChallenges.select fun row =>
    row.purpose == purpose && row.ownerId == ownerId && row.isLive && now < row.expiresAt

/-- Delete the expired challenges. -/
def deleteExpiredChallenges (now : Time) : AuthTx Unit :=
  modify fun db =>
    { db with webauthnChallenges := db.webauthnChallenges.delete fun row => row.expiresAt < now }

/-- The live challenge that a ceremony response answers. -/
def findLiveChallenge (challenge : String) (purpose : ChallengePurpose) (db : AuthDatabase) :
    Option WebauthnChallenge :=
  db.webauthnChallenges.rows.find? fun row =>
    row.challenge == challenge && row.purpose == purpose && row.isLive

/-- Consume a challenge exactly once, and only while it is still live. -/
def consumeChallenge (challengeId : Uuid) (now : Time) : AuthTx Bool := do
  let db ← get
  let isLive := fun row : WebauthnChallenge => row.id == challengeId && row.isLive
  set { db with
    webauthnChallenges := db.webauthnChallenges.update isLive
      (fun row => { row with consumedAt := some now }) fun _ => rfl }
  return (db.webauthnChallenges.select isLive) ≠ []

/-! ## Grants -/

/-- The live grant of a token hash, if one exists. -/
def findLiveGrant (tokenHash : String) (db : AuthDatabase) : Option EnrollmentGrant :=
  db.enrollmentGrants.rows.find? fun row => row.tokenHash == tokenHash && row.isLive

/-- Consume a grant exactly once, and only while it is still live. -/
def consumeGrant (grantId : Uuid) (now : Time) : AuthTx Bool := do
  let db ← get
  let isLive := fun row : EnrollmentGrant => row.id == grantId && row.isLive
  set { db with
    enrollmentGrants := db.enrollmentGrants.update isLive
      (fun row => { row with consumedAt := some now }) fun _ => rfl }
  return (db.enrollmentGrants.select isLive) ≠ []

/-- Revoke every live grant for one purpose. -/
def revokeGrantsForPurpose (purpose : GrantPurpose) (now : Time) : AuthTx Unit :=
  modify fun db =>
    { db with
      enrollmentGrants := db.enrollmentGrants.update
        (fun row => row.purpose == purpose && row.isLive)
        (fun row => { row with revokedAt := some now }) fun _ => rfl }

/-! ## Revocation -/

/-- Revoke all authentication state: credentials, sessions, challenges, and grants. -/
def revokeAllAuthState (now : Time) : AuthTx Unit :=
  modify fun db =>
    { db with
      ownerCredentials := db.ownerCredentials.update (·.isActive)
        (fun row => { row with revokedAt := some now }) fun _ => rfl
      ownerSessions := db.ownerSessions.update (·.isOpen)
        (fun row => { row with revokedAt := some now }) fun _ => rfl
      webauthnChallenges := db.webauthnChallenges.update (·.isLive)
        (fun row => { row with revokedAt := some now }) fun _ => rfl
      enrollmentGrants := db.enrollmentGrants.update (·.isLive)
        (fun row => { row with revokedAt := some now }) fun _ => rfl }

/-! ## Credentials -/

/-- Check the credential of an assertion again before the ceremony commits: it is active, and the
counter of the assertion advances past the stored one. -/
def requireLiveCredential (credentialId : Uuid) (newCounter : ℕ) : AuthTx Unit := do
  let db ← get
  match db.ownerCredentials.find? credentialId with
  | none =>
      AuthTx.reject .webauthnInvalid "This passkey is no longer registered. Start again."
  | some row =>
      if row.isActive = false then
        AuthTx.reject .webauthnInvalid "This passkey is no longer registered. Start again."
      if (0 < newCounter ∨ 0 < row.counter) ∧ newCounter ≤ row.counter then
        AuthTx.reject .webauthnInvalid ("This passkey did not advance its counter and may be " ++
          "cloned. Start again with the original device.")

/-- Record the use of a credential. -/
def updateCredentialAfterUse (credentialId : Uuid) (counter : ℕ) (now : Time) : AuthTx Unit :=
  modify fun db =>
    { db with
      ownerCredentials := db.ownerCredentials.update (·.id == credentialId)
        (fun row => { row with counter, lastUsedAt := some now }) fun _ => rfl }

end MailHub.Auth
