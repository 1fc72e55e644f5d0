import MailHub.Auth.Console
import MailHub.Interleaving.Safety
import Mathlib.Logic.Function.Basic

/-!
# Authentication as a system

The API and the operator's console run on one database. The log counts the revocations and records
in which epoch between them each challenge, grant, session and passkey came to be, which challenges
the responses that arrived so far name, and what the committed ceremonies consumed.
-/

namespace MailHub.Auth

open Relational Interleaving

/-! ## Operations -/

/-- One request of a client or one command of the operator. -/
inductive AuthOp
  | startEnrollment (ctx : AuthContext) (grantToken : String)
  | completeEnrollment (ctx : AuthContext) (grantToken label : String)
      (response : RegistrationResponse)
  | startLogin (ctx : AuthContext)
  | completeLogin (ctx : AuthContext) (response : AuthenticationResponse)
  | revokeSession (ctx : AuthContext) (token : String)
  | listCredentials (ctx : AuthContext) (token : String)
  | startReverification (ctx : AuthContext) (token : String)
  | completeReverification (ctx : AuthContext) (token : String)
      (response : AuthenticationResponse)
  | startCredentialEnrollment (ctx : AuthContext) (token : String)
  | completeCredentialEnrollment (ctx : AuthContext) (token label : String)
      (response : RegistrationResponse)
  | removeCredential (ctx : AuthContext) (token : String) (credentialId : Option Uuid)
  | issueBootstrapGrant (ctx : AuthContext)
  | issueRecoveryGrant (ctx : AuthContext)
  | initializeControls (ctx : AuthContext)
  | beginRecovery (ctx : AuthContext)
  | completeRecovery (ctx : AuthContext)
  /-- The server ends the transaction that holds the owner lock: its process is gone. -/
  | dropConnection
  /-- A transaction of a service that leaves the authentication tables alone. -/
  | elsewhere (f : Database → Database)

/-- The program of one call; its result goes back to the caller. -/
def AuthOp.run : AuthOp → AuthProgram Unit
  | startEnrollment ctx grantToken => do let _ ← Auth.startEnrollment ctx grantToken
  | completeEnrollment ctx grantToken label response => do
      let _ ← Auth.completeEnrollment ctx grantToken label response
  | startLogin ctx => do let _ ← Auth.startLogin ctx
  | completeLogin ctx response => do let _ ← Auth.completeLogin ctx response
  | revokeSession ctx token => Auth.revokeSession ctx token
  | listCredentials ctx token => do let _ ← Auth.listCredentials ctx token
  | startReverification ctx token => do let _ ← Auth.startReverification ctx token
  | completeReverification ctx token response => do
      let _ ← Auth.completeReverification ctx token response
  | startCredentialEnrollment ctx token => do let _ ← Auth.startCredentialEnrollment ctx token
  | completeCredentialEnrollment ctx token label response => do
      let _ ← Auth.completeCredentialEnrollment ctx token label response
  | removeCredential ctx token credentialId => Auth.removeCredential ctx token credentialId
  | issueBootstrapGrant ctx => do let _ ← Auth.issueBootstrapGrant ctx
  | issueRecoveryGrant ctx => do let _ ← Auth.issueRecoveryGrant ctx
  | initializeControls ctx => do let _ ← Auth.initializeControls ctx
  | beginRecovery ctx => do let _ ← Auth.beginRecovery ctx
  | completeRecovery ctx => do let _ ← Auth.completeRecovery ctx
  | dropConnection => AuthProgram.transact unlockOwner
  | elsewhere f => AuthProgram.transact (modify fun db => { db with mail := f db.mail })

/-! ## Log -/

/-- The issue of one challenge. -/
structure Issued where
  /-- The number of challenges issued before. -/
  serial : ℕ
  /-- The number of revocations before. -/
  epoch : ℕ
  challenge : String
  deriving DecidableEq, Repr

/-- What happened so far. -/
structure AuthLog where
  /-- The number of revocations. -/
  epoch : ℕ
  /-- The challenges that the responses named, each with the epoch in which it arrived. -/
  named : List (String × ℕ)
  /-- The number of challenges issued. -/
  issuances : ℕ
  /-- The last issue under each identifier. -/
  issued : Uuid → Option Issued
  /-- The epoch in which a grant was issued. -/
  granted : Uuid → ℕ
  /-- The epoch in which a session was opened. -/
  opened : Uuid → ℕ
  /-- The epoch in which a passkey was registered. -/
  registered : Uuid → ℕ
  /-- The serials of the challenges that committed ceremonies consumed. -/
  consumed : List ℕ
  /-- The grants that committed enrollments consumed. -/
  redeemed : List Uuid
  /-- Whether an enrollment committed in this epoch. -/
  enrolled : Bool

/-- The log at the start. -/
def AuthLog.empty : AuthLog where
  epoch := 0
  named := []
  issuances := 0
  issued := fun _ => none
  granted := fun _ => 0
  opened := fun _ => 0
  registered := fun _ => 0
  consumed := []
  redeemed := []
  enrolled := false

/-- The log after a revocation. -/
def AuthLog.revoked (log : AuthLog) : AuthLog :=
  { log with epoch := log.epoch + 1, enrolled := false }

/-- The log after a ceremony. -/
def AuthLog.performed (db db' : AuthDatabase) (log : AuthLog) (c : Ceremony) : AuthLog :=
  { log with
    opened := fun id =>
      if (db.ownerSessions.find? id).isNone && (db'.ownerSessions.find? id).isSome then log.epoch
      else log.opened id
    registered := fun id =>
      if (db.ownerCredentials.find? id).isNone && (db'.ownerCredentials.find? id).isSome then
        log.epoch
      else log.registered id
    consumed := log.consumed ++ ((log.issued c.challengeId).map (·.serial)).toList
    redeemed := log.redeemed ++ c.grantId.toList
    enrolled := log.enrolled || c.grantId.isSome }

/-- The log after a commit. -/
def AuthLog.afterCommit (db db' : AuthDatabase) (log : AuthLog) : Option AuthTag → AuthLog
  | some (.arrive challenge) => { log with named := log.named ++ [(challenge, log.epoch)] }
  | some (.issueChallenge id challenge) =>
      { log with
        issuances := log.issuances + 1
        issued := Function.update log.issued id (some ⟨log.issuances, log.epoch, challenge⟩) }
  | some (.issueGrant id) => { log with granted := Function.update log.granted id log.epoch }
  | some (.issueRecoveryGrant id) =>
      { log.revoked with granted := Function.update log.granted id (log.epoch + 1) }
  -- a recovery that is resumed or refused revokes nothing and leaves the control row alone
  | some .beginRecovery =>
      if db.mail.serviceState = db'.mail.serviceState then log else log.revoked
  | some (.commit c) => log.performed db db' c
  | none => log

/-- The authentication service: clients and libraries may answer anything, and every transaction
may meet a database fault. -/
def authSystem : System authSignature AuthLog where
  Op := AuthOp
  program := AuthOp.run
  Tick := Empty
  advance := fun t => nomatch t
  respond := fun _ _ _ log => some log
  fault := Failure.isDatabaseFault
  observe := fun _ tag db db' log => log.afterCommit db db' tag
  observe_read := fun _ _ _ => rfl
  retire := fun _ log => log

/-- The start of a run: no authentication state, and whatever else the database holds. -/
structure AuthStart (c : Config authSignature AuthLog) : Prop where
  owner : c.world.store.owner = .empty
  credentials : c.world.store.ownerCredentials = .empty
  sessions : c.world.store.ownerSessions = .empty
  challenges : c.world.store.webauthnChallenges = .empty
  grants : c.world.store.enrollmentGrants = .empty
  lock : c.world.store.ownerLock = none
  log : c.world.outside = .empty
  workers : c.workers = []

end MailHub.Auth
