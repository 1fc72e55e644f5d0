import MailHub.Auth.Ceremonies

/-!
# Operator commands

`auth bootstrap` on a fresh installation, `auth recover` when all passkeys are lost, and the
recovery commands, which revoke the restored authentication state when a recovery starts.
-/

namespace MailHub.Auth

open Relational Interleaving

open AuthProgram (query transact transactAs reject)

/-! ## Recovery -/

/-- A database without account, mail and queued work. -/
def databaseIsEmpty (db : Database) : Bool :=
  db.accounts.rows.isEmpty && db.messages.rows.isEmpty && db.actions.rows.isEmpty &&
    db.outboundMessages.rows.isEmpty

inductive InitializeOutcome
  | initialized (generation : Uuid)
  | deploymentConfigMissing | alreadyInitialized | databaseNotEmpty
  deriving DecidableEq, Repr

/-- Write the control row. -/
def setServiceState (row : ServiceStateRow) : AuthTx Unit :=
  modify fun db => { db with mail := { db.mail with serviceState := some row } }

/-- The transaction that initializes control state on a fresh installation. -/
def commitInitialize (deployment : Uuid) : AuthTx InitializeOutcome := do
  let db ← get
  if databaseIsEmpty db.mail = false then
    return .databaseNotEmpty
  if db.mail.serviceState.isSome then
    return .alreadyInitialized
  setServiceState ⟨deployment, .ready⟩
  AuthTx.recordRecoveryEvent "recovery.init"
  return .initialized deployment

/-- Initialize control state on a fresh installation. -/
def initializeControls (ctx : AuthContext) : AuthProgram InitializeOutcome := do
  match ctx.generation with
  | none => return .deploymentConfigMissing
  | some deployment => transact (commitInitialize deployment)

inductive BeginOutcome
  | started (generation : Uuid)
  | resumed (generation : Uuid)
  | deploymentConfigMissing | alreadyReady
  deriving DecidableEq, Repr

/-- Revoke restored sessions, grants, challenges, and credentials. -/
def revokeRestoredAuth (now : Time) : AuthTx Unit := do
  revokeAllAuthState now
  AuthTx.recordAuthEvent "auth.revoked_on_recovery"

/-- The transaction that begins restore recovery. -/
def commitBeginRecovery (deployment : Uuid) (now : Time) : AuthTx BeginOutcome := do
  let db ← get
  match db.mail.serviceState with
  | none =>
      setServiceState ⟨deployment, .reconciling⟩
      revokeRestoredAuth now
      AuthTx.recordRecoveryEvent "recovery.begin"
      return .started deployment
  | some row =>
      if row.recoveryGeneration = deployment then
        if row.recoveryMode = .ready then
          return .alreadyReady
        -- Resume the active recovery without repeating revocation.
        AuthTx.recordRecoveryEvent "recovery.begin"
        return .resumed deployment
      setServiceState ⟨deployment, .reconciling⟩
      revokeRestoredAuth now
      AuthTx.recordRecoveryEvent "recovery.begin"
      return .started deployment

/-- Begin restore recovery. -/
def beginRecovery (ctx : AuthContext) : AuthProgram BeginOutcome := do
  match ctx.generation with
  | none => return .deploymentConfigMissing
  | some deployment =>
      let now ← AuthProgram.now
      transactAs .beginRecovery (commitBeginRecovery deployment now)

inductive CompleteOutcome
  | completed (generation : Uuid)
  | deploymentConfigMissing | noActiveRecovery | generationMismatch | ownerMissing
  | pendingOperations (actions outboundMessages : ℕ)
  deriving DecidableEq, Repr

/-- The restored actions that still hold a pending status. -/
def undispositionedActions (deployment : Uuid) (db : Database) : ℕ :=
  (db.actions.select fun a => a.recoveryGeneration != deployment &&
    (a.status == .queued || a.status == .executing)).length

/-- The restored sends that still hold a pending status, or a Sent copy that never concluded. -/
def undispositionedOutbound (deployment : Uuid) (db : Database) : ℕ :=
  (db.outboundMessages.select fun o => o.recoveryGeneration != deployment &&
    (o.status == .queued || o.status == .sending || (o.status == .sent &&
      (o.sentCopyStatus == .pending || o.sentCopyStatus == .appending)))).length

/-- The transaction that completes restore recovery. -/
def commitCompleteRecovery (deployment : Uuid) : AuthTx CompleteOutcome := do
  let db ← get
  match db.mail.serviceState with
  | none => return .noActiveRecovery
  | some row =>
      if row.recoveryMode ≠ .reconciling then
        return .noActiveRecovery
      if row.recoveryGeneration ≠ deployment then
        return .generationMismatch
      let actions := undispositionedActions deployment db.mail
      let outbound := undispositionedOutbound deployment db.mail
      if 0 < actions ∨ 0 < outbound then
        return .pendingOperations actions outbound
      if hasRegisteredOwner db = false then
        return .ownerMissing
      setServiceState ⟨deployment, .ready⟩
      AuthTx.recordRecoveryEvent "recovery.complete"
      return .completed deployment

/-- Complete restore recovery. -/
def completeRecovery (ctx : AuthContext) : AuthProgram CompleteOutcome := do
  match ctx.generation with
  | none => return .deploymentConfigMissing
  | some deployment => transact (commitCompleteRecovery deployment)

/-! ## Grants -/

/-- A grant with its printed token. -/
structure IssuedGrant where
  id : Uuid
  purpose : GrantPurpose
  token : String
  expiresAt : Time
  deriving DecidableEq, Repr

/-- The row of a new grant. -/
def grantRow (ctx : AuthContext) (id : Uuid) (purpose : GrantPurpose) (token : String)
    (generation : Uuid) (now : Time) : EnrollmentGrant where
  id := id
  purpose := purpose
  tokenHash := ctx.hashToken token
  recoveryGeneration := generation
  expiresAt := now + ctx.config.grantTtlMs
  consumedAt := none
  revokedAt := none

/-- The transaction that issues the first-passkey grant. -/
def commitBootstrapGrant (row : EnrollmentGrant) (now : Time) : AuthTx Unit := do
  if (readOwner (← get)).isSome then
    AuthTx.reject .ownerExists
      "An owner is already registered. Use 'auth recover' when all passkeys are lost."
  revokeGrantsForPurpose row.purpose now
  AuthTx.insertGrant row
  AuthTx.recordAuthEvent "auth.bootstrap_grant"

/-- The control state of a fresh installation is initialized first. -/
def initializedStatus (ctx : AuthContext) : AuthProgram ControlStatus := do
  match ← controlStatus ctx with
  | .uninitialized _ =>
      match ← initializeControls ctx with
      | .databaseNotEmpty =>
          reject .authUnavailable ("The database holds mail or queued work but lacks control " ++
            "state. Set a new RECOVERY_GENERATION and run 'recovery begin'.")
      | .initialized _ => controlStatus ctx
      | _ =>
          reject .authUnavailable
            "Control state could not be initialized. Check RECOVERY_GENERATION and retry."
  | status => return status

/-- Issue the first-passkey enrollment token. -/
def issueBootstrapGrant (ctx : AuthContext) : AuthProgram IssuedGrant := do
  if (← query readOwner).isSome then
    reject .ownerExists
      "An owner is already registered. Use 'auth recover' when all passkeys are lost."
  let status ← initializedStatus ctx
  match openGeneration status with
  | none =>
      reject .authUnavailable (s!"Enrollment is unavailable while the recovery state is " ++
        s!"{controlStateText status}. Run 'recovery begin' after a restore.")
  | some (generation, _) =>
      let id ← AuthProgram.generateId
      let token ← AuthProgram.generateToken
      let now ← AuthProgram.now
      let row := grantRow ctx id .bootstrap token generation now
      transactAs (.issueGrant id) (commitBootstrapGrant row now)
      return ⟨id, .bootstrap, token, row.expiresAt⟩

/-- The transaction that revokes everything and issues one replacement grant. -/
def commitRecoveryGrant (row : EnrollmentGrant) (now : Time) : AuthTx Unit := do
  revokeAllAuthState now
  AuthTx.insertGrant row
  AuthTx.recordAuthEvent "auth.recovery_grant"

/-- Revoke every credential, session, challenge, and grant, then issue one replacement enrollment
grant. -/
def issueRecoveryGrant (ctx : AuthContext) : AuthProgram IssuedGrant := do
  if (← query readOwner).isNone then
    reject .ownerMissing "No owner is registered. Use 'auth bootstrap' on a fresh installation."
  match ctx.generation with
  | none =>
      reject .authUnavailable
        "RECOVERY_GENERATION must be set to a UUID before issuing an enrollment token."
  | some deployment =>
      let id ← AuthProgram.generateId
      let token ← AuthProgram.generateToken
      let now ← AuthProgram.now
      let row := grantRow ctx id .recovery token deployment now
      transactAs (.issueRecoveryGrant id) (commitRecoveryGrant row now)
      return ⟨id, .recovery, token, row.expiresAt⟩

end MailHub.Auth
