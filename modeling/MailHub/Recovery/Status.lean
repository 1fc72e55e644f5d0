import MailHub.Errors

/-!
# Recovery control state

Deployment configuration carries one recovery generation and the database another. Workers and
mail mutations run only when both agree and the mode is `ready`.
-/

namespace MailHub

/-- How deployment and database recovery state relate right now. -/
inductive ControlStatus
  | configMissing
  | uninitialized (deploymentGeneration : Uuid)
  | generationMismatch (deploymentGeneration databaseGeneration : Uuid) (mode : RecoveryMode)
  | reconciling (generation : Uuid)
  | ready (generation : Uuid)
  deriving DecidableEq, Repr

/-- Compare the database row with deployment configuration. -/
def classifyControlState (row : Option ServiceStateRow) (deploymentGeneration : Option Uuid) :
    ControlStatus :=
  match deploymentGeneration, row with
  | none, _ => .configMissing
  | some deployment, none => .uninitialized deployment
  | some deployment, some row =>
      if row.recoveryGeneration ≠ deployment then
        .generationMismatch deployment row.recoveryGeneration row.recoveryMode
      else match row.recoveryMode with
        | .ready => .ready deployment
        | .reconciling => .reconciling deployment

inductive MutationGateDecision
  | allow (generation : Uuid)
  | recoveryRequired (currentGeneration : Uuid)
  | recoveryInProgress
  | invalidGeneration
  deriving DecidableEq, Repr

/-- Apply the recovery gate to one durable client mutation; a missing or malformed request
generation is `none`. -/
def decideMutationGate (status : ControlStatus) (requestGeneration : Option Uuid) :
    MutationGateDecision :=
  match requestGeneration, status with
  | none, _ => .invalidGeneration
  -- Without deployment configuration no generation can be trusted.
  | some _, .configMissing => .recoveryInProgress
  | some request, .uninitialized deployment
  | some request, .generationMismatch deployment _ _
  | some request, .reconciling deployment =>
      if request ≠ deployment then .recoveryRequired deployment else .recoveryInProgress
  | some request, .ready generation =>
      if request ≠ generation then .recoveryRequired generation else .allow generation

inductive JobAssessment
  | execute | stale | blocked
  deriving DecidableEq, Repr

/-- Assess one queued job against the control state; a job keeps the generation it was created
with. -/
def assessJob (status : ControlStatus) (jobGeneration : Uuid) : JobAssessment :=
  match status with
  | .ready generation => if generation = jobGeneration then .execute else .stale
  | _ => .blocked

/-- Turn a blocking gate decision into its error. -/
def mutationGateError : MutationGateDecision → Failure
  | .recoveryRequired currentGeneration => .recovery .recoveryRequired (some currentGeneration)
  | .recoveryInProgress => .recovery .recoveryInProgress none
  | _ => .recovery .invalidRecoveryGeneration none

/-- Read and classify the current control state. -/
def readStatus (deployment : Option Uuid) (db : Database) : ControlStatus :=
  classifyControlState db.serviceState deployment

/-- The recovery gate on one database: the generation to work under, or the rejection. -/
def gateMutation (deployment requestGeneration : Option Uuid) (db : Database) :
    Except Failure Uuid :=
  match decideMutationGate (readStatus deployment db) requestGeneration with
  | .allow generation => .ok generation
  | decision => .error (mutationGateError decision)

/-- The gate lets a request pass only in a ready database of the request's own generation. -/
theorem gateMutation_eq_ok_iff {deployment requestGeneration : Option Uuid} {db : Database}
    {generation : Uuid} :
    gateMutation deployment requestGeneration db = .ok generation ↔
      requestGeneration = some generation ∧ deployment = some generation ∧
        db.serviceState = some ⟨generation, .ready⟩ := by
  unfold gateMutation readStatus
  rcases requestGeneration with _ | request
  · simp [decideMutationGate]
  rcases deployment with _ | deployment
  · simp [classifyControlState, decideMutationGate]
  rcases db.serviceState with _ | ⟨stored, mode⟩
  · by_cases hr : request = deployment <;> simp [classifyControlState, decideMutationGate, hr]
  · by_cases hs : stored = deployment <;> by_cases hr : request = deployment <;> cases mode <;>
      simp [classifyControlState, decideMutationGate, hs, hr] <;> grind

end MailHub
