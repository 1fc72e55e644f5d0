import MailHub.Send.Audit
import MailHub.Interleaving.Safety
import Mathlib.Logic.Function.Basic

/-!
# The mail services as one system

Drafting and sending run in many processes on one database. An operation is any call of any
process; the log records what the specification talks about and the database does not hold: every
submission with the worker that made it, and the workers that took the claims.
-/

namespace MailHub

open Relational Interleaving

/-! ## Operations -/

/-- The configuration of one process. -/
structure Process where
  /-- The configured recovery generation. -/
  generation : Option Uuid
  canSubmit : Bool
  canStoreSentCopy : Bool

/-- The services of one process. -/
def Process.service (p : Process) (libs : Libraries) : OutboundService :=
  ⟨⟨p.generation, libs⟩, p.canSubmit, p.canStoreSentCopy⟩

/-- One call of a service in some process. -/
inductive MailOp
  | createDraft (p : Process) (requestGeneration : Option Uuid) (input : CreateDraftInput)
  | createReplyDraft (p : Process) (requestGeneration : Option Uuid)
      (input : CreateReplyDraftInput)
  | updateDraft (p : Process) (requestGeneration : Option Uuid) (draftId : Uuid)
      (input : UpdateDraftInput)
  | deleteDraft (p : Process) (requestGeneration : Option Uuid) (draftId : Uuid)
  | createUpload (p : Process) (requestGeneration : Option Uuid) (input : CreateUploadInput)
  | attachUpload (p : Process) (requestGeneration : Option Uuid) (draftId uploadId : Uuid)
  | detachUpload (p : Process) (requestGeneration : Option Uuid) (draftId uploadId : Uuid)
  | createResendDraft (p : Process) (requestGeneration : Option Uuid) (outboundId : Uuid)
  | queueSend (p : Process) (requestGeneration : Option Uuid) (input : QueueSendInput)
  | executeOutbound (p : Process) (outboundId : Uuid)
  | executeQueued (p : Process) (limit : ℕ)
  | executeSentCopyAppend (p : Process) (outboundId : Uuid)
  | appendDueSentCopies (p : Process) (limit : ℕ)
  | reconcileUnknownOutcome (p : Process) (outboundId : Uuid)
  | reconcileUnknownOutcomes (p : Process) (limit : ℕ)
  | recoverAbandonedAttempts (p : Process)
  /-- A transaction of a service that leaves drafts and sends alone, in the audit trail too. -/
  | elsewhere (f : Database → Database) (hf : ∀ db, SameMail db (f db))
      (he : ∀ db, SameSends db (f db))

/-- The program of one call; its result goes back to the caller. -/
def MailOp.run (libs : Libraries) : MailOp → MailProgram Unit
  | createDraft p g input => do let _ ← MailHub.createDraft (p.service libs).toDeployment g input
  | createReplyDraft p g input => do
      let _ ← MailHub.createReplyDraft (p.service libs).toDeployment g input
  | updateDraft p g draftId input => do
      let _ ← MailHub.updateDraft (p.service libs).toDeployment g draftId input
  | deleteDraft p g draftId => MailHub.deleteDraft (p.service libs).toDeployment g draftId
  | createUpload p g input => do
      let _ ← MailHub.createUpload (p.service libs).toDeployment g input
  | attachUpload p g draftId uploadId => do
      let _ ← MailHub.attachUpload (p.service libs).toDeployment g draftId uploadId
  | detachUpload p g draftId uploadId =>
      MailHub.detachUpload (p.service libs).toDeployment g draftId uploadId
  | createResendDraft p g outboundId => do
      let _ ← MailHub.createResendDraft (p.service libs).toDeployment g outboundId
  | queueSend p g input => do
      let _ ← MailHub.queueSend (p.service libs).toDeployment g input
  | executeOutbound p outboundId => do
      let _ ← MailHub.executeOutbound (p.service libs) outboundId
  | executeQueued p limit => do let _ ← MailHub.executeQueued (p.service libs) limit
  | executeSentCopyAppend p outboundId => do
      let _ ← MailHub.executeSentCopyAppend (p.service libs) outboundId
  | appendDueSentCopies p limit => do let _ ← MailHub.appendDueSentCopies (p.service libs) limit
  | reconcileUnknownOutcome p outboundId => do
      let _ ← MailHub.reconcileUnknownOutcome (p.service libs) outboundId
  | reconcileUnknownOutcomes p limit => do
      let _ ← MailHub.reconcileUnknownOutcomes (p.service libs) limit
  | recoverAbandonedAttempts p => do
      let _ ← MailHub.recoverAbandonedAttempts (p.service libs)
  | elsewhere f _ _ => MailProgram.transact (modify f)

/-! ## The log -/

/-- One request that reached the SMTP transport. -/
structure Submission where
  worker : ℕ
  outboundId : Uuid
  request : SmtpSubmitRequest

/-- What a run did. -/
structure MailLog where
  /-- Every submission. -/
  submissions : List Submission
  /-- The worker that took a row from the queue. -/
  sendClaimant : Uuid → Option ℕ
  /-- The worker that last took the append claim of a row. -/
  copyClaimant : Uuid → Option ℕ
  /-- The live workers between an append claim and its conclusion, with the row. -/
  attempts : List (ℕ × Uuid)

/-- The log at the start. -/
def MailLog.empty : MailLog := ⟨[], fun _ => none, fun _ => none, []⟩

/-- Whether a row is queued. -/
def isQueued (outboundId : Uuid) (db : Database) : Bool :=
  (db.outboundMessages.find? outboundId).any fun row => row.status == .queued

/-- Whether a row is under an append claim. -/
def isAppending (outboundId : Uuid) (db : Database) : Bool :=
  (db.outboundMessages.find? outboundId).any fun row => row.sentCopyStatus == .appending

/-- Whether a row is under a submission. -/
def isSending (outboundId : Uuid) (db : Database) : Bool :=
  (db.outboundMessages.find? outboundId).any fun row => row.status == .sending

/-- Whether a row has failed. -/
def isFailed (outboundId : Uuid) (db : Database) : Bool :=
  (db.outboundMessages.find? outboundId).any fun row => row.status == .failed

/-- The log after a request. -/
def MailLog.afterCall (i : ℕ) (log : MailLog) : MailCall → MailLog
  | .submit outboundId request =>
      { log with submissions := log.submissions ++ [⟨i, outboundId, request⟩] }
  | _ => log

/-- The log after a commit. -/
def MailLog.afterCommit (i : ℕ) (db db' : Database) (log : MailLog) : Option MailTag → MailLog
  | some (.claimSend outboundId) =>
      if isQueued outboundId db && !isQueued outboundId db' then
        { log with sendClaimant := Function.update log.sendClaimant outboundId (some i) }
      else log
  | some (.claimSentCopy outboundId) =>
      if !isAppending outboundId db && isAppending outboundId db' then
        { log with
          copyClaimant := Function.update log.copyClaimant outboundId (some i)
          attempts := (i, outboundId) :: log.attempts }
      else log
  | some (.concludeSentCopy outboundId) =>
      { log with attempts := log.attempts.filter fun a => a ≠ (i, outboundId) }
  | _ => log

/-- Drafting and sending with given libraries: storage, transports and servers may answer
anything, every request may fail, and every transaction may meet a database fault. -/
def mailSystem (libs : Libraries) : System mailSignature MailLog where
  Op := MailOp
  program := MailOp.run libs
  Tick := Empty
  advance := fun t => nomatch t
  respond := fun i c _ log => some (log.afterCall i c)
  fault := Failure.isDatabaseFault
  observe := fun i tag db db' log => log.afterCommit i db db' tag
  observe_read := fun _ _ _ => rfl
  retire := fun i log => { log with attempts := log.attempts.filter fun a => a.1 ≠ i }

/-- The start of a run: no drafts and no sends, and whatever else the database holds. -/
structure MailStart (c : Config mailSignature MailLog) : Prop where
  drafts : c.world.store.drafts = .empty
  draftUploads : c.world.store.draftUploads = .empty
  outboundMessages : c.world.store.outboundMessages = .empty
  outboundUploads : c.world.store.outboundUploads = .empty
  log : c.world.outside = .empty
  workers : c.workers = []

end MailHub
