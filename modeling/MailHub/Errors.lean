import MailHub.Interleaving.Program
import MailHub.Interleaving.Transaction
import MailHub.Schema

/-!
# Errors and transactions

What the services throw, with the texts that the code gives, and the transactions that may throw it.
-/

namespace MailHub

open Relational

/-! ## Rejections -/

inductive RecoveryErrorCode
  | invalidRecoveryGeneration | recoveryRequired | recoveryInProgress
  deriving DecidableEq, Repr

inductive ComposeErrorCode
  | invalidRequest | notFound | draftStale | draftLocked | identityInvalid | uploadUnverified
  | accountChoiceRequired | identityChoiceRequired | recipientsRequired
  deriving DecidableEq, Repr

inductive SendErrorCode
  | invalidRequest | notFound | draftStale | draftLocked | recipientsRequired | uploadUnverified
  | idempotencyConflict | sendUnavailable | sentCopyUnavailable
  deriving DecidableEq, Repr

inductive IngestionErrorCode
  | invalidRequest | notFound | unsupportedLocator | parseFailed | originalMissing
  | originalMismatch | locatorUnresolved | bytesMismatch | messageTooLarge
  deriving DecidableEq, Repr

inductive ReadingErrorCode
  | invalidRequest | notFound
  deriving DecidableEq, Repr

inductive SyncErrorCode
  | invalidRequest | notFound | mailboxError | generationChanged | originalMissing
  deriving DecidableEq, Repr

inductive ActionErrorCode
  | invalidRequest | notFound | idempotencyConflict
  deriving DecidableEq, Repr

inductive AuthErrorCode
  | invalidRequest | unauthorized | originForbidden | grantInvalid | challengeInvalid
  | challengeRateLimited | webauthnInvalid | verificationRequired | lastCredential | ownerExists
  | ownerMissing | loginBlocked | authUnavailable
  deriving DecidableEq, Repr

inductive HomeErrorCode
  | invalidRequest | notFound | workStale | dueTimeInvalid | timeZoneInvalid
  deriving DecidableEq, Repr

inductive ClassificationErrorCode
  | invalidRequest | notFound
  deriving DecidableEq, Repr

inductive AccountErrorCode
  | invalidRequest | notFound | credentialInvalid
  deriving DecidableEq, Repr

/-- Everything that a service operation can throw. -/
inductive Failure
  /-- A recovery gate rejection. -/
  | recovery (code : RecoveryErrorCode) (currentGeneration : Option Uuid)
  /-- A compose rejection; a stale draft names the revision that the server holds. -/
  | compose (code : ComposeErrorCode) (message : String) (currentRevision : Option ℕ)
  /-- A send rejection; a stale draft names the revision that the server holds. -/
  | send (code : SendErrorCode) (message : String) (currentRevision : Option ℕ)
  /-- An ingestion rejection; one for size names the observed byte count. -/
  | ingestion (code : IngestionErrorCode) (message : String) (sizeBytes : Option ℕ)
  | reading (code : ReadingErrorCode) (message : String)
  | sync (code : SyncErrorCode) (message : String)
  | action (code : ActionErrorCode) (message : String)
  | auth (code : AuthErrorCode) (message : String)
  /-- A Home rejection; a stale record names the revision that the server holds. -/
  | home (code : HomeErrorCode) (message : String) (currentRevision : Option ℕ)
  | classification (code : ClassificationErrorCode) (message : String)
  | account (code : AccountErrorCode) (message : String)
  /-- PostgreSQL error 23505. -/
  | uniqueViolation (constraint : String)
  /-- Any other constraint that a statement breaks. -/
  | constraintViolation (constraint : String)
  /-- The acceptance transaction found its row in another status. -/
  | acceptanceSuperseded
  /-- An error of the database connection, with the transaction rolled back. -/
  | database (message : String)
  /-- Durable storage has no room left. -/
  | insufficientSpace (message : String)
  /-- Any other error of storage, of a mail server or of a library. -/
  | port (message : String)
  /-- The code reads a property of a value that is not there. -/
  | typeError (message : String)
  deriving DecidableEq, Repr

namespace Failure

/-- The text of a recovery gate rejection. -/
def recoveryMessage : RecoveryErrorCode → String
  | .recoveryRequired => "The server was restored from an earlier history. Review the pending " ++
      "change, then retry under the current recovery generation."
  | .recoveryInProgress => "Recovery is in progress. Retry the request after recovery completes."
  | .invalidRecoveryGeneration => "Mail mutations must carry the recovery generation issued " ++
      "when the client state was created."

/-- The text of a failure. -/
def message : Failure → String
  | recovery code _ => recoveryMessage code
  | compose _ text _ | send _ text _ | ingestion _ text _ | reading _ text | sync _ text
  | action _ text | auth _ text | home _ text _ | classification _ text | account _ text => text
  | uniqueViolation name => s!"duplicate key value violates unique constraint \"{name}\""
  | constraintViolation name => s!"new row violates constraint \"{name}\""
  | acceptanceSuperseded => ""
  | database text | insufficientSpace text | port text | typeError text => text

/-- PostgreSQL rejects two rows with one unique key. -/
def isUniqueViolation : Failure → Bool
  | uniqueViolation _ => true
  | _ => false

/-- The draft lock left with another request. -/
def isLostLockRace : Failure → Bool
  | send .draftLocked _ _ => true
  | _ => false

/-- Durable storage refused a write for want of space. -/
def isInsufficientSpace : Failure → Bool
  | insufficientSpace _ => true
  | _ => false

/-- The failures that a transaction may meet without any fault of its own statements. -/
def isDatabaseFault : Failure → Bool
  | database _ => true
  | _ => false

end Failure

/-! ## Transactions -/

/-- The statements of one transaction on the database. -/
abbrev Tx := StateT Database (Except Failure)

namespace Tx

variable {α ρ κ : Type} [Keyed ρ κ] [DecidableEq κ]

/-- Read the database. -/
def read (f : Database → α) : Tx α := return f (← get)

/-- The table after an insertion, or the violation of its primary key. -/
def inserted (constraint : String) (t : Table ρ) (r : ρ) : Tx (Table ρ) :=
  match t.insert? r with
  | some t' => pure t'
  | none => throw (.uniqueViolation constraint)

/-- Append one audit event. -/
def recordEvent (actor : Actor) (type entityType : String) (entityId : Uuid) : Tx Unit :=
  modify fun db => { db with events := db.events ++ [⟨actor, type, entityType, entityId⟩] }

variable {db db' : Database}

@[simp] theorem inserted_ok {name : String} {t t' : Table ρ} {r : ρ} :
    (inserted name t r).run db = .ok (t', db') ↔ t.insert? r = some t' ∧ db = db' := by
  unfold inserted
  cases t.insert? r <;> simp

@[simp] theorem recordEvent_run (actor : Actor) (type entityType : String) (id : Uuid) :
    (recordEvent actor type entityType id).run db =
      .ok ((), { db with events := db.events ++ [⟨actor, type, entityType, id⟩] }) := rfl

end Tx

end MailHub
