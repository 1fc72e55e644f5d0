import Mathlib.Data.List.Dedup
import Mathlib.Data.List.Sort
import MailHub.Errors
import MailHub.Text

/-!
# Action kinds and the executor port

Every action sets an explicit value; none of them toggles a remote value. Flag kinds change one
flag of one occurrence; `archive` and `move` carry a destination folder that the request freezes
before queueing. The executor performs one prepared item on one mailbox session.
-/

namespace MailHub

/-! ## Kinds -/

/-- One flag that an action can set. -/
inductive MessageFlag
  | unread | flagged
  deriving DecidableEq, Repr

/-- One flag an action can set, with the value it sets it to. -/
structure FlagDesire where
  flag : MessageFlag
  value : Bool
  deriving DecidableEq, Repr

/-- The flag value one flag kind sets; move kinds have none. -/
def flagDesireOf : ActionKind → Option FlagDesire
  | .markRead => some ⟨.unread, false⟩
  | .markUnread => some ⟨.unread, true⟩
  | .star => some ⟨.flagged, true⟩
  | .unstar => some ⟨.flagged, false⟩
  | .archive | .move => none

/-- Whether one kind may replay after a restart, target refreshed first. -/
def isReplayableKind (kind : ActionKind) : Bool := (flagDesireOf kind).isSome

/-- Whether a kind needs a destination before queueing. -/
def requiresDestination (kind : ActionKind) : Bool := kind == .archive || kind == .move

/-- The kinds that never replay are the ones that move. -/
theorem isReplayableKind_eq (kind : ActionKind) :
    isReplayableKind kind = !requiresDestination kind := by
  cases kind <;> rfl

/-- The name of a kind. -/
def ActionKind.text : ActionKind → String
  | markRead => "mark_read"
  | markUnread => "mark_unread"
  | star => "star"
  | unstar => "unstar"
  | archive => "archive"
  | move => "move"

/-! ## Submissions -/

/-- The most targets one action may freeze. -/
def maxActionTargets : ℕ := 500

/-- Longest idempotency key accepted, so keys stay index-friendly. -/
def maxActionKeyLength : ℕ := 200

/-- One durable mail-mutation request as a client submits it. -/
structure MailActionSubmission where
  accountId : Uuid
  kind : ActionKind
  idempotencyKey : String
  /-- Occurrences the client selected; duplicates collapse. -/
  occurrenceIds : List Uuid
  /-- Destination folder for `archive` and `move`. -/
  destinationFolderId : Option Uuid
  deriving DecidableEq, Repr

/-- A rejected field of a submission. -/
def invalidAction (field problem : String) : Failure :=
  .action .invalidRequest s!"The {field} of a mail action {problem}."

/-- Reject a malformed submission before any database work. -/
def validateSubmission (submission : MailActionSubmission) : Except Failure Unit := do
  if submission.idempotencyKey = "" then
    throw (invalidAction "idempotency key" "must be a non-empty string")
  if maxActionKeyLength < textLength submission.idempotencyKey then
    throw (invalidAction "idempotency key" s!"must hold at most {maxActionKeyLength} characters")
  if submission.occurrenceIds = [] then
    throw (invalidAction "target list" "must hold at least one occurrence")
  if maxActionTargets < submission.occurrenceIds.dedup.length then
    throw (invalidAction "target list" s!"must hold at most {maxActionTargets} occurrences")
  if requiresDestination submission.kind then
    if submission.destinationFolderId = none then
      throw (invalidAction "destination folder"
        "must be a UUID before a move or archive is queued")
  else if submission.destinationFolderId ≠ none then
    throw (invalidAction "destination folder" "only belongs to a move or archive")

/-- The canonical scope of a submission: the exact payload an idempotency key binds to. -/
def canonicalScope (submission : MailActionSubmission) : ActionScope where
  kind := submission.kind
  accountId := submission.accountId
  occurrenceIds := submission.occurrenceIds.dedup.insertionSort (· ≤ ·)
  destinationFolderId := submission.destinationFolderId

/-- The canonical scope as JSON text. -/
def scopeText (scope : ActionScope) : String :=
  "\x7b\"kind\":\"" ++ scope.kind.text ++ "\",\"accountId\":\"" ++ toString scope.accountId ++
    "\",\"occurrenceIds\":[" ++
    ",".intercalate (scope.occurrenceIds.map fun id => s!"\"{id}\"") ++
    "],\"destinationFolderId\":" ++
    (match scope.destinationFolderId with
      | some id => s!"\"{id}\""
      | none => "null") ++ "\x7d"

/-- The frozen target of one queued item. -/
def frozenTarget (occurrence : MessageOccurrence) : ActionItemTarget where
  occurrenceId := occurrence.id
  accountId := occurrence.accountId
  folderId := occurrence.folderId
  uidvalidity := occurrence.uidvalidity
  uid := occurrence.uid
  revision := occurrence.revision
  observed := ⟨occurrence.unread, occurrence.flagged⟩
  modseq := occurrence.modseq

/-! ## The executor port -/

/-- One observed flag set of the selected folder. -/
structure ActionMailboxFlags extends TargetObservation where
  uid : ℕ
  /-- The server modification sequence this observation carried, when the session reports one. -/
  modseq : Option ℕ
  deriving DecidableEq, Repr

/-- The observed value of one flag. -/
def TargetObservation.get (o : TargetObservation) : MessageFlag → Bool
  | .unread => o.unread
  | .flagged => o.flagged

/-- The desired state one prepared item carries to the executor. -/
inductive DesiredActionState
  | flags (desire : FlagDesire)
  | move (destinationFolderId : Option Uuid) (destinationFolderName : String)
  deriving DecidableEq, Repr

/-- The folder one prepared item is applied in. -/
structure PreparedFolder where
  id : Uuid
  name : String
  uidvalidity : ℕ
  deriving DecidableEq, Repr

/-- One item prepared for its remote mutation, after every check passed. -/
structure PreparedActionItem where
  actionId : Uuid
  itemKey : Uuid
  kind : ActionKind
  accountId : Uuid
  folder : PreparedFolder
  /-- The frozen target from the queueing transaction. -/
  target : ActionItemTarget
  /-- The remote flags the pre-flight refresh observed. -/
  remote : ActionMailboxFlags
  desired : DesiredActionState
  deriving DecidableEq, Repr

/-- The result of one remote mutation, as the executor reports it. -/
inductive ExecutorOutcome
  | confirmed (observed : ActionMailboxFlags) (movedTo : Option MoveDestination)
  | conflicted (reason : String) (observed : ActionMailboxFlags)
  /-- The write's outcome could not be proved; the last state a completed read saw, if any. -/
  | unknown (reason : String) (observed : Option ActionMailboxFlags)
  | failed (code message : String)
  deriving DecidableEq, Repr

end MailHub
