import MailHub.Offline.Records

/-!
# The autosave state machine

The editor reports every change of one open draft. The controller waits for a pause, coalesces the
pending edits field by field, and saves with the revision the server last acknowledged. Each
definition here is one synchronous stretch of the controller, from one `await` to the next.
-/

namespace MailHub.Offline

open Relational MailHub

/-! ## Patches -/

/-- An object of the editor: two of them are the same only when their references are. -/
structure Boxed (α : Type) where
  ref : ℕ
  value : α
  deriving DecidableEq, Repr

/-- One editor change, applied field by field to the pending edits. -/
structure AutosavePatch where
  identity : Option (Option (Boxed String)) := none
  recipients : Option (Option (Boxed Recipients)) := none
  subject : Option (Option String) := none
  markdown : Option (Option String) := none
  deriving DecidableEq, Repr

/-- Merge one patch into the pending edits; later values win per field. -/
def mergePatch (current : Option AutosavePatch) (patch : AutosavePatch) : AutosavePatch :=
  match current with
  | none => patch
  | some current =>
      { identity := patch.identity.or current.identity
        recipients := patch.recipients.or current.recipients
        subject := patch.subject.or current.subject
        markdown := patch.markdown.or current.markdown }

/-- The edits of a patch, without the references. -/
def AutosavePatch.edits (patch : AutosavePatch) : DraftEditPatch :=
  { identity := patch.identity.map (·.map Boxed.value)
    recipients := patch.recipients.map (·.map Boxed.value)
    subject := patch.subject
    markdown := patch.markdown }

/-! ## The controller -/

/-- The autosave status shown in one stable place. -/
inductive AutosaveState
  | saved | unsaved | saving | conflict | offline | error
  deriving DecidableEq, Repr

/-- What one save attempt concluded. -/
inductive AutosaveOutcome
  | saved (revision : ℕ)
  | conflict (currentRevision : ℕ)
  | offline
  | error (message : String)
  deriving DecidableEq, Repr

/-- The autosave state machine for one open draft. -/
structure DraftAutosaver where
  /-- The instance; every opening of a draft makes a new one. -/
  instanceId : Uuid
  draftId : Uuid
  /-- The revision the local copy is based on. -/
  revision : ℕ
  currentState : AutosaveState
  /-- The edits not yet acknowledged by the server. -/
  pending : Option AutosavePatch
  /-- Whether the debounce timer runs. -/
  timer : Bool
  inFlight : Bool
  flushWanted : Bool
  disposed : Bool
  deriving DecidableEq, Repr

instance : Keyed DraftAutosaver Uuid := ⟨DraftAutosaver.instanceId⟩

namespace DraftAutosaver

/-- The controller of a draft that was just opened. -/
def opened (instanceId draftId : Uuid) (revision : ℕ) : DraftAutosaver :=
  ⟨instanceId, draftId, revision, .saved, none, false, false, false, false⟩

/-- Report one editor change. It restarts the debounce, except during a conflict. -/
def push (patch : AutosavePatch) (a : DraftAutosaver) : DraftAutosaver :=
  let a := { a with pending := some (mergePatch a.pending patch) }
  if a.currentState = .conflict then a
  else
    let a := if a.currentState = .saving then a else { a with currentState := .unsaved }
    { a with timer := true }

/-- Set the state unless the controller was disposed. -/
def setStateIfLive (state : AutosaveState) (a : DraftAutosaver) : DraftAutosaver :=
  if a.disposed then a else { a with currentState := state }

/-- The first stretch of a flush: one save at a time, and a flush during a save is remembered.
The flag says whether a save starts. -/
def flush (a : DraftAutosaver) : Bool × DraftAutosaver :=
  if a.inFlight then (false, { a with flushWanted := true })
  else (true, { a with timer := false, inFlight := true })

/-- The stretch of a save up to its request: the patch and its base, when there is one to save. -/
def beginSave (a : DraftAutosaver) : Option (AutosavePatch × ℕ) × DraftAutosaver :=
  -- A conflict waits for an explicit choice; nothing autosaves over it.
  if a.currentState = .conflict then (none, a)
  else
    match a.pending with
    | none => (none, a.setStateIfLive .saved)
    | some patch => (some (patch, a.revision), a.setStateIfLive .saving)

/-- How a save goes on after its outcome. -/
inductive Continuation
  /-- The controller was disposed meanwhile. -/
  | dropped
  /-- Edits arrived while the save was in flight: save them too. -/
  | again
  | settled
  deriving DecidableEq, Repr

/-- The stretch of a save after its outcome. -/
def concludeSave (patch : AutosavePatch) (outcome : AutosaveOutcome) (a : DraftAutosaver) :
    Continuation × DraftAutosaver :=
  if a.disposed then (.dropped, a)
  else
    match outcome with
    | .saved revision =>
        let pending := if a.pending = some patch then none else a.pending
        let a := { a with revision, pending }
        match pending with
        | none => (.settled, { a with currentState := .saved })
        | some _ => (.again, { a with currentState := .unsaved })
    | .conflict _ => (.settled, { a with currentState := .conflict })
    | .offline => (.settled, { a with currentState := .offline })
    | .error _ => (.settled, { a with currentState := .error })

/-- The last stretch of a save: a flush that came meanwhile saves what is pending. -/
def takeFlush (a : DraftAutosaver) : Bool × DraftAutosaver :=
  if a.flushWanted then (a.pending.isSome, { a with flushWanted := false }) else (false, a)

/-- The in-flight slot is always released. -/
def release (a : DraftAutosaver) : DraftAutosaver := { a with inFlight := false }

/-- Retry after `offline` or `error`, keeping every pending edit; the flag says whether it flushes. -/
def retry (a : DraftAutosaver) : Bool × DraftAutosaver :=
  if a.currentState ≠ .offline ∧ a.currentState ≠ .error then (false, a)
  else
    match a.pending with
    | none => (false, { a with currentState := .saved })
    | some _ => (true, { a with currentState := .unsaved })

/-- Resolve a conflict by keeping the server copy; the pending edits are discarded. -/
def acceptServerCopy (revision : ℕ) (a : DraftAutosaver) : DraftAutosaver :=
  { a with revision, pending := none, currentState := .saved }

/-- Resolve a conflict by keeping the local copy: the pending edits rebase onto the server
revision, and a flush follows. -/
def keepLocalCopy (currentRevision : ℕ) (a : DraftAutosaver) : DraftAutosaver :=
  { a with revision := currentRevision, currentState := .unsaved }

/-- Stop the debounce timer. Pending edits stay in memory. -/
def dispose (a : DraftAutosaver) : DraftAutosaver := { a with disposed := true, timer := false }

end DraftAutosaver

end MailHub.Offline
