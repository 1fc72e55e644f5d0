import MailHub.Offline.Sync

/-!
# The editor of one draft

How the editor saves: online through the API, and through the offline queue when the connection is
gone, together with the local copy that the review compares. The asynchronous methods of the
autosave controller run its synchronous stretches one after the other.
-/

namespace MailHub.Offline

open Relational Interleaving MailHub OfflineStore

/-! ## Local copies -/

/-- A generation-shaped stand-in, so a device without a generation can still cache. -/
def draftFallbackGeneration : Uuid := 0x40008000000000000000

/-- Write the local copy of one acknowledged draft; it is best effort. -/
def writeLocalDraft (draft : DraftRecord) (dirty : Bool) : OfflineProgram Unit := do
  let existing := (← (getLocalDraft draft.id).attempt).toOption.join
  let generation ← match existing with
    | some existing => pure existing.recoveryGeneration
    | none => do
        let known := (← serverGeneration.attempt).toOption.join
        pure (known.getD draftFallbackGeneration)
  let _ ← (putLocalDraft
    { draftId := draft.id, accountId := draft.accountId, server := some draft,
      identity := some draft.identity.address, recipients := some draft.recipients,
      subject := draft.subject, markdown := some draft.markdown, baseRevision := draft.revision,
      dirty, recoveryGeneration := generation, updatedAt := 0 }).attempt

/-- Write the local copy of one queued edit, marked dirty; it is best effort. -/
def writeLocalDraftFor (draftId : Uuid) (patch : DraftEditPatch) (baseRevision : ℕ) :
    OfflineProgram Unit := do
  match (← (getLocalDraft draftId).attempt).toOption.join with
  | none => return
  | some existing =>
      -- No server copy exists to edit offline; the queue holds the edits.
      if existing.server = none then return
      let _ ← (putLocalDraft { existing with
        identity := patch.identity.join.or existing.identity
        recipients := patch.recipients.join.or existing.recipients
        subject := patch.subject.getD existing.subject
        markdown := patch.markdown.join.or existing.markdown
        baseRevision
        dirty := true }).attempt

/-! ## Saving -/

/-- The text of a failure. -/
def OfflineFailure.message : OfflineFailure → String
  | api error => error.message
  | lost _ => "The mail service cannot be reached."
  | generationUnknown =>
      "The server has not issued a recovery generation on this device yet."
  | uploadsUnverified waiting =>
      s!"Waiting on {waiting} upload(s) before this send can be queued."
  | reviewChoice message | storage message => message
  | identifierTaken => "Key already exists in the object store."
  | disposed => "This autosaver was disposed."

/-- Freeze one coalesced edit into the offline queue. -/
def queueDraftSave (draftId : Uuid) (baseRevision : ℕ) (patch : DraftEditPatch) :
    OfflineProgram AutosaveOutcome := do
  match ← (enqueueDraftSave draftId baseRevision patch).attempt with
  | .error .generationUnknown => return .offline
  | .error error => return .error error.message
  | .ok _ =>
      writeLocalDraftFor draftId patch baseRevision
      return .offline

/-- The outcome of an online save that failed; without an outcome the edit goes to the queue. -/
def onlineFailure (baseRevision : ℕ) (error : OfflineFailure) : Option AutosaveOutcome :=
  let failure := toApiError error
  if failure.network then none
  else if failure.code = "draft_stale" then
    some (.conflict (failure.currentRevision.getD (baseRevision + 1)))
  else if failure.unauthorized then some (.error "Your session ended. Sign in and try again.")
  else some (.error failure.message)

/-- The save function that one autosave controller runs with. -/
def draftSaveRunner (instanceId draftId : Uuid) (baseRevision : ℕ) (patch : DraftEditPatch) :
    OfflineProgram AutosaveOutcome := do
  let generation ← Program.request (S := offlineSignature) .sessionGeneration
  let offline ← Program.request (S := offlineSignature) .offline
  match (offline : Bool), (generation : Option Uuid) with
  | false, some generation =>
      match ← (apiPatchDraft (some instanceId) (some generation) draftId
          (patch.toInput baseRevision)).attempt with
      | .ok draft =>
          writeLocalDraft draft false
          return .saved draft.revision
      | .error error =>
          match onlineFailure baseRevision error with
          | some outcome => return outcome
          | none => queueDraftSave draftId baseRevision patch
  | _, _ => queueDraftSave draftId baseRevision patch

/-! ## The controller's methods -/

/-- Run one stretch of a controller that is not disposed, or of any controller. -/
def stretch {α : Type} (tag : EditTag) (instanceId : Uuid) (live : Bool)
    (f : DraftAutosaver → α × DraftAutosaver) : OfflineProgram α :=
  edit tag fun editors =>
    match editors.find? instanceId with
    | none => .error .disposed
    | some a =>
        if live ∧ a.disposed then .error .disposed
        else .ok ((f a).1, editors.put (f a).2)

/-- Open one draft in an editor: a new controller at the revision that the server reports. -/
def openEditor (draftId : Uuid) : OfflineProgram Unit := do
  let draft ← Program.request (S := offlineSignature) (.readDraft draftId)
  let instanceId ← generateId
  let draft : DraftRecord := draft
  edit (.opened instanceId draft.id draft.revision) fun editors =>
    match editors.insert? (.opened instanceId draft.id draft.revision) with
    | none => .error .identifierTaken
    | some editors => .ok ((), editors)

/-- Report one editor change. -/
def pushEdit (instanceId : Uuid) (patch : AutosavePatch) : OfflineProgram Unit :=
  stretch .other instanceId true fun a => ((), a.push patch)

/-- One save after the other, until nothing more is wanted; `rounds` bounds how often the model
goes round, and a controller that wants more never comes back. -/
def runSave (instanceId draftId : Uuid) : ℕ → OfflineProgram Unit
  | 0 => .halt
  | rounds + 1 => do
      match ← stretch (.beginSave instanceId) instanceId false DraftAutosaver.beginSave with
      | none => return
      | some (patch, baseRevision) =>
          let outcome ← draftSaveRunner instanceId draftId baseRevision patch.edits
          let continuation ← stretch (.concludeSave instanceId outcome) instanceId false
            (DraftAutosaver.concludeSave patch outcome)
          if continuation = .dropped then return
          if continuation = .again then
            runSave instanceId draftId rounds
          if ← stretch .other instanceId false DraftAutosaver.takeFlush then
            runSave instanceId draftId rounds

/-- Save now, unless a save is in flight, which then saves once more. -/
def flushEditor (instanceId draftId : Uuid) (rounds : ℕ) : OfflineProgram Unit := do
  if ← stretch .other instanceId true DraftAutosaver.flush then
    (runSave instanceId draftId rounds).cleanup
      (stretch .other instanceId false fun a => ((), a.release))

/-- The debounce timer runs out. -/
def timerFired (instanceId draftId : Uuid) (rounds : ℕ) : OfflineProgram Unit := do
  let fired ← stretch .other instanceId true fun a => (a.timer, { a with timer := false })
  if fired then
    flushEditor instanceId draftId rounds

/-- Retry after `offline` or `error`, keeping every pending edit. -/
def retryEditor (instanceId draftId : Uuid) (rounds : ℕ) : OfflineProgram Unit := do
  if ← stretch .other instanceId true DraftAutosaver.retry then
    flushEditor instanceId draftId rounds

/-- Close the editor. -/
def disposeEditor (instanceId : Uuid) : OfflineProgram Unit :=
  stretch .other instanceId false fun a => ((), a.dispose)

/-- Queue one send: online through the API, offline on this device. -/
def requestDraftSend (draftId : Uuid) (baseRevision : ℕ) (idempotencyKey : String) :
    OfflineProgram Unit := do
  let offline ← Program.request (S := offlineSignature) .offline
  let generation ← Program.request (S := offlineSignature) .sessionGeneration
  match (offline : Bool), (generation : Option Uuid) with
  | true, _ => let _ ← (enqueueSend draftId idempotencyKey baseRevision).attempt
  | false, none => return
  | false, some generation =>
      let _ ← (apiPostSend true (some generation) draftId idempotencyKey baseRevision).attempt

/-- Send the draft as the editor shows it: the pending edits first, then the request at the
revision that the controller holds; it must not leave while edits sit unsaved. -/
def submitSend (instanceId draftId : Uuid) (idempotencyKey : String) (rounds : ℕ) :
    OfflineProgram Unit := do
  let unsaved ← stretch .other instanceId false fun a => (a.pending.isSome, a)
  if unsaved then
    flushEditor instanceId draftId rounds
  match ← stretch .other instanceId false
      fun a => (if a.pending.isSome then none else some a.revision, a) with
  | none => return
  | some baseRevision => requestDraftSend draftId baseRevision idempotencyKey

/-! ## Attaching -/

/-- Link one acknowledged upload and mark it; a refusal leaves it for the next time. -/
def linkUpload (draftId : Uuid) (upload : LocalUpload) (serverId : Uuid) :
    OfflineProgram Unit := do
  let generation ← Program.request (S := offlineSignature) .sessionGeneration
  apiPostAttachment true generation draftId serverId
  markUploadAttached upload.localId

/-- Link the uploads of a list that the server acknowledged; one that the server draft already
references is marked only, and a failing store ends it. -/
def attachEach (draftId : Uuid) (attached : List Uuid) : List LocalUpload → OfflineProgram Unit
  | [] => pure ()
  | upload :: uploads => do
      match upload.serverId with
      | none => pure ()
      | some serverId =>
          if attached.contains serverId then markUploadAttached upload.localId
          else
            let _ ← (linkUpload draftId upload serverId).attempt
      attachEach draftId attached uploads

/-- Attach uploads the server acknowledged but the draft does not reference yet. -/
def attachAcknowledgedUploads (draftId : Uuid) (attached : List Uuid) : OfflineProgram Unit := do
  let _ ← (do
    let uploads ← read (uploadsOf draftId)
    attachEach draftId attached uploads : OfflineProgram Unit).attempt

end MailHub.Offline
