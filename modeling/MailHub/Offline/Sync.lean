import MailHub.Offline.Port

/-!
# The replay controller

The controller replays queued actions oldest first, but three things stop it on purpose: a
generation mismatch, a send whose response was lost, and a stale draft rejection. Every `await` of
the source is a node of its own here, so anything else can happen between any two of them. The
snapshots that the methods report to the interface are left out.
-/

namespace MailHub.Offline

open Relational Interleaving MailHub OfflineStore

/-! ## Generations -/

/-- The update of an action that a restore sends to review. -/
def restoredPatch : ActionPatch :=
  { state := some .review, reviewReason := some (some .serverRestored) }

/-- Record the generation an authenticated session issued. A change marks every pending item from
another generation for review; text that is no generation counts as none. -/
def observeGeneration (current : Option Uuid) : OfflineProgram Unit := do
  match current with
  | none => return
  | some normalized =>
      let previous ← serverGeneration
      write (.serverGeneration normalized)
      match previous with
      | none => return
      | some previous =>
          if previous = normalized then return
          let markedAt ← timestamp
          write (.restore ⟨normalized, previous, markedAt⟩)
          for action in ← OfflineStore.pendingActions do
            if action.recoveryGeneration ≠ normalized then
              updateAction action.localId restoredPatch

/-! ## Settlement -/

/-- Whether a queued action froze a revision of the draft that an accepted save moved. -/
def QueuedPayload.chains (draftId : Uuid) (revision : ℕ) : QueuedPayload → Bool
  | .draftSave draft base _ | .send draft _ base => draft == draftId && base < revision
  | _ => false

/-- The payload with another base revision. -/
def QueuedPayload.rebased (revision : ℕ) : QueuedPayload → QueuedPayload
  | .draftSave draftId _ patch => .draftSave draftId revision patch
  | .send draftId key _ => .send draftId key revision
  | payload => payload

/-- True while one draft still has a queued edit no server acknowledged. -/
def hasQueuedDraftSave (pending : List QueuedAction) (draftId : Uuid) : Bool :=
  pending.any fun entry =>
    match entry.payload with
    | .draftSave draft _ _ => draft == draftId
    | _ => false

/-- Chain the pending actions of one draft forward to the revision that a save produced. -/
def chainForward (draftId : Uuid) (revision : ℕ) : List QueuedAction → OfflineProgram Unit
  | [] => pure ()
  | entry :: pending => do
      if entry.payload.chains draftId revision then
        updateAction entry.localId { payload := some (entry.payload.rebased revision) }
      chainForward draftId revision pending

/-- The update of an action that synced. -/
def syncedPatch (syncedAt : Time) : ActionPatch :=
  { state := some .synced, reviewReason := some none, failure := some none,
    syncedAt := some (some syncedAt) }

/-- Apply one synced outcome to the records behind the action. -/
def settleSynced (action : QueuedAction) (revision : Option ℕ) (serverUploadId : Option Uuid) :
    OfflineProgram Unit := do
  let syncedAt ← timestamp
  updateAction action.localId (syncedPatch syncedAt)
  match action.payload, revision, serverUploadId with
  | .draftSave draftId _ _, some revision, _ =>
      let pending ← look .listChained pendingOf
      chainForward draftId revision pending
      match ← getLocalDraft draftId with
      | none => return
      | some local' =>
          if local'.baseRevision ≤ revision then
            putLocalDraft { local' with
              baseRevision := revision
              dirty := hasQueuedDraftSave pending draftId
              recoveryGeneration := action.recoveryGeneration }
  | .send draftId _ baseRevision, _, _ =>
      let pending ← OfflineStore.pendingActions
      match ← getLocalDraft draftId with
      | none => return
      | some local' =>
          -- The revision a send synced against proves that the server holds every edit below it.
          if local'.baseRevision ≤ baseRevision then
            putLocalDraft { local' with
              dirty := hasQueuedDraftSave pending draftId
              recoveryGeneration := action.recoveryGeneration }
  | .upload localUploadId, _, some serverId => markUploadAcknowledged localUploadId serverId
  | _, _, _ => return

/-! ## Passes -/

/-- Load the stored bytes and hand them to the port. -/
def replayUpload (localUploadId : Uuid) (uploadBytes : LocalUpload → OfflineProgram ReplayOutcome) :
    OfflineProgram ReplayOutcome := do
  match ← getUpload localUploadId with
  | none => return .failed "The uploaded file is no longer on this device."
  | some upload =>
      match upload.serverId with
      | some serverId => return .synced none (some serverId)
      | none => uploadBytes upload

/-- The port handler for one payload, or nothing when the kind is blocked. -/
def handlerFor (port : OfflinePort) : QueuedPayload → Option (OfflineProgram ReplayOutcome)
  | .draftSave draftId baseRevision patch =>
      port.saveDraft.map fun save => save draftId baseRevision patch
  | .upload localUploadId => port.uploadBytes.map fun bytes => replayUpload localUploadId bytes
  | .send draftId idempotencyKey baseRevision =>
      port.queueSend.map fun send => send draftId idempotencyKey baseRevision
  | .flag targets flag value idempotencyKey =>
      port.runMailAction.map fun run => run (flagKind flag value) targets none idempotencyKey
  | .move targets destinationFolderId idempotencyKey =>
      port.runMailAction.map fun run => run .move targets (some destinationFolderId) idempotencyKey

/-- What one pass did. -/
structure SyncReport where
  attempted : ℕ
  synced : ℕ
  /-- True when a generation mismatch stopped the pass. -/
  stoppedForRestore : Bool
  /-- True when an ended session paused the pass. -/
  pausedForSignIn : Bool
  deriving DecidableEq, Repr

/-- Record how an attempt ended; the flag says whether the pass goes on. -/
def settleOutcome (queued : QueuedAction) (outcome : ReplayOutcome) (report : SyncReport) :
    OfflineProgram (Bool × SyncReport) := do
  match outcome with
  | .synced revision serverUploadId =>
      settleSynced queued revision serverUploadId
      return (true, { report with synced := report.synced + 1 })
  | .failed reason =>
      updateAction queued.localId { state := some .failed, failure := some (some reason) }
      return (true, report)
  | .review reason =>
      updateAction queued.localId { state := some .review, reviewReason := some (some reason) }
      return (true, report)
  | .retry _ signInRequired =>
      -- An ordinary retry keeps the item pending for the next pass.
      if signInRequired then
        write (.signInRequired true)
        return (false, { report with pausedForSignIn := true })
      return (true, report)

/-- Replay the listed actions one after the other. -/
def replayActions (port : OfflinePort) (generation : Uuid) :
    List QueuedAction → SyncReport → OfflineProgram SyncReport
  | [], report => pure report
  | action :: actions, report => do
      if action.recoveryGeneration ≠ generation then
        OfflineStore.run (.stop action.localId) (.updateAction action.localId restoredPatch)
        return { report with stoppedForRestore := true }
      -- A save that settled earlier in this pass may have chained this item's base revision
      -- forward, so replay the payload as the store holds it now.
      match ← look (.recheck action.localId) fun s => s.queue.find? action.localId with
      | none => replayActions port generation actions report
      | some queued =>
          if queued.state ≠ .pending then replayActions port generation actions report
          else
            match handlerFor port queued.payload with
            | none => replayActions port generation actions report
            | some run => do
                updateAction action.localId { attempts := some (action.attempts + 1) }
                let outcome ← run
                let (goesOn, report) ← settleOutcome queued outcome
                  { report with attempted := report.attempted + 1 }
                if goesOn then replayActions port generation actions report
                else return report

/-- Give every waiting upload a replay action. -/
def reconcileOrphanedUploads : OfflineProgram Unit := do
  let actions ← allActions
  let covered := actions.filterMap fun action =>
    match action.payload with
    | .upload localUploadId => if action.state ≠ .synced then some localUploadId else none
    | _ => none
  for upload in ← pendingUploads do
    if upload.localId ∉ covered then
      let _ ← OfflineStore.enqueue (.upload upload.localId) upload.recoveryGeneration

/-- One serialized replay pass. -/
def runPass (port : OfflinePort) : OfflineProgram SyncReport := do
  match ← look .passGeneration (·.serverGeneration) with
  | none => return ⟨0, 0, false, false⟩
  | some generation =>
      write (.signInRequired false)
      reconcileOrphanedUploads
      let actions ← look .listPending pendingOf
      let report ← replayActions port generation actions ⟨0, 0, false, false⟩
      if report.synced > 0 then
        let now ← timestamp
        write (.lastSyncedAt now)
      pruneSyncedActions
      pruneSettledLocalRecords
      return report

/-- Replay pending actions. Passes serialize: a caller that arrives while one runs waits. -/
def sync (port : OfflinePort) : OfflineProgram SyncReport := do
  let _ ← Program.request (S := offlineSignature) .acquirePass
  (runPass port).cleanup (Program.request (S := offlineSignature) .releasePass)

/-! ## Reviews -/

/-- The choice that resolves one review item. -/
inductive ReviewChoice
  | rebase (comparedWithServer duplicateWarningAcknowledged : Bool) (serverRevision : Option ℕ)
  | discard
  deriving DecidableEq, Repr

/-- After a rebase, the local records join the current generation too. -/
def restampLocalWork (payload : QueuedPayload) (generation : Uuid) : OfflineProgram Unit := do
  match payload with
  | .upload localUploadId =>
      match ← getUpload localUploadId with
      | none => return
      | some upload =>
          write (.updateUpload upload.localId { recoveryGeneration := some generation })
  | .draftSave draftId baseRevision _ =>
      match ← getLocalDraft draftId with
      | none => return
      | some local' => putLocalDraft { local' with baseRevision, recoveryGeneration := generation }
  | _ => return

/-- The payload that a rebase queues again, after the step that its kind requires. -/
def rebasedPayload (payload : QueuedPayload) (compared acknowledged : Bool)
    (serverRevision : Option ℕ) : OfflineProgram QueuedPayload := do
  match payload with
  | .send draftId _ baseRevision =>
      if !acknowledged then
        throw (OfflineFailure.reviewChoice
          "An uncertain send needs the duplicate warning acknowledged first (SPEC F7).")
      -- A resend is new work: a new key, never the old one.
      let key ← generateId
      match ← getLocalDraft draftId with
      | some local' => return .send draftId (toString key) (max baseRevision local'.baseRevision)
      | none => return .send draftId (toString key) baseRevision
  | .draftSave draftId _ patch =>
      match compared, serverRevision with
      | true, some serverRevision => return .draftSave draftId serverRevision patch
      | _, _ => throw (OfflineFailure.reviewChoice
          "Rebase a draft only after an explicit comparison with the server copy (SPEC F9).")
  | payload => return payload

/-- Delete the file of an upload that the owner gave up on. -/
def deleteDiscardedUpload (payload : QueuedPayload) : OfflineProgram Unit := do
  match payload with
  | .upload localUploadId => deleteUpload localUploadId
  | _ => return

/-- The queued action with an identifier, among all of them. -/
def findAction (localId : Uuid) : OfflineProgram (Option QueuedAction) := do
  return (← allActions).find? (·.localId == localId)

/-- Resolve one review item. A rebase stamps the item with the current generation; a discard drops
the action and keeps local text and files. -/
def resolveReview (localId : Uuid) (choice : ReviewChoice) : OfflineProgram Unit := do
  match ← findAction localId with
  | none => throw (OfflineFailure.reviewChoice "That queued action no longer exists.")
  | some action =>
      if action.state ≠ .review then
        throw (OfflineFailure.reviewChoice "Only an action waiting for review can be resolved.")
      match choice with
      | .discard =>
          deleteDiscardedUpload action.payload
          deleteAction localId
      | .rebase compared acknowledged serverRevision =>
          match ← serverGeneration with
          | none => throw OfflineFailure.generationUnknown
          | some generation =>
              let payload ← rebasedPayload action.payload compared acknowledged serverRevision
              updateAction localId
                { payload := some payload, recoveryGeneration := some generation,
                  state := some .pending, reviewReason := some none, failure := some none }
              restampLocalWork payload generation

/-- Move one definitively failed action back to the queue. -/
def retryFailure (localId : Uuid) : OfflineProgram Unit :=
  updateAction localId { state := some .pending, failure := some none }

/-- Drop one definitively failed action. Local drafts stay; the bytes of a failed upload go. -/
def discardFailure (localId : Uuid) : OfflineProgram Unit := do
  match ← findAction localId with
  | some action => deleteDiscardedUpload action.payload
  | none => pure ()
  deleteAction localId

/-! ## Enqueueing -/

/-- Run what needs the generation that the server last issued. -/
def withGeneration {α : Type} (f : Uuid → OfflineProgram α) : OfflineProgram α := do
  match ← serverGeneration with
  | none => throw OfflineFailure.generationUnknown
  | some generation => f generation

/-- Freeze one action under the current generation. -/
def enqueuePayload (payload : QueuedPayload) : OfflineProgram QueuedAction :=
  withGeneration fun generation => OfflineStore.enqueue payload generation

/-- Queue one draft edit against its base revision. -/
def enqueueDraftSave (draftId : Uuid) (baseRevision : ℕ) (patch : DraftEditPatch) :
    OfflineProgram QueuedAction :=
  enqueuePayload (.draftSave draftId baseRevision patch)

/-- Persist one file and queue its upload in one write. -/
def enqueueUpload (upload : NewUpload) : OfflineProgram (QueuedAction × LocalUpload) :=
  withGeneration fun generation => putPendingUploadWithAction upload generation

/-- Queue one send, once every file of its draft is uploaded and linked. -/
def enqueueSend (draftId : Uuid) (idempotencyKey : String) (baseRevision : ℕ) :
    OfflineProgram QueuedAction := do
  let uploads ← read (uploadsOf draftId)
  let waiting := uploads.filter fun u => u.serverId == none || u.attachedAt == none
  if waiting.length > 0 then
    throw (OfflineFailure.uploadsUnverified waiting.length)
  enqueuePayload (.send draftId idempotencyKey baseRevision)

/-- A mail action with frozen occurrence targets. -/
inductive MailActionPayload
  | flag (targets : List FrozenTarget) (flag : MailFlag) (value : Bool) (idempotencyKey : String)
  | move (targets : List FrozenTarget) (destinationFolderId : Uuid) (idempotencyKey : String)
  deriving DecidableEq, Repr

/-- The payload of a mail action. -/
def MailActionPayload.toPayload : MailActionPayload → QueuedPayload
  | flag targets f value key => .flag targets f value key
  | move targets destination key => .move targets destination key

/-- Queue one mail action with frozen occurrence targets. -/
def enqueueMailAction (payload : MailActionPayload) : OfflineProgram QueuedAction :=
  enqueuePayload payload.toPayload

/-- Record the server draft, fetched for the comparison step. -/
def noteComparedServerCopy (draftId : Uuid) (server : DraftRecord) : OfflineProgram Unit := do
  match ← getLocalDraft draftId with
  | none => return
  | some local' => putLocalDraft { local' with server := some server }

end MailHub.Offline
