import MailHub.Offline.Store

/-!
# The transport port of the offline queue

One implementation per queued kind over the JSON API, and how a failed replay attempt is classified.
Each request reads the generation of its header from the store right before it leaves.
-/

namespace MailHub.Offline

open Relational Interleaving MailHub

/-! ## Outcomes -/

/-- How one replay attempt ended. -/
inductive ReplayOutcome
  | synced (revision : Option ℕ) (serverUploadId : Option Uuid)
  | retry (reason : String) (signInRequired : Bool)
  | failed (reason : String)
  | review (reason : ReviewReason)
  deriving DecidableEq, Repr

/-- How one failed replay attempt classifies. -/
def classifyReplayFailure (error : OfflineFailure) (lostResponseIsUncertain : Bool) :
    ReplayOutcome :=
  let failure := toApiError error
  if failure.network then
    if lostResponseIsUncertain then .review .uncertainSend else .retry failure.message false
  else if failure.unauthorized then .retry failure.message true
  else if failure.code = "draft_stale" then .review .draftConflict
  else if failure.code = "recovery_required" then .review .serverRestored
  else if failure.status ≥ 500 ∨ failure.status = 429 then .retry failure.message false
  else .failed failure.message

/-- The transport the wiring layer supplies. Missing handlers block a kind. -/
structure OfflinePort where
  saveDraft : Option (Uuid → ℕ → DraftEditPatch → OfflineProgram ReplayOutcome)
  uploadBytes : Option (LocalUpload → OfflineProgram ReplayOutcome)
  queueSend : Option (Uuid → String → ℕ → OfflineProgram ReplayOutcome)
  /-- The kind of a mail action, its frozen targets, its destination and its key. -/
  runMailAction :
    Option (ActionKind → List FrozenTarget → Option Uuid → String → OfflineProgram ReplayOutcome)

/-! ## Bodies -/

/-- The wire kind of one flag assignment. -/
def flagKind (flag : MailFlag) (value : Bool) : ActionKind :=
  match flag with
  | .unread => if value then .markUnread else .markRead
  | .flagged => if value then .star else .unstar

/-- The replay body of one queued mail action, back in wire form. -/
def mailActionBodyOf (kind : ActionKind) (targets : List FrozenTarget)
    (destinationFolderId : Option Uuid) (idempotencyKey : String) : MailActionSubmission where
  accountId := (targets.head?.map (·.accountId)).getD 0
  kind := kind
  idempotencyKey := idempotencyKey
  occurrenceIds := targets.map (·.occurrenceId)
  destinationFolderId := destinationFolderId

/-- Strip the fields the draft edit route cannot carry. -/
def editBody (patch : DraftEditPatch) (baseRevision : ℕ) : UpdateDraftInput where
  baseRevision := baseRevision
  identity := patch.identity.bind fun identity => identity.map some
  recipients := patch.recipients.bind fun recipients => recipients.map some
  subject := patch.subject
  markdown := patch.markdown

/-! ## Requests -/

/-- The generation header: what the store holds at this moment. -/
def generationHeaders : OfflineProgram (Option Uuid) :=
  OfflineStore.look .generationHeaders (·.serverGeneration)

def apiPatchDraft (editor : Option Uuid) (generation : Option Uuid) (draftId : Uuid)
    (input : UpdateDraftInput) : OfflineProgram DraftRecord :=
  Program.request (S := offlineSignature) (.patchDraft editor generation draftId input)

def apiPostUpload (generation : Option Uuid) (upload : LocalUpload) : OfflineProgram Uuid :=
  Program.request (S := offlineSignature) (.postUpload generation upload)

def apiGetAttachments (draftId : Uuid) : OfflineProgram (List Uuid) :=
  Program.request (S := offlineSignature) (.getAttachments draftId)

def apiPostAttachment (editor : Bool) (generation : Option Uuid) (draftId uploadId : Uuid) :
    OfflineProgram Unit :=
  Program.request (S := offlineSignature) (.postAttachment editor generation draftId uploadId)

def apiPostSend (editor : Bool) (generation : Option Uuid) (draftId : Uuid)
    (idempotencyKey : String) (baseRevision : ℕ) : OfflineProgram Uuid :=
  Program.request (S := offlineSignature)
    (.postSend editor generation draftId idempotencyKey baseRevision)

def apiPostAction (generation : Option Uuid) (body : MailActionSubmission) : OfflineProgram Unit :=
  Program.request (S := offlineSignature) (.postAction generation body)

/-! ## Handlers -/

/-- Run one replay; a failure is classified. -/
def replaying (request : OfflineProgram ReplayOutcome) (lostResponseIsUncertain : Bool) :
    OfflineProgram ReplayOutcome :=
  tryCatch request fun (error : OfflineFailure) =>
    pure (classifyReplayFailure error lostResponseIsUncertain)

/-- Replay one draft save. -/
def saveDraft (draftId : Uuid) (baseRevision : ℕ) (patch : DraftEditPatch) :
    OfflineProgram ReplayOutcome :=
  replaying (do
    let generation ← generationHeaders
    let draft ← apiPatchDraft none generation draftId (editBody patch baseRevision)
    return .synced (some draft.revision) none) false

/-- Replay one upload. -/
def uploadBytes (upload : LocalUpload) : OfflineProgram ReplayOutcome :=
  replaying (do
    let generation ← generationHeaders
    let serverId ← apiPostUpload generation upload
    return .synced none (some serverId)) false

/-- Link one acknowledged upload, unless the list that the server holds has it already; the list is
read once. -/
def attachUpload (draftId : Uuid) (upload : LocalUpload) (serverId : Uuid)
    (known : Option (List Uuid)) : OfflineProgram (List Uuid) := do
  let ids ← match known with
    | some ids => pure ids
    | none => apiGetAttachments draftId
  if !ids.contains serverId then
    let generation ← generationHeaders
    apiPostAttachment false generation draftId serverId
  OfflineStore.markUploadAttached upload.localId
  return ids

/-- Link the acknowledged uploads of one draft; an outcome means that the send has to wait. -/
def attachUploads (draftId : Uuid) :
    List LocalUpload → Option (List Uuid) → OfflineProgram (Option ReplayOutcome)
  | [], _ => pure none
  | upload :: uploads, known =>
      match upload.serverId with
      | none => pure (some (.retry
          "An upload this draft needs has not reached the server yet." false))
      | some serverId =>
          if upload.attachedAt ≠ none then attachUploads draftId uploads known
          else do
            match ← (attachUpload draftId upload serverId known).attempt with
            | .ok ids => attachUploads draftId uploads (some ids)
            | .error error => pure (some (classifyReplayFailure error false))

/-- Replay one send: its files first, then the request. -/
def queueSend (draftId : Uuid) (idempotencyKey : String) (baseRevision : ℕ) :
    OfflineProgram ReplayOutcome := do
  let uploads ← OfflineStore.look (.files draftId) (OfflineStore.uploadsOf draftId)
  match ← attachUploads draftId uploads none with
  | some outcome => return outcome
  | none =>
      replaying (do
        let generation ← generationHeaders
        let _ ← apiPostSend false generation draftId idempotencyKey baseRevision
        return .synced none none) true

/-- Replay one mail action with the targets frozen at queue time. -/
def runMailAction (kind : ActionKind) (targets : List FrozenTarget)
    (destinationFolderId : Option Uuid) (idempotencyKey : String) :
    OfflineProgram ReplayOutcome :=
  if targets.isEmpty then return .failed "The queued action held no targets."
  else replaying (do
    let generation ← generationHeaders
    apiPostAction generation (mailActionBodyOf kind targets destinationFolderId idempotencyKey)
    return .synced none none) false

/-- The web port. -/
def webOfflinePort : OfflinePort where
  saveDraft := some Offline.saveDraft
  uploadBytes := some Offline.uploadBytes
  queueSend := some Offline.queueSend
  runMailAction := some Offline.runMailAction

end MailHub.Offline
