import MailHub.Interleaving.Program
import MailHub.Interleaving.Transaction
import MailHub.Offline.Autosave
import Mathlib.Data.List.Sort

/-!
# The offline store

Local drafts, upload bytes and queued actions live in IndexedDB; the open editors live in memory
next to them. Every statement of the store is one transaction of its own: the replay controller
awaits each of them, and others run in between. The store holds no transport.
-/

namespace MailHub.Offline

open Relational Interleaving MailHub

/-! ## The device -/

/-- What one device holds. -/
structure Device where
  drafts : Table LocalDraft
  uploads : Table LocalUpload
  queue : Table QueuedAction
  /-- The generation the server last issued, when this device knows one. -/
  serverGeneration : Option Uuid
  restore : Option RestoreMarker
  lastSyncedAt : Option Time
  /-- Set while a replay pass paused because the session had ended. -/
  signInRequired : Bool
  /-- The controllers of the opened drafts; they live in memory. -/
  editors : Table DraftAutosaver
  /-- Every action ever queued, in order and as it was queued. -/
  enqueued : List QueuedAction
  /-- Every upload ever persisted, in order and as it was persisted. -/
  filed : List LocalUpload

/-- The store of a device that was never used. -/
def Device.empty : Device := ⟨.empty, .empty, .empty, none, none, none, false, .empty, [], []⟩

/-! ## Failures -/

/-- One rejection of the API: the status and the error of the body. -/
structure ApiError where
  status : ℕ
  code : String
  message : String
  /-- The revision the server holds now, when the rejection was a stale draft revision. -/
  currentRevision : Option ℕ
  deriving DecidableEq, Repr

/-- What the programs of a device throw. -/
inductive OfflineFailure
  /-- The service rejected a request. -/
  | api (error : ApiError)
  /-- A request without an answer; the service may have taken it at the given time. -/
  | lost (taken : Option Time)
  /-- New durable work needs a generation, and none arrived yet. -/
  | generationUnknown
  /-- A send was queued while its files still wait for the server. -/
  | uploadsUnverified (waiting : ℕ)
  /-- A review resolution skipped a required step. -/
  | reviewChoice (message : String)
  /-- The browser's storage failed. -/
  | storage (message : String)
  /-- A random identifier came twice, which does not happen. -/
  | identifierTaken
  /-- The controller of the draft was disposed. -/
  | disposed
  deriving DecidableEq, Repr

/-- Wrap anything thrown in an error the interface can show. -/
def toApiError : OfflineFailure → ApiError
  | .api error => error
  | .lost _ => ⟨0, "network_error", "The mail service cannot be reached.", none⟩
  | _ => ⟨0, "unexpected", "Something went wrong while contacting the mail service.", none⟩

/-- True when the request never reached the service. -/
def ApiError.network (e : ApiError) : Bool := e.status == 0

/-- True when the session is missing, expired, or revoked. -/
def ApiError.unauthorized (e : ApiError) : Bool := e.status == 401

/-! ## Partial updates -/

/-- One partial update of a queued action. -/
structure ActionPatch where
  payload : Option QueuedPayload := none
  state : Option QueuedState := none
  reviewReason : Option (Option ReviewReason) := none
  failure : Option (Option String) := none
  attempts : Option ℕ := none
  recoveryGeneration : Option Uuid := none
  syncedAt : Option (Option Time) := none
  deriving DecidableEq, Repr

/-- The action after a partial update. -/
def ActionPatch.apply (p : ActionPatch) (a : QueuedAction) : QueuedAction :=
  { a with
    payload := p.payload.getD a.payload
    state := p.state.getD a.state
    reviewReason := p.reviewReason.getD a.reviewReason
    failure := p.failure.getD a.failure
    attempts := p.attempts.getD a.attempts
    recoveryGeneration := p.recoveryGeneration.getD a.recoveryGeneration
    syncedAt := p.syncedAt.getD a.syncedAt }

/-- One partial update of an upload record. -/
structure UploadPatch where
  bytes : Option Bytes := none
  serverId : Option Uuid := none
  attachedAt : Option Time := none
  recoveryGeneration : Option Uuid := none
  deriving DecidableEq, Repr

/-- The upload record after a partial update. -/
def UploadPatch.apply (p : UploadPatch) (u : LocalUpload) : LocalUpload :=
  { u with
    bytes := p.bytes.getD u.bytes
    serverId := p.serverId.or u.serverId
    attachedAt := p.attachedAt.or u.attachedAt
    recoveryGeneration := p.recoveryGeneration.getD u.recoveryGeneration }

@[simp] theorem ActionPatch.apply_localId (p : ActionPatch) (a : QueuedAction) :
    (p.apply a).localId = a.localId := rfl

@[simp] theorem UploadPatch.apply_localId (p : UploadPatch) (u : LocalUpload) :
    (p.apply u).localId = u.localId := rfl

/-! ## Statements -/

/-- The statements that write the store. -/
inductive Write
  /-- Freeze one action into the queue. -/
  | enqueue (action : QueuedAction)
  /-- Persist one upload and its queue action in one transaction. -/
  | putPendingUploadWithAction (upload : LocalUpload) (action : QueuedAction)
  | updateAction (localId : Uuid) (patch : ActionPatch)
  | deleteAction (localId : Uuid)
  /-- Drop synced entries of the history. -/
  | pruneActions (localIds : List Uuid)
  | putLocalDraft (draft : LocalDraft)
  | pruneDrafts (draftIds : List Uuid)
  | updateUpload (localId : Uuid) (patch : UploadPatch)
  | deleteUpload (localId : Uuid)
  | pruneUploads (localIds : List Uuid)
  | serverGeneration (generation : Uuid)
  | restore (marker : RestoreMarker)
  | lastSyncedAt (time : Time)
  | signInRequired (required : Bool)
  deriving DecidableEq, Repr

/-- Add one action under its fresh identifier. -/
def Device.addAction (s : Device) (action : QueuedAction) : Except OfflineFailure Device :=
  if action.localId ∈ s.enqueued.map (·.localId) then .error .identifierTaken
  else .ok { s with queue := s.queue.put action, enqueued := s.enqueued ++ [action] }

/-- Add one upload record under its fresh identifier. -/
def Device.addUpload (s : Device) (upload : LocalUpload) : Except OfflineFailure Device :=
  if upload.localId ∈ s.filed.map (·.localId) then .error .identifierTaken
  else .ok { s with uploads := s.uploads.put upload, filed := s.filed ++ [upload] }

/-- What a statement does to the store. -/
def Write.exec : Write → Device → Except OfflineFailure Device
  | enqueue action, s => s.addAction action
  | putPendingUploadWithAction upload action, s => do
      let s ← s.addUpload upload
      s.addAction action
  | updateAction localId patch, s =>
      .ok { s with queue := s.queue.update (·.localId == localId) patch.apply fun _ => rfl }
  | deleteAction localId, s => .ok { s with queue := s.queue.delete (·.localId == localId) }
  | pruneActions localIds, s =>
      .ok { s with queue := s.queue.delete fun a => localIds.contains a.localId }
  | putLocalDraft draft, s => .ok { s with drafts := s.drafts.put draft }
  | pruneDrafts draftIds, s =>
      .ok { s with drafts := s.drafts.delete fun d => draftIds.contains d.draftId }
  | updateUpload localId patch, s =>
      .ok { s with uploads := s.uploads.update (·.localId == localId) patch.apply fun _ => rfl }
  | deleteUpload localId, s => .ok { s with uploads := s.uploads.delete (·.localId == localId) }
  | pruneUploads localIds, s =>
      .ok { s with uploads := s.uploads.delete fun u => localIds.contains u.localId }
  | serverGeneration generation, s => .ok { s with serverGeneration := some generation }
  | restore marker, s => .ok { s with restore := some marker }
  | lastSyncedAt time, s => .ok { s with lastSyncedAt := some time }
  | signInRequired required, s => .ok { s with signInRequired := required }

/-! ## Programs of a device -/

/-- The stretches of an autosave controller that others have to be told of. -/
inductive EditTag
  /-- A draft was opened at a revision. -/
  | opened (instanceId draftId : Uuid) (revision : ℕ)
  /-- A save took its patch and its base. -/
  | beginSave (instanceId : Uuid)
  /-- A save concluded. -/
  | concludeSave (instanceId : Uuid) (outcome : AutosaveOutcome)
  /-- Anything else an editor does in memory. -/
  | other
  deriving DecidableEq, Repr

/-- Names of the transactions of a device. -/
inductive StoreTag
  | write (w : Write)
  /-- A pass meets an action of another generation and stops. -/
  | stop (localId : Uuid)
  /-- A pass reads the generation it speaks for. -/
  | passGeneration
  /-- A pass reads the actions it is about to replay. -/
  | listPending
  /-- A pass reads an action again before it replays it. -/
  | recheck (localId : Uuid)
  /-- A request reads the generation of its header. -/
  | generationHeaders
  /-- The replay of a send reads the files of its draft. -/
  | files (draftId : Uuid)
  /-- A settled save reads the actions to chain to its revision. -/
  | listChained
  | edit (e : EditTag)
  deriving DecidableEq, Repr

/-- The requests of a device. -/
inductive OfflineCall
  | now
  | generateId
  /-- Wait for the pass slot of the controller and take it. -/
  | acquirePass
  | releasePass
  /-- `PATCH /drafts/:id`, asked by an open editor or else by a replay -/
  | patchDraft (editor : Option Uuid) (generation : Option Uuid) (draftId : Uuid)
      (input : UpdateDraftInput)
  /-- `POST /uploads` -/
  | postUpload (generation : Option Uuid) (upload : LocalUpload)
  /-- `GET /drafts/:id/uploads` -/
  | getAttachments (draftId : Uuid)
  /-- `POST /drafts/:id/uploads`, asked by an open editor or else by a replay -/
  | postAttachment (editor : Bool) (generation : Option Uuid) (draftId uploadId : Uuid)
  /-- `POST /drafts/:id/send`, asked by an open editor or else by a replay -/
  | postSend (editor : Bool) (generation : Option Uuid) (draftId : Uuid)
      (idempotencyKey : String) (baseRevision : ℕ)
  /-- `POST /actions` -/
  | postAction (generation : Option Uuid) (body : MailActionSubmission)
  /-- `GET /drafts/:id` -/
  | readDraft (draftId : Uuid)
  /-- Whether the browser reports that it is offline. -/
  | offline
  /-- The generation that the last session probe issued. -/
  | sessionGeneration

/-- The answer to each request. -/
def OfflineCall.Answer : OfflineCall → Type
  | now => Time
  | generateId => Uuid
  | acquirePass | releasePass => Unit
  | patchDraft .. => DraftRecord
  | postUpload .. => Uuid
  | getAttachments _ => List Uuid
  | postAttachment .. => Unit
  | postSend .. => Uuid
  | postAction .. => Unit
  | readDraft _ => DraftRecord
  | offline => Bool
  | sessionGeneration => Option Uuid

/-- The signature of the programs of a device. -/
def offlineSignature : Signature where
  Store := Device
  Failure := OfflineFailure
  Tag := StoreTag
  Call := OfflineCall
  Answer := OfflineCall.Answer

/-- The programs of a device. -/
abbrev OfflineProgram := Program offlineSignature

namespace OfflineStore

/-- Run one statement. -/
def run (tag : StoreTag) (w : Write) : OfflineProgram Unit :=
  .atomic (some tag) (fun s => (w.exec s).map fun s' => ((), s')) .ofExcept

/-- Run one statement under its own name. -/
def write (w : Write) : OfflineProgram Unit := run (.write w) w

/-- Read the store under a name. -/
def look {α : Type} (tag : StoreTag) (f : Device → α) : OfflineProgram α :=
  .atomic (some tag) (fun s => .ok (f s, s)) .ofExcept

/-- Read the store. -/
def read {α : Type} (f : Device → α) : OfflineProgram α := Program.read f

/-- Run one synchronous stretch of an editor. -/
def edit {α : Type} (tag : EditTag)
    (f : Table DraftAutosaver → Except OfflineFailure (α × Table DraftAutosaver)) :
    OfflineProgram α :=
  .atomic (some (.edit tag))
    (fun s => (f s.editors).map fun r => (r.1, { s with editors := r.2 })) .ofExcept

/-- One stored-clock reading. -/
def timestamp : OfflineProgram Time := Program.request (S := offlineSignature) .now

/-- One stored identifier, unique inside this device. -/
def generateId : OfflineProgram Uuid := Program.request (S := offlineSignature) .generateId

/-! ### Local drafts -/

/-- Write the local copy of one draft. -/
def putLocalDraft (draft : LocalDraft) : OfflineProgram Unit := do
  let now ← timestamp
  write (.putLocalDraft { draft with updatedAt := now })

/-- The local copy of one draft, when this device holds one. -/
def getLocalDraft (draftId : Uuid) : OfflineProgram (Option LocalDraft) :=
  read fun s => s.drafts.find? draftId

/-! ### Uploads -/

/-- One upload record, by its local identifier. -/
def getUpload (localId : Uuid) : OfflineProgram (Option LocalUpload) :=
  read fun s => s.uploads.find? localId

/-- The uploads one draft references, in the order of their keys. -/
def uploadsOf (draftId : Uuid) (s : Device) : List LocalUpload :=
  (s.uploads.select fun u => u.draftId == draftId).insertionSort (·.localId ≤ ·.localId)

/-- Every upload still waiting for its server acknowledgement. -/
def pendingUploads : OfflineProgram (List LocalUpload) :=
  read fun s => (s.uploads.select fun u => u.serverId == none).insertionSort
    (·.localId ≤ ·.localId)

/-- Record the server's acknowledgement; the bytes leave the device here. -/
def markUploadAcknowledged (localId serverId : Uuid) : OfflineProgram Unit :=
  write (.updateUpload localId { serverId := some serverId, bytes := some [] })

/-- Record that the server draft now references one acknowledged upload. -/
def markUploadAttached (localId : Uuid) : OfflineProgram Unit := do
  let now ← timestamp
  write (.updateUpload localId { attachedAt := some now })

/-- Drop one upload record and its bytes, with the action that named them. -/
def deleteUpload (localId : Uuid) : OfflineProgram Unit := write (.deleteUpload localId)

/-! ### The action queue -/

/-- One queue entry, built with its own local identifier. -/
def buildAction (payload : QueuedPayload) (recoveryGeneration : Uuid) :
    OfflineProgram QueuedAction := do
  let localId ← generateId
  let queuedAt ← timestamp
  return { localId, payload, state := .pending, reviewReason := none, failure := none,
           attempts := 0, recoveryGeneration, queuedAt, syncedAt := none }

/-- Freeze one action into the queue. -/
def enqueue (payload : QueuedPayload) (recoveryGeneration : Uuid) :
    OfflineProgram QueuedAction := do
  let action ← buildAction payload recoveryGeneration
  write (.enqueue action)
  return action

/-- What the caller of an upload supplies. -/
structure NewUpload where
  draftId : Uuid
  accountId : Uuid
  filename : String
  contentType : String
  sizeBytes : ℕ
  bytes : Bytes
  serverId : Option Uuid
  attachedAt : Option Time
  recoveryGeneration : Uuid

/-- Persist one upload and its queue action in one transaction. -/
def putPendingUploadWithAction (upload : NewUpload) (recoveryGeneration : Uuid) :
    OfflineProgram (QueuedAction × LocalUpload) := do
  let localId ← generateId
  let createdAt ← timestamp
  let record : LocalUpload :=
    { localId, draftId := upload.draftId, accountId := upload.accountId,
      filename := upload.filename, contentType := upload.contentType,
      sizeBytes := upload.sizeBytes, bytes := upload.bytes, serverId := upload.serverId,
      attachedAt := upload.attachedAt, recoveryGeneration := upload.recoveryGeneration, createdAt }
  let action ← buildAction (.upload record.localId) recoveryGeneration
  write (.putPendingUploadWithAction record action)
  return (action, record)

/-- The replay order: oldest first, equal times by kind. Equal kinds come as the index of the
queue yields them, by key. -/
def replaysBefore (a b : QueuedAction) : Bool :=
  if a.queuedAt ≠ b.queuedAt then a.queuedAt < b.queuedAt
  else if replayRank a.payload ≠ replayRank b.payload then
    replayRank a.payload < replayRank b.payload
  else a.localId ≤ b.localId

/-- The actions still waiting to leave this device, in replay order. -/
def pendingOf (s : Device) : List QueuedAction :=
  (s.queue.select fun a => a.state == .pending).insertionSort (replaysBefore · ·)

/-- Every queued action, oldest first. -/
def allOf (s : Device) : List QueuedAction :=
  s.queue.rows.insertionSort fun a b =>
    a.queuedAt < b.queuedAt ∨ a.queuedAt = b.queuedAt ∧ a.localId ≤ b.localId

def pendingActions : OfflineProgram (List QueuedAction) := read pendingOf

def allActions : OfflineProgram (List QueuedAction) := read allOf

/-- Apply one partial update to a queued action. -/
def updateAction (localId : Uuid) (patch : ActionPatch) : OfflineProgram Unit :=
  write (.updateAction localId patch)

/-- Drop one queued action. Local drafts and files stay. -/
def deleteAction (localId : Uuid) : OfflineProgram Unit := write (.deleteAction localId)

/-- How many synced queue entries the store keeps, for the sync history. -/
def syncedActionLimit : ℕ := 100

/-- When an entry of the history counts as synced. -/
def settledTime (a : QueuedAction) : Time := a.syncedAt.getD a.queuedAt

/-- The synced entries, newest first. -/
def syncedOf (s : Device) : List QueuedAction :=
  ((s.queue.select fun a => a.state == .synced).insertionSort (·.localId ≤ ·.localId)).insertionSort
    fun a b => settledTime b ≤ settledTime a

/-- Keep only the newest synced entries in the sync history. -/
def pruneSyncedActions : OfflineProgram Unit := do
  let synced ← read syncedOf
  let stale := (synced.drop syncedActionLimit).map (·.localId)
  if stale ≠ [] then
    write (.pruneActions stale)

/-- How long settled local records stay. -/
def settledRecordRetentionMs : ℕ := 7 * 24 * 60 * 60 * 1000

/-- Drop local records the server owns and nothing waits on. -/
def pruneSettledLocalRecords : OfflineProgram Unit := do
  let now ← timestamp
  let cutoff := now - settledRecordRetentionMs
  let drafts ← read fun s => s.drafts.rows
  let staleDrafts := (drafts.filter fun d => !d.dirty && d.updatedAt < cutoff).map (·.draftId)
  if staleDrafts ≠ [] then
    write (.pruneDrafts staleDrafts)
  let uploads ← read fun s => s.uploads.rows
  let staleUploads := (uploads.filter fun u => u.attachedAt.any (· < cutoff)).map (·.localId)
  if staleUploads ≠ [] then
    write (.pruneUploads staleUploads)

/-- The generation the server last issued, when this device knows one. -/
def serverGeneration : OfflineProgram (Option Uuid) := read (·.serverGeneration)

end OfflineStore

end MailHub.Offline
