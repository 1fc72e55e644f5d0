import MailHub.Compose.Service

/-!
# Records of the offline store

What a browser keeps of its unsynchronized work: local drafts, upload bytes that wait for their
acknowledgement, and the durable queue of pending actions. Every record carries the recovery
generation that the server issued when it was created. Downloaded mail is left out.
-/

namespace MailHub.Offline

open Relational MailHub

/-! ## Local copies -/

/-- The local copy of one draft. -/
structure LocalDraft where
  draftId : Uuid
  accountId : Uuid
  /-- The copy the server last acknowledged, when one exists. -/
  server : Option DraftRecord
  identity : Option String
  recipients : Option Recipients
  subject : Option String
  markdown : Option String
  /-- The revision the local edits are based on. -/
  baseRevision : ℕ
  /-- True while the local edits have no server acknowledgement. -/
  dirty : Bool
  /-- The generation the server issued when this draft last synced. -/
  recoveryGeneration : Uuid
  updatedAt : Time
  deriving DecidableEq, Repr

/-- One upload whose bytes stay on the device until the server acknowledges them. -/
structure LocalUpload where
  localId : Uuid
  draftId : Uuid
  accountId : Uuid
  filename : String
  contentType : String
  sizeBytes : ℕ
  /-- The bytes themselves. Cleared once the server acknowledges the upload. -/
  bytes : Bytes
  /-- The upload id the server issued, once it acknowledges the bytes. -/
  serverId : Option Uuid
  /-- When the draft referenced this upload on the server, once it does. -/
  attachedAt : Option Time
  /-- The generation the upload request was created under. -/
  recoveryGeneration : Uuid
  createdAt : Time
  deriving DecidableEq, Repr

/-! ## Queued actions -/

/-- The occurrence one queued mail action was aimed at, frozen at queue time. -/
structure FrozenTarget where
  accountId : Uuid
  folderId : Uuid
  messageId : Uuid
  occurrenceId : Uuid
  revision : ℕ
  modseq : Option String
  deriving DecidableEq, Repr

/-- The edit fields one draft save carries: an absent field stays, a present `none` is null. -/
structure DraftEditPatch where
  identity : Option (Option String) := none
  recipients : Option (Option Recipients) := none
  subject : Option (Option String) := none
  markdown : Option (Option String) := none
  deriving DecidableEq, Repr

/-- The edit that a patch asks the server for, when nothing is stripped. -/
def DraftEditPatch.toInput (patch : DraftEditPatch) (baseRevision : ℕ) : UpdateDraftInput :=
  ⟨baseRevision, patch.identity, patch.recipients, patch.subject, patch.markdown⟩

inductive MailFlag
  | unread | flagged
  deriving DecidableEq, Repr

/-- One frozen queue payload. -/
inductive QueuedPayload
  | draftSave (draftId : Uuid) (baseRevision : ℕ) (patch : DraftEditPatch)
  | upload (localUploadId : Uuid)
  | send (draftId : Uuid) (idempotencyKey : String) (baseRevision : ℕ)
  | flag (targets : List FrozenTarget) (flag : MailFlag) (value : Bool) (idempotencyKey : String)
  | move (targets : List FrozenTarget) (destinationFolderId : Uuid) (idempotencyKey : String)
  deriving DecidableEq, Repr

/-- Why one queue item waits for a person instead of the network. -/
inductive ReviewReason
  | serverRestored | uncertainSend | draftConflict
  deriving DecidableEq, Repr

/-- The life cycle of one queued action. -/
inductive QueuedState
  | pending | synced | review | failed
  deriving DecidableEq, Repr

/-- One entry in the durable action queue. -/
structure QueuedAction where
  localId : Uuid
  payload : QueuedPayload
  state : QueuedState
  /-- Present while the item waits for a person. -/
  reviewReason : Option ReviewReason
  /-- The last definitive refusal. -/
  failure : Option String
  attempts : ℕ
  /-- The generation the server issued when this action was created. -/
  recoveryGeneration : Uuid
  queuedAt : Time
  syncedAt : Option Time
  deriving DecidableEq, Repr

/-- The restore review marker. -/
structure RestoreMarker where
  /-- The generation the server issues now. -/
  serverGeneration : Uuid
  /-- The generation this device held before the change. -/
  previousGeneration : Uuid
  markedAt : Time
  deriving DecidableEq, Repr

/-- The replay order of equal timestamps: bytes before the work that needs them, and a draft's save
before its send. -/
def replayRank : QueuedPayload → ℕ
  | .upload _ => 0
  | .draftSave .. => 1
  | .flag .. | .move .. => 2
  | .send .. => 3

/-! ## Keys -/

instance : Keyed LocalDraft Uuid := ⟨LocalDraft.draftId⟩
instance : Keyed LocalUpload Uuid := ⟨LocalUpload.localId⟩
instance : Keyed QueuedAction Uuid := ⟨QueuedAction.localId⟩

end MailHub.Offline
