import MailHub.Relational.Table

/-!
# Data model

The tables of the mail hub with the columns that the modelled services read or decide with. Index
text, display settings and audit payloads are left out: none of the modelled functions reads them.
An identifier is a number; the code checks the textual form of every identifier it is handed before
it does anything else.
-/

namespace MailHub

open Relational

/-! ## Values -/

/-- An identifier that passed the UUID check. -/
abbrev Uuid := ℕ

/-- A point in time, in milliseconds. -/
abbrev Time := ℕ

/-- A point in time as the database keeps it, in microseconds. -/
abbrev Instant := ℕ

/-- A byte sequence. -/
abbrev Bytes := List UInt8

/-- One address as it appears in a header: an email address and an optional display name. -/
structure EmailAddress where
  address : String
  name : Option String
  deriving DecidableEq, Repr

/-- An address pair an account may send from. -/
structure AccountIdentity extends EmailAddress where
  isDefault : Bool
  deriving DecidableEq, Repr

/-- Recipient lists of a message or draft; an absent list is the empty one. -/
structure Recipients where
  «to» : List EmailAddress
  cc : List EmailAddress := []
  bcc : List EmailAddress := []
  deriving DecidableEq, Repr

/-- One recipient-level SMTP result. -/
structure RecipientResult where
  address : String
  accepted : Bool
  response : Option String
  deriving DecidableEq, Repr

/-- A protocol result as an outbound row stores it. -/
structure SmtpResponse where
  response : Option String
  responseCode : Option ℕ
  deriving DecidableEq, Repr

/-- A reason as an outbound row stores it. -/
structure StoredError where
  code : String
  message : String
  deriving DecidableEq, Repr

inductive RecoveryMode
  | ready | reconciling
  deriving DecidableEq, Repr

inductive FolderRole
  | inbox | sent | drafts | archive | trash | junk
  deriving DecidableEq, Repr

inductive ThreadLinkState
  | root | pending | linked | ambiguous
  deriving DecidableEq, Repr

inductive OutboundStatus
  | queued | sending | sent | failed | outcomeUnknown
  deriving DecidableEq, Repr

inductive SentCopyStatus
  | pending | appending | stored | failed | unknown
  deriving DecidableEq, Repr

inductive ActionItemStatus
  | queued | executing | confirmed | conflicted | failed | unknown
  deriving DecidableEq, Repr

inductive HomeWorkKind
  | replyLater | reminder
  deriving DecidableEq, Repr

inductive HomeWorkStatus
  | «open» | done
  deriving DecidableEq, Repr

/-- One message class, as `class_hint` stores it. -/
inductive MessageClass
  | correspondence | receipt | newsletter | notification | marketing | securityAlert | bounce
  | other
  deriving DecidableEq, Repr

/-- A value inside the metadata of a message. -/
inductive MetadataValue
  | text (value : String)
  /-- Any other JSON value, by its text. -/
  | json (value : String)
  deriving DecidableEq, Repr

/-- The metadata of a message, as a list of entries. -/
abbrev Metadata := List (String × MetadataValue)

/-- The text of a metadata entry; JSON `null` has none. -/
def Metadata.text (metadata : Metadata) (key : String) : Option String :=
  match metadata.lookup key with
  | some (.text value) => some value
  | some (.json value) => if value = "null" then none else some value
  | none => none

/-! ## Mailboxes -/

/-- Singleton control row compared against the deployment generation. -/
structure ServiceStateRow where
  recoveryGeneration : Uuid
  recoveryMode : RecoveryMode
  deriving DecidableEq, Repr

/-- One mailbox connection. -/
structure Account where
  id : Uuid
  identities : List AccountIdentity
  classifyEnabled : Bool
  deriving DecidableEq, Repr

/-- One IMAP folder with its sync checkpoints. -/
structure Folder where
  id : Uuid
  accountId : Uuid
  /-- IMAP path. -/
  name : String
  role : Option FolderRole
  uidvalidity : Option ℕ
  arrivalScannedUid : ℕ
  backfillUpperUid : Option ℕ
  backfillBeforeUid : Option ℕ
  backfillComplete : Bool
  deriving DecidableEq, Repr

/-- A conversation within one account. -/
structure Thread where
  id : Uuid
  accountId : Uuid
  participants : List EmailAddress
  deriving DecidableEq, Repr

/-- A logical message: content owned once per account. -/
structure Message where
  id : Uuid
  accountId : Uuid
  messageId : Option String
  inReplyTo : Option String
  referenceIds : List String
  threadId : Option Uuid
  parentMessageId : Option Uuid
  threadLinkState : ThreadLinkState
  /-- Durable thread-reconciliation job marker. -/
  threadDirty : Bool
  sender : Option EmailAddress
  /-- `none` means the header is absent; an empty list means it was invalid or empty. -/
  replyTo : Option (List EmailAddress)
  recipients : Option Recipients
  subject : Option String
  sentAt : Option Time
  /-- When the row appeared locally, in ingestion order. -/
  ingestedAt : Instant
  hasAttachments : Bool
  sizeBytes : Option ℕ
  fetchedBody : Bool
  /-- When the body fetch last failed for a deterministic reason. -/
  bodyFailedAt : Option Time := none
  /-- Denormalized latest answer. -/
  classHint : Option MessageClass := none
  asksAction : Option Bool := none
  asksReply : Option Bool := none
  timeSensitive : Option Bool := none
  metadata : Metadata := []
  /-- Durable locator for the complete original MIME bytes. -/
  originalStorageKey : Option String
  originalSha256 : Option String
  deriving DecidableEq, Repr

/-- A message row as an insertion without any content leaves it. -/
def Message.bare (id accountId : Uuid) (ingestedAt : Instant) : Message where
  id
  accountId
  messageId := none
  inReplyTo := none
  referenceIds := []
  threadId := none
  parentMessageId := none
  threadLinkState := .pending
  threadDirty := true
  sender := none
  replyTo := none
  recipients := none
  subject := none
  sentAt := none
  ingestedAt
  hasAttachments := false
  sizeBytes := none
  fetchedBody := false
  originalStorageKey := none
  originalSha256 := none

/-- A message copy in one folder generation. -/
structure MessageOccurrence where
  id : Uuid
  accountId : Uuid
  messageId : Uuid
  folderId : Uuid
  uidvalidity : ℕ
  uid : ℕ
  internalDate : Time
  unread : Bool
  flagged : Bool
  /-- Optional server modification sequence from CONDSTORE. -/
  modseq : Option ℕ
  /-- Local observed-state revision, bumped on each committed observation. -/
  revision : ℕ
  expungedAt : Option Time
  invalidatedAt : Option Time
  deriving DecidableEq, Repr

/-- Whether an occurrence is still on the server as far as the database knows. -/
def MessageOccurrence.isActive (o : MessageOccurrence) : Bool :=
  o.expungedAt.isNone && o.invalidatedAt.isNone

/-- Sanitized derived body content. -/
structure Body where
  messageId : Uuid
  textPlain : Option String
  htmlSanitized : Option String
  sanitizerVersion : String
  deriving DecidableEq, Repr

/-- A verified attachment locator into the stored original MIME tree. -/
structure Attachment where
  messageId : Uuid
  /-- Position in the original MIME tree, for example `/2/1`. -/
  partPath : String
  locatorVersion : ℕ
  decodedSha256 : String
  contentId : Option String
  disposition : Option String
  filename : Option String
  contentType : Option String
  sizeBytes : ℕ
  deriving DecidableEq, Repr

/-! ## Drafts and sends -/

/-- An editable draft. -/
structure Draft where
  id : Uuid
  accountId : Uuid
  identity : EmailAddress
  threadId : Option Uuid
  replyParentId : Option Uuid
  inReplyTo : Option String
  referenceIds : List String
  recipients : Recipients
  subject : Option String
  markdown : String
  revision : ℕ
  lockedBySend : Option Uuid
  updatedAt : Time
  deletedAt : Option Time
  deriving DecidableEq, Repr

/-- A durable, immutable uploaded file. -/
structure Upload where
  id : Uuid
  accountId : Uuid
  filename : String
  contentType : String
  sizeBytes : ℕ
  storageKey : String
  sha256 : String
  createdAt : Time
  deriving DecidableEq, Repr

/-- Position of an upload inside one draft. -/
structure DraftUpload where
  draftId : Uuid
  uploadId : Uuid
  ordinal : ℕ
  deriving DecidableEq, Repr

/-- The immutable part of one send attempt: what the request froze. -/
structure OutboundSnapshot where
  id : Uuid
  accountId : Uuid
  recoveryGeneration : Uuid
  idempotencyKey : String
  requestHash : String
  draftId : Option Uuid
  draftRevision : ℕ
  /-- Frozen From address and name. -/
  identity : EmailAddress
  envelopeSender : String
  envelopeRecipients : List String
  threadId : Option Uuid
  replyParentId : Option Uuid
  inReplyTo : Option String
  referenceIds : List String
  recipients : Recipients
  subject : Option String
  markdownSource : String
  html : Option String
  /-- Generated once, before SMTP. -/
  rfcMessageId : String
  /-- Durable locator for the exact submitted MIME bytes. -/
  mimeStorageKey : String
  mimeSha256 : String
  createdAt : Time
  deriving DecidableEq, Repr

/-- The immutable snapshot and execution record of one send attempt. -/
structure OutboundMessage extends OutboundSnapshot where
  status : OutboundStatus
  /-- Populated on confirmed acceptance. -/
  logicalMessageId : Option Uuid := none
  smtpResponse : Option SmtpResponse := none
  recipientResults : List RecipientResult := []
  sendingStartedAt : Option Time := none
  /-- Stamped when the Sent append claim persists `appending`. -/
  appendStartedAt : Option Time := none
  /-- Append attempts that ended without a stored copy; bounds retries. -/
  sentCopyAttempts : ℕ := 0
  /-- Reconcile passes that found no evidence; bounds repeated passes. -/
  reconcileAttempts : ℕ := 0
  sentCopyStatus : SentCopyStatus := .pending
  sentFolderId : Option Uuid := none
  sentUidvalidity : Option ℕ := none
  sentUid : Option ℕ := none
  lastError : Option StoredError := none
  sentAt : Option Time := none
  deriving DecidableEq, Repr

/-- Position of an upload inside one queued outbound snapshot. -/
structure OutboundUpload where
  outboundId : Uuid
  uploadId : Uuid
  ordinal : ℕ
  deriving DecidableEq, Repr

/-! ## Mail actions -/

inductive ActionKind
  | markRead | markUnread | star | unstar | archive | move
  deriving DecidableEq, Repr

inductive ActionStatus
  | queued | executing | complete
  deriving DecidableEq, Repr

/-- The immutable request scope stored on the action row. -/
structure ActionScope where
  kind : ActionKind
  accountId : Uuid
  occurrenceIds : List Uuid
  destinationFolderId : Option Uuid
  deriving DecidableEq, Repr

/-- One queued mail mutation. -/
structure Action where
  id : Uuid
  accountId : Uuid
  recoveryGeneration : Uuid
  idempotencyKey : String
  requestHash : String
  kind : ActionKind
  /-- Immutable scope and desired state. -/
  request : ActionScope
  status : ActionStatus
  createdAt : Time
  deriving DecidableEq, Repr

/-- The flags of one occurrence. -/
structure TargetObservation where
  unread : Bool
  flagged : Bool
  deriving DecidableEq, Repr

/-- The frozen target of one action item. -/
structure ActionItemTarget where
  occurrenceId : Uuid
  accountId : Uuid
  folderId : Uuid
  uidvalidity : ℕ
  uid : ℕ
  revision : ℕ
  observed : TargetObservation
  /-- Server modification sequence captured at queue time, when the server reports one. -/
  modseq : Option ℕ
  deriving DecidableEq, Repr

/-- Where a moved message landed, as far as the server reported it. -/
structure MoveDestination where
  folder : String
  uidvalidity : Option ℕ
  uid : Option ℕ
  deriving DecidableEq, Repr

/-- A value inside the outcome of an action item. -/
inductive OutcomeValue
  | flag (value : Bool)
  | number (value : Option ℕ)
  | text (value : String)
  /-- Observed flags, with the modification sequence when the session reports one. -/
  | observed (flags : TargetObservation) (modseq : Option ℕ)
  | destination (value : MoveDestination)
  deriving DecidableEq, Repr

/-- Per-target receipt inside one action. -/
structure ActionItem where
  actionId : Uuid
  /-- The identifier of the target occurrence. -/
  itemKey : Uuid
  target : ActionItemTarget
  status : ActionItemStatus
  outcome : Option (List (String × OutcomeValue))
  deriving DecidableEq, Repr

/-! ## Classification and Home -/

/-- One stored answer of the classification model. -/
structure Decision where
  id : Uuid
  messageId : Uuid
  /-- Confidence of the action answer, when one arrived. -/
  actionConfidence : Option Rat
  createdAt : Instant
  deriving DecidableEq, Repr

/-- A sender-specific class override. -/
structure SenderOverride where
  accountId : Uuid
  sender : String
  classHint : Option MessageClass
  note : Option String
  deriving DecidableEq, Repr

/-- The target of one explicit priority choice. -/
inductive HomePriorityTarget
  /-- A lowercased sender address. -/
  | sender (address : String)
  | thread (threadId : Uuid)
  deriving DecidableEq, Repr

/-- One explicit priority choice. -/
structure HomePriority where
  id : Uuid
  accountId : Uuid
  target : HomePriorityTarget
  deriving DecidableEq, Repr

/-- One saved work record: a reply-later commitment or a dated reminder. -/
structure HomeWork where
  id : Uuid
  accountId : Uuid
  anchorMessageId : Uuid
  /-- The thread of the anchor when saved. -/
  threadId : Option Uuid
  kind : HomeWorkKind
  status : HomeWorkStatus
  /-- The due instant; required for reminders, absent for reply later. -/
  dueAt : Option Time
  /-- The zone that interpreted the chosen local time. -/
  timeZone : Option String
  revision : ℕ
  createdAt : Instant
  updatedAt : Instant
  completedAt : Option Instant
  deriving DecidableEq, Repr

/-- One dismissed suggestion. -/
structure HomeDismissal where
  id : Uuid
  accountId : Uuid
  messageId : Uuid
  deriving DecidableEq, Repr

/-- The Home visit boundary of one device. -/
structure HomeVisit where
  deviceId : String
  boundary : Instant
  deriving DecidableEq, Repr

/-! ## Audit trail -/

/-- Who an audit event names as its cause. -/
inductive Actor
  | user | system | api
  deriving DecidableEq, Repr

/-- One entry of the append-only audit trail. -/
structure AuditEvent where
  actor : Actor
  type : String
  entityType : String
  entityId : Uuid
  deriving DecidableEq, Repr

/-! ## Keys -/

instance : Keyed Account Uuid := ⟨Account.id⟩
instance : Keyed Folder Uuid := ⟨Folder.id⟩
instance : Keyed Thread Uuid := ⟨Thread.id⟩
instance : Keyed Message Uuid := ⟨Message.id⟩
instance : Keyed MessageOccurrence (Uuid × ℕ × ℕ) := ⟨fun o => (o.folderId, o.uidvalidity, o.uid)⟩
instance : Keyed Body Uuid := ⟨Body.messageId⟩
instance : Keyed Attachment (Uuid × String) := ⟨fun a => (a.messageId, a.partPath)⟩
instance : Keyed Draft Uuid := ⟨Draft.id⟩
instance : Keyed Upload Uuid := ⟨Upload.id⟩
instance : Keyed DraftUpload (Uuid × Uuid) := ⟨fun l => (l.draftId, l.uploadId)⟩
instance : Keyed OutboundMessage Uuid := ⟨fun o => o.id⟩
instance : Keyed OutboundUpload (Uuid × Uuid) := ⟨fun l => (l.outboundId, l.uploadId)⟩
instance : Keyed Action Uuid := ⟨Action.id⟩
instance : Keyed ActionItem (Uuid × Uuid) := ⟨fun i => (i.actionId, i.itemKey)⟩
instance : Keyed Decision Uuid := ⟨Decision.id⟩
instance : Keyed SenderOverride (Uuid × String) := ⟨fun o => (o.accountId, o.sender)⟩
instance : Keyed HomePriority Uuid := ⟨HomePriority.id⟩
instance : Keyed HomeWork Uuid := ⟨HomeWork.id⟩
instance : Keyed HomeDismissal Uuid := ⟨HomeDismissal.id⟩
instance : Keyed HomeVisit String := ⟨HomeVisit.deviceId⟩

/-- The database of one deployment. -/
structure Database where
  serviceState : Option ServiceStateRow
  accounts : Table Account
  folders : Table Folder
  threads : Table Thread
  messages : Table Message
  messageOccurrences : Table MessageOccurrence
  bodies : Table Body
  attachments : Table Attachment
  drafts : Table Draft
  uploads : Table Upload
  draftUploads : Table DraftUpload
  outboundMessages : Table OutboundMessage
  outboundUploads : Table OutboundUpload
  actions : Table Action
  actionItems : Table ActionItem
  decisions : Table Decision
  senderOverrides : Table SenderOverride
  homePriorities : Table HomePriority
  homeWork : Table HomeWork
  homeDismissals : Table HomeDismissal
  homeVisits : Table HomeVisit
  events : List AuditEvent

/-- The database right after migration. -/
def Database.empty : Database where
  serviceState := none
  accounts := .empty
  folders := .empty
  threads := .empty
  messages := .empty
  messageOccurrences := .empty
  bodies := .empty
  attachments := .empty
  drafts := .empty
  uploads := .empty
  draftUploads := .empty
  outboundMessages := .empty
  outboundUploads := .empty
  actions := .empty
  actionItems := .empty
  decisions := .empty
  senderOverrides := .empty
  homePriorities := .empty
  homeWork := .empty
  homeDismissals := .empty
  homeVisits := .empty
  events := []

end MailHub
