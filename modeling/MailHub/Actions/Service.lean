import MailHub.Compose.Service

/-!
# Mail actions

One module owns every mail mutation. An action commits its immutable record and its per-target
items before any remote execution. Target state is refreshed before every write, each item shows
`executing` before its executor call, and observed state, receipt and events commit together. An
interrupted item of a kind that cannot replay is held as unknown.
-/

namespace MailHub

open Relational Interleaving

/-! ## Receipts -/

/-- One per-target receipt of an action. -/
structure ActionItemReceipt where
  itemKey : Uuid
  status : ActionItemStatus
  outcome : Option (List (String × OutcomeValue))
  deriving DecidableEq, Repr

/-- The durable answer of one action: its state and every target receipt. -/
structure ActionReceipt where
  actionId : Uuid
  kind : ActionKind
  status : ActionStatus
  idempotencyKey : String
  items : List ActionItemReceipt
  deriving DecidableEq, Repr

/-- The statuses of an item without a disposition. -/
def ActionItemStatus.isPending : ActionItemStatus → Bool
  | queued | executing => true
  | confirmed | conflicted | failed | unknown => false

/-- The statuses of an action that still has work. -/
def ActionStatus.isPending : ActionStatus → Bool
  | queued | executing => true
  | complete => false

/-- The items of one action, in UID order. -/
def itemsOf (actionId : Uuid) (db : Database) : List ActionItem :=
  (db.actionItems.select fun i => i.actionId == actionId).insertionSort fun a b =>
    a.target.uid < b.target.uid ∨ a.target.uid = b.target.uid ∧ a.itemKey ≤ b.itemKey

/-- The receipts of one action. -/
def receiptOf (action : Action) : MailProgram ActionReceipt := do
  let items ← MailProgram.query (itemsOf action.id)
  return ⟨action.id, action.kind, action.status, action.idempotencyKey,
    items.map fun item => ⟨item.itemKey, item.status, item.outcome⟩⟩

/-- One action by its identifier. -/
def loadAction (actionId : Uuid) : MailProgram Action := do
  match ← MailProgram.query fun db => db.actions.find? actionId with
  | some row => return row
  | none => throw (Failure.action .notFound "No action exists with that identifier.")

/-- The durable receipts of one action, by idempotent lookup or after execution. -/
def receipt (actionId : Uuid) : MailProgram ActionReceipt := do
  let action ← loadAction actionId
  receiptOf action

/-! ## Submitting -/

/-- What `submit` returns: the receipts, and whether this call created them. -/
structure SubmitResult where
  created : Bool
  receipt : ActionReceipt
  deriving DecidableEq, Repr

/-- The action of one idempotency key. -/
def findActionByKey (idempotencyKey : String) (db : Database) : Option Action :=
  db.actions.rows.find? fun row => row.idempotencyKey == idempotencyKey

/-- The receipts of an existing action, when the request is the one it was created for. -/
def existingReceipt (existing : Action) (requestHash : String) : MailProgram ActionReceipt := do
  if existing.requestHash ≠ requestHash then
    throw (Failure.action .idempotencyConflict
      "An action with this idempotency key exists with a different request.")
  receiptOf existing

/-- One folder of an account. -/
def findFolder (accountId folderId : Uuid) (db : Database) : Option Folder :=
  (db.folders.find? folderId).filter fun f => f.accountId == accountId

/-- Validate the scope against current rows and freeze every target. -/
def freezeTargets (scope : ActionScope) : MailProgram (List ActionItemTarget) := do
  let account ← MailProgram.query fun db => db.accounts.find? scope.accountId
  if account.isNone then
    throw (Failure.action .notFound "No account exists with that identifier.")
  let occurrences ← MailProgram.query fun db => db.messageOccurrences.select fun row =>
    row.accountId == scope.accountId && scope.occurrenceIds.contains row.id
  if occurrences.length ≠ scope.occurrenceIds.length ∨
      occurrences.any fun row => row.expungedAt.isSome || row.invalidatedAt.isSome then
    throw (Failure.action .invalidRequest
      "Every target must be an active occurrence of this account.")
  if requiresDestination scope.kind then
    let destination ← MailProgram.query fun db =>
      scope.destinationFolderId.bind fun id => findFolder scope.accountId id db
    match destination with
    | none => throw (Failure.action .notFound
        "No destination folder of this account exists with that identifier.")
    | some folder =>
        if occurrences.any fun row => row.folderId == folder.id then
          throw (Failure.action .invalidRequest
            "The destination folder must differ from every source folder.")
  return occurrences.map frozenTarget

/-- Insert the items of one action. -/
def insertItems (actionId : Uuid) : List ActionItemTarget → Tx Unit
  | [] => return
  | target :: targets => do
      let db ← get
      let actionItems ← Tx.inserted "action_items_pkey" db.actionItems
        ⟨actionId, target.occurrenceId, target, .queued, none⟩
      set { db with actionItems }
      insertItems actionId targets

/-- The transaction that commits one action with its items. -/
def commitSubmission (action : Action) (targets : List ActionItemTarget) : Tx Unit := do
  let db ← get
  if (findActionByKey action.idempotencyKey db).isSome then
    throw (.uniqueViolation "actions_idempotency_key_unique")
  let actions ← Tx.inserted "actions_pkey" db.actions action
  set { db with actions }
  insertItems action.id targets
  Tx.recordEvent .user "action.queued" "action" action.id

/-- Queue one mail mutation. -/
def submitAction (d : Deployment) (requestGeneration : Option Uuid)
    (submission : MailActionSubmission) : MailProgram SubmitResult := do
  let generation ← d.gate requestGeneration
  MailProgram.lift (validateSubmission submission)
  let scope := canonicalScope submission
  let requestHash := d.libs.sha256Hex (utf8 (scopeText scope))
  match ← MailProgram.query (findActionByKey submission.idempotencyKey) with
  | some existing =>
      let stored ← existingReceipt existing requestHash
      return ⟨false, stored⟩
  | none =>
      let targets ← freezeTargets scope
      let id ← MailProgram.generateId
      let now ← MailProgram.now
      let action : Action := ⟨id, scope.accountId, generation, submission.idempotencyKey,
        requestHash, scope.kind, scope, .queued, now⟩
      let inserted ← (MailProgram.transact (commitSubmission action targets)).attempt
      match inserted with
      | .ok () =>
          let stored ← receipt id
          return ⟨true, stored⟩
      | .error cause =>
          -- A concurrent submit with the same key inserted first.
          if cause.isUniqueViolation then
            match ← MailProgram.query (findActionByKey submission.idempotencyKey) with
            | some raced =>
                let stored ← existingReceipt raced requestHash
                return ⟨false, stored⟩
            | none => throw cause
          else throw cause

/-! ## Dispositions -/

/-- The disposition that one commit gives an item. -/
structure ItemWrite where
  status : ActionItemStatus
  outcome : List (String × OutcomeValue)
  observed : Option ActionMailboxFlags := none
  applied : Bool := false
  expunge : Bool := false
  /-- Replace the interrupted hold a concurrent run recorded. -/
  supersedesHold : Bool := false

/-- The reason that an outcome states. -/
def outcomeReason (item : ActionItem) : Option OutcomeValue :=
  (item.outcome.getD []).lookup "reason"

/-- The hold that a concurrent run recorded for an item it found executing. -/
def isInterruptedHold (item : ActionItem) : Bool :=
  item.status == .unknown && outcomeReason item == some (.text "interrupted")

/-- Only a pending item accepts a disposition, and the interrupted hold the receipt of its claim. -/
def ItemWrite.eligible (write : ItemWrite) (item : ActionItem) : Bool :=
  item.status.isPending || (write.supersedesHold && isInterruptedHold item)

/-- The occurrence with one identifier. -/
def findOccurrence (occurrenceId : Uuid) (db : Database) : Option MessageOccurrence :=
  db.messageOccurrences.rows.find? fun row => row.id == occurrenceId

/-- Whether an observation changes the flags of an occurrence. -/
def flagsChanged (current : MessageOccurrence) (observed : Option ActionMailboxFlags) : Bool :=
  observed.any fun o => current.unread != o.unread || current.flagged != o.flagged

/-- The occurrence after an observation. -/
def observeOccurrence (write : ItemWrite) (changed : Bool) (now : Time) (row : MessageOccurrence) :
    MessageOccurrence :=
  { row with
    unread := (write.observed.map (·.unread)).getD row.unread
    flagged := (write.observed.map (·.flagged)).getD row.flagged
    modseq := (write.observed.bind (·.modseq)).or row.modseq
    revision := if changed then row.revision + 1 else row.revision
    expungedAt := if write.expunge then some now else row.expungedAt }

/-- Commit what the mailbox answered; the revision only moves when the flags changed. -/
def recordObservation (occurrenceId : Uuid) (write : ItemWrite) (now : Time) : Tx Unit := do
  let db ← get
  match findOccurrence occurrenceId db with
  | none => return
  | some current =>
      let changed := flagsChanged current write.observed
      if changed || (write.observed.bind (·.modseq)).isSome || write.expunge then
        set { db with
          messageOccurrences := db.messageOccurrences.update
            (fun row => row.id == occurrenceId && row.expungedAt.isNone)
            (observeOccurrence write changed now) fun _ => rfl }

/-- Complete an action whose items all hold dispositions, or mark it executing. -/
def finalizeActionStatus (actionId : Uuid) : Tx Unit := do
  let db ← get
  if (db.actionItems.select fun i => i.actionId == actionId && i.status.isPending) ≠ [] then
    set { db with
      actions := db.actions.update (fun a => a.id == actionId && a.status == ActionStatus.queued)
        (fun a => { a with status := .executing }) fun _ => rfl }
  else
    let isOpen := fun a : Action => a.id == actionId && a.status.isPending
    if (db.actions.select isOpen) ≠ [] then
      set { db with
        actions := db.actions.update isOpen (fun a => { a with status := .complete })
          fun _ => rfl }
      Tx.recordEvent .user "action.completed" "action" actionId

/-- The transaction that gives one item its disposition. -/
def disposeItem (actionId : Uuid) (item : ActionItem) (write : ItemWrite) (now : Time) :
    Tx Unit := do
  let db ← get
  let accepts := fun i : ActionItem =>
    i.actionId == actionId && i.itemKey == item.itemKey && write.eligible i
  if (db.actionItems.select accepts) ≠ [] then
    set { db with
      actionItems := db.actionItems.update accepts
        (fun i => { i with status := write.status, outcome := some write.outcome }) fun _ => rfl }
    if write.observed.isSome || write.expunge then
      recordObservation item.target.occurrenceId write now
    if write.applied then
      Tx.recordEvent .user "action.applied" "occurrence" item.target.occurrenceId
    finalizeActionStatus actionId

/-- Give one item its disposition. -/
def commitDisposition (actionId : Uuid) (item : ActionItem) (write : ItemWrite) :
    MailProgram Unit := do
  let now ← MailProgram.now
  MailProgram.transact (disposeItem actionId item write now)

/-- The disposition of an item whose precondition no longer holds. -/
def conflict (reason : String) (extra : List (String × OutcomeValue) := []) : ItemWrite :=
  { status := .conflicted, outcome := ("reason", .text reason) :: extra }

/-- Give every item a conflict. -/
def conflictItems (actionId : Uuid) (items : List ActionItem) (reason : String)
    (extra : List (String × OutcomeValue) := []) : MailProgram Unit := do
  for item in items do
    commitDisposition actionId item (conflict reason (extra ++
      [("folderId", .number (some item.target.folderId)), ("uid", .number (some item.target.uid))]))

/-- Give every pending item of an action a conflict. -/
def conflictAll (actionId : Uuid) (reason : String) : MailProgram Unit := do
  let items ← MailProgram.query (itemsOf actionId)
  conflictItems actionId (items.filter (·.status.isPending)) reason

/-! ## Executing one item -/

/-- Why a run stopped early. -/
inductive ExecutionStop
  | blocked | stale
  deriving DecidableEq, Repr

/-- The recovery recheck of one action. -/
def assessmentOf (d : Deployment) (action : Action) : MailProgram (Option ExecutionStop) := do
  let status ← MailProgram.query (readStatus d.generation)
  return match assessJob status action.recoveryGeneration with
    | .execute => none
    | .blocked => some .blocked
    | .stale => some .stale

/-- The transaction of the item claim. -/
def claimItem (actionId itemKey : Uuid) : Tx Bool := do
  let db ← get
  let isQueued := fun i : ActionItem =>
    i.actionId == actionId && i.itemKey == itemKey && i.status == ActionItemStatus.queued
  set { db with
    actionItems := db.actionItems.update isQueued (fun i => { i with status := .executing })
      fun _ => rfl }
  return (db.actionItems.select isQueued) ≠ []

/-- Move one item from `queued` to `executing` before its remote call. -/
def markExecuting (actionId itemKey : Uuid) : MailProgram Bool :=
  Program.transaction (S := mailSignature) (some (.claimItem actionId itemKey))
    (claimItem actionId itemKey)

/-- A folder that a run has selected, with what the refresh observed. -/
structure SelectedGroup where
  action : Action
  folder : PreparedFolder
  remoteFlags : List ActionMailboxFlags
  /-- The resolved destination of a move. -/
  destination : Option (Uuid × String)

/-- The flags of one UID; a later answer replaces an earlier one. -/
def SelectedGroup.remote (g : SelectedGroup) (uid : ℕ) : Option ActionMailboxFlags :=
  g.remoteFlags.reverse.find? fun flags => flags.uid == uid

/-- The disposition that the refreshed state already decides, if any. -/
def preflight (g : SelectedGroup) (item : ActionItem) (remote : ActionMailboxFlags)
    (found : Option MessageOccurrence) : Option ItemWrite :=
  match found with
  | none => some (conflict "occurrence_missing")
  | some occurrence =>
      if occurrence.expungedAt.isSome then some (conflict "expunged")
      else if occurrence.invalidatedAt.isSome then some (conflict "invalidated")
      else if occurrence.uidvalidity ≠ item.target.uidvalidity ∨
          occurrence.uidvalidity ≠ g.folder.uidvalidity then
        -- A UID from the old space can name any message in the new one.
        some (conflict "generation_changed"
          [("currentUidvalidity", .number (some occurrence.uidvalidity)),
            ("folderUidvalidity", .number (some g.folder.uidvalidity))])
      else if (flagDesireOf g.action.kind).any fun desire => remote.get desire.flag == desire.value
      then some
        { status := .confirmed
          outcome := [("noop", .flag true),
            ("observed", .observed remote.toTargetObservation remote.modseq)]
          observed := some remote
          applied := true }
      else if occurrence.revision ≠ item.target.revision then
        some (conflict "stale_revision" [("currentRevision", .number (some occurrence.revision))])
      else if occurrence.modseq ≠ item.target.modseq then
        some (conflict "modseq_changed" [("currentModseq", .number occurrence.modseq)])
      else none

/-- The desired state of one item. -/
def desiredState (action : Action) (destination : Option (Uuid × String)) : DesiredActionState :=
  match flagDesireOf action.kind with
  | some desire => .flags desire
  | none => .move ((destination.map (·.1)).or action.request.destinationFolderId)
      ((destination.map (·.2)).getD "")

/-- The item as the executor gets it. -/
def preparedItem (g : SelectedGroup) (item : ActionItem) (remote : ActionMailboxFlags) :
    PreparedActionItem where
  actionId := g.action.id
  itemKey := item.itemKey
  kind := g.action.kind
  accountId := g.action.accountId
  folder := g.folder
  target := item.target
  remote := remote
  desired := desiredState g.action g.destination

/-- Run the executor and map anything it throws to a failed receipt. -/
def applyPrepared (mailbox : ℕ) (prepared : PreparedActionItem) : MailProgram ExecutorOutcome := do
  match ← (MailProgram.applyAction mailbox prepared).attempt with
  | .ok outcome => return outcome
  | .error cause =>
      let text := cause.message
      return .failed "executor_error"
        (if text = "" then "The executor failed without a message." else text)

/-- Observed flags as an outcome records them. -/
def observedValue (flags : ActionMailboxFlags) : String × OutcomeValue :=
  ("observed", .observed flags.toTargetObservation flags.modseq)

/-- The receipt of one executor outcome; it belongs to the claim that ran the remote write. -/
def outcomeWrite : ExecutorOutcome → ItemWrite
  | .confirmed observed movedTo =>
      { status := .confirmed
        outcome := observedValue observed ::
          (movedTo.map fun moved => ("movedTo", .destination moved)).toList
        observed := some observed
        applied := true
        -- The destination copy of a confirmed move arrives through synchronization.
        expunge := movedTo.isSome
        supersedesHold := true }
  | .conflicted reason observed =>
      { status := .conflicted
        outcome := [("reason", .text reason), observedValue observed]
        observed := some observed
        supersedesHold := true }
  -- A lost answer leaves the local observation alone: the write may or may not have applied.
  | .unknown reason observed =>
      { status := .unknown
        outcome := ("reason", .text reason) :: (observed.map observedValue).toList
        supersedesHold := true }
  | .failed code message =>
      { status := .failed
        outcome := [("code", .text code), ("message", .text message)]
        supersedesHold := true }

/-- Claim one item that passed the refresh, apply it, and commit its receipt. -/
def applyItem (d : Deployment) (mailbox : ℕ) (g : SelectedGroup) (item : ActionItem)
    (remote : ActionMailboxFlags) : MailProgram (Option ExecutionStop) := do
  let claimed ← markExecuting g.action.id item.itemKey
  if claimed = false ∧ item.status ≠ .executing then
    return none
  match ← assessmentOf d g.action with
  | some stop => return some stop
  | none =>
      let outcome ← applyPrepared mailbox (preparedItem g item remote)
      commitDisposition g.action.id item (outcomeWrite outcome)
      return none

/-- Refresh one item of a selected folder and work it to its disposition. -/
def executeItem (d : Deployment) (mailbox : ℕ) (g : SelectedGroup) (item : ActionItem) :
    MailProgram (Option ExecutionStop) := do
  match g.remote item.target.uid with
  | none =>
      commitDisposition g.action.id item (conflict "absent_remote")
      return none
  | some remote =>
      let occurrence ← MailProgram.query (findOccurrence item.target.occurrenceId)
      match preflight g item remote occurrence with
      | some write =>
          commitDisposition g.action.id item write
          return none
      | none => applyItem d mailbox g item remote

/-! ## Executing an action -/

/-- Work the items of a selected folder; the moment its generation moves, the rest conflicts. -/
def executeItems (d : Deployment) (mailbox : ℕ) (g : SelectedGroup) :
    List ActionItem → MailProgram (Option ExecutionStop)
  | [] => return none
  | item :: items => do
      let recheck ← MailProgram.revalidate mailbox
      if recheck.uidValidity ≠ g.folder.uidvalidity then
        conflictItems g.action.id (item :: items) "generation_changed"
          [("observed", .number (some recheck.uidValidity))]
        return none
      match ← executeItem d mailbox g item with
      | some stop => return some stop
      | none => executeItems d mailbox g items

/-- Run one folder group: select, validate the generation, refresh the flags, then disposition
each item. -/
def executeFolderGroup (d : Deployment) (mailbox : ℕ) (action : Action)
    (destination : Option (Uuid × String)) (folderId : Uuid) (items : List ActionItem) :
    MailProgram (Option ExecutionStop) := do
  match ← MailProgram.query (findFolder action.accountId folderId) with
  | none =>
      conflictItems action.id items "folder_removed"
      return none
  | some folder =>
      match folder.uidvalidity with
      | none =>
          conflictItems action.id items "folder_uninitialized"
          return none
      | some uidvalidity =>
          let selected ← MailProgram.select mailbox folder.name
          if selected.uidValidity ≠ uidvalidity then
            conflictItems action.id items "generation_changed"
              [("observed", .number (some selected.uidValidity))]
            return none
          let remoteFlags ← MailProgram.fetchFlags mailbox (items.map (·.target.uid))
          executeItems d mailbox
            ⟨action, ⟨folder.id, folder.name, uidvalidity⟩, remoteFlags, destination⟩ items

/-- Work the folder groups one after the other. -/
def executeGroups (d : Deployment) (mailbox : ℕ) (action : Action)
    (destination : Option (Uuid × String)) (pending : List ActionItem) :
    List Uuid → MailProgram (Option ExecutionStop)
  | [] => return none
  | folderId :: folderIds => do
      let group := pending.filter fun item => item.target.folderId == folderId
      match ← executeFolderGroup d mailbox action destination folderId group with
      | some stop => return some stop
      | none => executeGroups d mailbox action destination pending folderIds

/-- Read the items again and work the pending ones. -/
def workItems (d : Deployment) (mailbox : ℕ) (action : Action)
    (destination : Option (Uuid × String)) : MailProgram (Option ExecutionStop) := do
  let items ← Program.transaction (S := mailSignature) (some (.reloadItems action.id))
    (Tx.read (itemsOf action.id))
  let pending := items.filter (·.status.isPending)
  executeGroups d mailbox action destination pending
    (pending.map (·.target.folderId)).eraseDups

/-- Hold the interrupted items of a kind that never replays, until reconciliation proves the
outcome. -/
def holdInterrupted (action : Action) : MailProgram Unit := do
  let items ← MailProgram.query (itemsOf action.id)
  for item in items do
    if item.status = .executing ∧ isReplayableKind action.kind = false then
      commitDisposition action.id item
        { status := .unknown, outcome := [("reason", .text "interrupted")] }

/-- Work the items of an action, with the destination of a move resolved first. -/
def runItems (d : Deployment) (mailbox : ℕ) (action : Action) :
    MailProgram (Option ExecutionStop) := do
  if requiresDestination action.kind then
    let destination ← MailProgram.query fun db =>
      action.request.destinationFolderId.bind fun id => findFolder action.accountId id db
    match destination with
    | none =>
        conflictAll action.id "destination_removed"
        return none
    | some row => workItems d mailbox action (some (row.id, row.name))
  else workItems d mailbox action none

/-- What one execution reports. -/
inductive ActionExecutionResult
  | executed (receipt : ActionReceipt)
  | held (receipt : ActionReceipt)
  | generationMismatch (currentGeneration : Option Uuid) (receipt : ActionReceipt)
  deriving DecidableEq, Repr

/-- The report of a run that the recovery recheck stopped. -/
def blockedResult (d : Deployment) (actionId : Uuid) (stop : ExecutionStop) :
    MailProgram ActionExecutionResult := do
  let stored ← receipt actionId
  match stop with
  | .blocked => return .held stored
  | .stale =>
      let status ← MailProgram.query (readStatus d.generation)
      return .generationMismatch
        (match status with
          | .ready generation => some generation
          | _ => none) stored

/-- Drive one action through its items. -/
def executeAction (d : Deployment) (actionId : Uuid) (mailbox : ℕ) :
    MailProgram ActionExecutionResult := do
  let action ← loadAction actionId
  if action.status = .complete then
    let stored ← receiptOf action
    return .executed stored
  match ← assessmentOf d action with
  | some stop => blockedResult d action.id stop
  | none =>
      holdInterrupted action
      match ← runItems d mailbox action with
      | some stop => blockedResult d action.id stop
      | none =>
          MailProgram.transact (finalizeActionStatus action.id)
          let stored ← receipt action.id
          return .executed stored

/-! ## Restart and restore -/

/-- What one restart reconciliation pass over an account did. -/
structure RestartReconciliationSummary where
  scanned : ℕ
  executed : ℕ
  held : ℕ
  generationMismatch : ℕ
  deriving DecidableEq, Repr

/-- The oldest pending actions of one account. -/
def pendingActions (accountId : Uuid) (limit : ℕ) (db : Database) : List Uuid :=
  (((db.actions.select fun a => a.accountId == accountId && a.status.isPending).insertionSort
    fun a b => a.createdAt ≤ b.createdAt).take limit).map (·.id)

/-- Count one execution. -/
def RestartReconciliationSummary.count (summary : RestartReconciliationSummary) :
    ActionExecutionResult → RestartReconciliationSummary
  | .executed _ => { summary with executed := summary.executed + 1 }
  | .held _ => { summary with held := summary.held + 1 }
  | .generationMismatch .. => { summary with generationMismatch := summary.generationMismatch + 1 }

/-- Restart reconciliation for one account: pending actions are driven in creation order. -/
def reconcileIncomplete (d : Deployment) (accountId : Uuid) (mailbox limit : ℕ) :
    MailProgram RestartReconciliationSummary := do
  if limit = 0 then
    throw (Failure.action .invalidRequest
      "The reconciliation limit must be a positive integer.")
  let rows ← MailProgram.query (pendingActions accountId limit)
  let mut summary : RestartReconciliationSummary := ⟨rows.length, 0, 0, 0⟩
  for id in rows do
    let result ← executeAction d id mailbox
    summary := summary.count result
  return summary

/-- What dispositioning restored actions did. -/
structure RestoredDispositionSummary where
  actions : ℕ
  /-- Items that never started; a restored scope cannot run. -/
  conflicted : ℕ
  /-- Items whose remote outcome the backup lost. -/
  unknown : ℕ
  deriving DecidableEq, Repr

/-- Hold the items of an action that have one status; the number of them. -/
def holdItems (actionId : Uuid) (fromStatus toStatus : ActionItemStatus) : Tx ℕ := do
  let db ← get
  let selected := fun i : ActionItem => i.actionId == actionId && i.status == fromStatus
  set { db with
    actionItems := db.actionItems.update selected (fun i => { i with
      status := toStatus, outcome := some [("reason", .text "restored_generation")] })
      fun _ => rfl }
  return (db.actionItems.select selected).length

/-- The transaction that holds one restored action; the numbers of its items that it held, unless
another process completed it first. -/
def holdRestored (actionId : Uuid) : Tx (Option (ℕ × ℕ)) := do
  let queued ← holdItems actionId .queued .conflicted
  let executing ← holdItems actionId .executing .unknown
  let db ← get
  let isOpen := fun a : Action => a.id == actionId && a.status.isPending
  set { db with
    actions := db.actions.update isOpen (fun a => { a with status := .complete }) fun _ => rfl }
  if (db.actions.select isOpen) = [] then
    return none
  Tx.recordEvent .user "action.restored_held" "action" actionId
  return some (queued, executing)

/-- Disposition the actions that a restore left behind. -/
def dispositionRestoredActions (currentGeneration : Uuid) :
    MailProgram RestoredDispositionSummary := do
  let restored ← MailProgram.query fun db => (db.actions.select fun a =>
    a.recoveryGeneration != currentGeneration && a.status.isPending).map (·.id)
  let mut summary : RestoredDispositionSummary := ⟨0, 0, 0⟩
  for id in restored do
    let held ← MailProgram.transact (holdRestored id)
    match held with
    | some (conflicted, unknown) =>
        summary := ⟨summary.actions + 1, summary.conflicted + conflicted,
          summary.unknown + unknown⟩
    | none => pure ()
  return summary

end MailHub
