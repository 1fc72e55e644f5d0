import MailHub.Interleaving.Roles
import MailHub.Offline.System

/-!
# The statements of each operation

Which statements an operation of the device may run, read off its program: a pass settles, marks
and chains actions, the owner's decisions rewrite or drop the action that they name, and the editors
queue edits and write local copies. Nothing else touches the store.
-/

namespace MailHub.Offline

open Relational Interleaving MailHub OfflineStore

variable {α : Type} {ok : Write → Prop}

/-! ## What an operation may write -/

/-- The draft that the editor behind an operation saves. -/
def OfflineOp.editing : OfflineOp → Option Uuid
  | timerFired _ draftId _ | flushEditor _ draftId _ | retryEditor _ draftId _
  | submitSend _ draftId _ _ => some draftId
  | _ => none

/-- An action as it enters the queue. -/
structure QueuedAction.Enters (a : QueuedAction) (payload : QueuedPayload) : Prop where
  payload : a.payload = payload
  state : a.state = .pending

/-- The update of an action that the owner rebases. -/
def rebasedPatch (payload : QueuedPayload) (generation : Uuid) : ActionPatch :=
  { payload := some payload, recoveryGeneration := some generation, state := some .pending,
    reviewReason := some none, failure := some none }

/-- The update of an action that failed and goes back to the queue. -/
def retriedPatch : ActionPatch := { state := some .pending, failure := some none }

/-- The statements that an operation may run. -/
inductive OfflineOp.Writes : OfflineOp → Write → Prop
  | generation {g} : Writes (.observeGeneration (some g)) (.serverGeneration g)
  | restore {g previous time} :
      Writes (.observeGeneration (some g)) (.restore ⟨g, previous, time⟩)
  | marked {g x} : Writes (.observeGeneration (some g)) (.updateAction x restoredPatch)
  | stopped {x} : Writes .sync (.updateAction x restoredPatch)
  | attempted {x n} : Writes .sync (.updateAction x { attempts := some n })
  | synced {x time} : Writes .sync (.updateAction x (syncedPatch time))
  | failed {x reason} : Writes .sync
      (.updateAction x { state := some .failed, failure := some (some reason) })
  | parked {x reason} : Writes .sync
      (.updateAction x { state := some .review, reviewReason := some (some reason) })
  | chained {x revision} {payload : QueuedPayload} : Writes .sync
      (.updateAction x { payload := some (payload.rebased revision) })
  | settled {draft} : Writes .sync (.putLocalDraft draft)
  | orphan {a x} (h : QueuedAction.Enters a (.upload x)) : Writes .sync (.enqueue a)
  | uploaded {x patch} : Writes .sync (.updateUpload x patch)
  | signIn {required} : Writes .sync (.signInRequired required)
  | syncedAt {time} : Writes .sync (.lastSyncedAt time)
  | prunedActions {xs} : Writes .sync (.pruneActions xs)
  | prunedDrafts {ds} : Writes .sync (.pruneDrafts ds)
  | prunedUploads {xs} : Writes .sync (.pruneUploads xs)
  | rebased {x compared acknowledged revision payload g} :
      Writes (.resolveReview x (.rebase compared acknowledged revision))
        (.updateAction x (rebasedPatch payload g))
  | restampedUpload {x compared acknowledged revision u patch} :
      Writes (.resolveReview x (.rebase compared acknowledged revision)) (.updateUpload u patch)
  | restampedDraft {x compared acknowledged revision draft} :
      Writes (.resolveReview x (.rebase compared acknowledged revision)) (.putLocalDraft draft)
  | discarded {x} : Writes (.resolveReview x .discard) (.deleteAction x)
  | discardedFile {x u} : Writes (.resolveReview x .discard) (.deleteUpload u)
  | retried {x} : Writes (.retryFailure x) (.updateAction x retriedPatch)
  | dropped {x} : Writes (.discardFailure x) (.deleteAction x)
  | droppedFile {x u} : Writes (.discardFailure x) (.deleteUpload u)
  | queuedSave {d base patch a} (h : QueuedAction.Enters a (.draftSave d base patch)) :
      Writes (.enqueueDraftSave d base patch) (.enqueue a)
  | queuedUpload {upload u a} (h : QueuedAction.Enters a (.upload u.localId)) :
      Writes (.enqueueUpload upload) (.putPendingUploadWithAction u a)
  | queuedSend {d key base a} (h : QueuedAction.Enters a (.send d key base)) :
      Writes (.enqueueSend d key base) (.enqueue a)
  | queuedMail {payload a} (h : QueuedAction.Enters a (MailActionPayload.toPayload payload)) :
      Writes (.enqueueMailAction payload) (.enqueue a)
  | compared {d server draft} : Writes (.noteComparedServerCopy d server) (.putLocalDraft draft)
  | cached {draft draft'} : Writes (.putLocalDraft draft) (.putLocalDraft draft')
  | editedSave {op d base patch a} (hop : OfflineOp.editing op = some d)
      (h : QueuedAction.Enters a (.draftSave d base patch)) : Writes op (.enqueue a)
  | editedSend {op d key base a} (hop : OfflineOp.editing op = some d)
      (h : QueuedAction.Enters a (.send d key base)) : Writes op (.enqueue a)
  | copied {op d draft} (hop : OfflineOp.editing op = some d) : Writes op (.putLocalDraft draft)
  | linked {d attached u patch} :
      Writes (.attachAcknowledgedUploads d attached) (.updateUpload u patch)

/-! ## Single statements -/

/-- The rows of the queue after an update. -/
theorem find?_updateAction {s s' : Device} {x : Uuid} {patch : ActionPatch}
    (h : (Write.updateAction x patch).exec s = .ok s') (y : Uuid) : s'.queue.find? y =
      (s.queue.find? y).map fun a => if a.localId == x then patch.apply a else a := by
  obtain rfl := Except.ok.inj h
  exact Table.find?_update (t := s.queue) (f := patch.apply) patch.apply_localId

/-- The programs whose statements pass a check; any request may be made. -/
def deviceVocabulary (ok : Write → Prop) : Vocabulary offlineSignature where
  commit tag s s' :=
    match tag with
    | some (.write w) => w.exec s = .ok s' ∧ ok w
    | some (.stop localId) =>
        (Write.updateAction localId restoredPatch).exec s = .ok s' ∧
          ok (.updateAction localId restoredPatch)
    | some (.edit _) => ∃ editors, s' = { s with editors }
    | _ => s' = s
  call _ := True

/-- What a statement leaves is what it computes. -/
theorem within_run {tag : StoreTag} {w : Write}
    (h : ∀ s s', w.exec s = .ok s' → (deviceVocabulary ok).commit (some tag) s s') :
    (OfflineStore.run tag w).Within (deviceVocabulary ok) := by
  refine ⟨fun s b s' hf => ?_, fun r => .ofExcept r⟩
  cases hexec : w.exec s with
  | error e => simp [hexec, Except.map] at hf
  | ok s₁ =>
      simp only [hexec, Except.map] at hf
      obtain ⟨-, rfl⟩ := Prod.mk.inj (Except.ok.inj hf)
      exact h s s₁ hexec

theorem within_write {w : Write} (h : ok w) :
    (OfflineStore.write w).Within (deviceVocabulary ok) :=
  within_run fun _ _ hexec => ⟨hexec, h⟩

theorem within_look {tag : StoreTag} {f : Device → α}
    (h : ∀ s, (deviceVocabulary ok).commit (some tag) s s) :
    (look tag f).Within (deviceVocabulary ok) := by
  refine ⟨fun s b s' hf => ?_, fun r => .ofExcept r⟩
  obtain ⟨-, rfl⟩ : f s = b ∧ s = s' := by simpa using hf
  exact h s

theorem within_read {f : Device → α} : (OfflineStore.read f).Within (deviceVocabulary ok) :=
  .read fun _ => rfl

theorem within_edit {tag : EditTag}
    {f : Table DraftAutosaver → Except OfflineFailure (α × Table DraftAutosaver)} :
    (edit tag f).Within (deviceVocabulary ok) := by
  refine ⟨fun s b s' hf => ?_, fun r => .ofExcept r⟩
  cases hedit : f s.editors with
  | error e => simp [hedit, Except.map] at hf
  | ok r =>
      simp only [hedit, Except.map] at hf
      obtain ⟨-, rfl⟩ := Prod.mk.inj (Except.ok.inj hf)
      exact ⟨r.2, rfl⟩

theorem within_request {c : OfflineCall} :
    (Program.request (S := offlineSignature) c).Within (deviceVocabulary ok) := .request trivial

theorem within_timestamp : timestamp.Within (deviceVocabulary ok) := within_request

theorem within_generateId : generateId.Within (deviceVocabulary ok) := within_request

theorem within_updateAction {x : Uuid} {patch : ActionPatch} (h : ok (.updateAction x patch)) :
    (updateAction x patch).Within (deviceVocabulary ok) := within_write h

theorem within_putLocalDraft {draft : LocalDraft} (h : ∀ d, ok (.putLocalDraft d)) :
    (putLocalDraft draft).Within (deviceVocabulary ok) :=
  .bind within_timestamp fun _ => within_write (h _)

/-- What is queued enters with its payload. -/
theorem within_enqueue {payload : QueuedPayload} {g : Uuid}
    (h : ∀ a, QueuedAction.Enters a payload → ok (.enqueue a)) :
    (OfflineStore.enqueue payload g).Within (deviceVocabulary ok) := by
  simp only [OfflineStore.enqueue, buildAction, Program.bind_eq, Program.bind_assoc,
    Program.pure_eq, Program.pure_bind]
  refine .bind within_generateId fun localId => .bind within_timestamp fun queuedAt => ?_
  exact .bind (within_write (h _ ⟨rfl, rfl⟩)) fun _ => .pure _

theorem within_putPendingUploadWithAction {upload : NewUpload} {g : Uuid}
    (h : ∀ u a, QueuedAction.Enters a (.upload u.localId) →
      ok (.putPendingUploadWithAction u a)) :
    (putPendingUploadWithAction upload g).Within (deviceVocabulary ok) := by
  simp only [putPendingUploadWithAction, buildAction, Program.bind_eq, Program.bind_assoc,
    Program.pure_eq, Program.pure_bind]
  refine .bind within_generateId fun uploadId => .bind within_timestamp fun createdAt => ?_
  refine .bind within_generateId fun localId => .bind within_timestamp fun queuedAt => ?_
  exact .bind (within_write (h _ _ ⟨rfl, rfl⟩)) fun _ => .pure _

theorem within_withGeneration {f : Uuid → OfflineProgram α}
    (h : ∀ g, (f g).Within (deviceVocabulary ok)) :
    (withGeneration f).Within (deviceVocabulary ok) := by
  refine .bind within_read fun g => ?_
  cases g with
  | none => exact .throw _
  | some g => exact h g

theorem within_enqueuePayload {payload : QueuedPayload}
    (h : ∀ a, QueuedAction.Enters a payload → ok (.enqueue a)) :
    (enqueuePayload payload).Within (deviceVocabulary ok) :=
  within_withGeneration fun _ => within_enqueue h

theorem within_enqueueSend {draftId : Uuid} {key : String} {base : ℕ}
    (h : ∀ a, QueuedAction.Enters a (.send draftId key base) → ok (.enqueue a)) :
    (enqueueSend draftId key base).Within (deviceVocabulary ok) := by
  refine .bind within_read fun uploads => ?_
  exact .ite (fun _ => .throw _) fun _ => within_enqueuePayload h

/-! ## Replays -/

theorem within_replaying {request : OfflineProgram ReplayOutcome} {uncertain : Bool}
    (h : request.Within (deviceVocabulary ok)) :
    (replaying request uncertain).Within (deviceVocabulary ok) :=
  .tryCatch h fun _ => .pure _

theorem within_generationHeaders : generationHeaders.Within (deviceVocabulary ok) :=
  within_look fun _ => rfl

theorem within_saveDraft {draftId : Uuid} {base : ℕ} {patch : DraftEditPatch} :
    (saveDraft draftId base patch).Within (deviceVocabulary ok) :=
  within_replaying (.bind within_generationHeaders fun _ =>
    .bind within_request fun _ => .pure _)

theorem within_uploadBytes {upload : LocalUpload} :
    (uploadBytes upload).Within (deviceVocabulary ok) :=
  within_replaying (.bind within_generationHeaders fun _ =>
    .bind within_request fun _ => .pure _)

theorem within_markUploadAttached {x : Uuid} (h : ∀ patch, ok (.updateUpload x patch)) :
    (markUploadAttached x).Within (deviceVocabulary ok) :=
  .bind within_timestamp fun _ => within_write (h _)

theorem within_attachUpload {draftId serverId : Uuid} {upload : LocalUpload}
    {known : Option (List Uuid)} (h : ∀ patch, ok (.updateUpload upload.localId patch)) :
    (attachUpload draftId upload serverId known).Within (deviceVocabulary ok) := by
  have hlink : ∀ ids : List Uuid, Program.Within (deviceVocabulary ok) (do
      if !ids.contains serverId then
        let generation ← generationHeaders
        apiPostAttachment false generation draftId serverId
      markUploadAttached upload.localId
      return ids : OfflineProgram (List Uuid)) := by
    intro ids
    have hmark : Program.Within (deviceVocabulary ok) (do
        markUploadAttached upload.localId
        return ids : OfflineProgram (List Uuid)) :=
      .bind (within_markUploadAttached h) fun _ => .pure _
    refine .ite (fun _ => ?_) fun _ => hmark
    exact .bind within_generationHeaders fun _ => .bind within_request fun _ => hmark
  cases known with
  | some ids => exact hlink ids
  | none => exact .bind within_request fun ids => hlink ids

theorem within_attachUploads {draftId : Uuid} {uploads : List LocalUpload}
    {known : Option (List Uuid)} (h : ∀ x patch, ok (.updateUpload x patch)) :
    (attachUploads draftId uploads known).Within (deviceVocabulary ok) := by
  induction uploads generalizing known with
  | nil => exact .pure _
  | cons upload uploads ih =>
      unfold attachUploads
      cases upload.serverId with
      | none => exact .pure _
      | some serverId =>
          refine .ite (fun _ => ih) fun _ => ?_
          refine .bind (.attempt (within_attachUpload (h _))) fun r => ?_
          cases r with
          | ok ids => exact ih
          | error e => exact .pure _

theorem within_queueSend {draftId : Uuid} {key : String} {base : ℕ}
    (h : ∀ x patch, ok (.updateUpload x patch)) :
    (queueSend draftId key base).Within (deviceVocabulary ok) := by
  refine .bind (within_look fun _ => rfl) fun uploads =>
    .bind (within_attachUploads h) fun r => ?_
  cases r with
  | some outcome => exact .pure _
  | none =>
      exact within_replaying (.bind within_generationHeaders fun _ =>
        .bind within_request fun _ => .pure _)

theorem within_runMailAction {kind : ActionKind} {targets : List FrozenTarget}
    {destination : Option Uuid} {key : String} :
    (runMailAction kind targets destination key).Within (deviceVocabulary ok) :=
  .ite (fun _ => .pure _) fun _ => within_replaying (.bind within_generationHeaders fun _ =>
    .bind within_request fun _ => .pure _)

theorem within_replayUpload {x : Uuid} :
    (replayUpload x uploadBytes).Within (deviceVocabulary ok) := by
  refine .bind within_read fun upload => ?_
  cases upload with
  | none => exact .pure _
  | some upload =>
      simp only
      cases upload.serverId with
      | some serverId => exact .pure _
      | none => exact within_uploadBytes

/-- A replay only marks files. -/
theorem within_handlerFor {payload : QueuedPayload} {handler : OfflineProgram ReplayOutcome}
    (h : ∀ x patch, ok (.updateUpload x patch))
    (hhandler : handlerFor webOfflinePort payload = some handler) :
    handler.Within (deviceVocabulary ok) := by
  cases payload with
  | draftSave draftId base patch =>
      obtain rfl := Option.some.inj hhandler
      exact within_saveDraft
  | upload x =>
      obtain rfl := Option.some.inj hhandler
      exact within_replayUpload
  | send draftId key base =>
      obtain rfl := Option.some.inj hhandler
      exact within_queueSend h
  | flag targets flag value key =>
      obtain rfl := Option.some.inj hhandler
      exact within_runMailAction
  | move targets destination key =>
      obtain rfl := Option.some.inj hhandler
      exact within_runMailAction

/-! ## Passes -/

theorem within_chainForward {draftId : Uuid} {revision : ℕ} {pending : List QueuedAction}
    (h : ∀ x (payload : QueuedPayload),
      ok (.updateAction x { payload := some (payload.rebased revision) })) :
    (chainForward draftId revision pending).Within (deviceVocabulary ok) := by
  induction pending with
  | nil => exact .pure _
  | cons entry pending ih =>
      refine .ite (fun _ => ?_) fun _ => ih
      exact .bind (within_updateAction (h _ _)) fun _ => ih

theorem within_settleSynced {action : QueuedAction} {revision : Option ℕ}
    {serverUploadId : Option Uuid} :
    (settleSynced action revision serverUploadId).Within
      (deviceVocabulary (OfflineOp.Writes .sync)) := by
  refine .bind within_timestamp fun time => .bind (within_updateAction .synced) fun _ => ?_
  split
  · refine .bind (within_look fun _ => rfl) fun pending =>
      .bind (within_chainForward fun _ _ => .chained) fun _ => .bind within_read fun existing => ?_
    cases existing with
    | none => exact .pure _
    | some existing =>
        exact .ite (fun _ => within_putLocalDraft fun _ => .settled) fun _ => .pure _
  · refine .bind within_read fun pending => .bind within_read fun existing => ?_
    cases existing with
    | none => exact .pure _
    | some existing =>
        exact .ite (fun _ => within_putLocalDraft fun _ => .settled) fun _ => .pure _
  · exact within_write .uploaded
  · exact .pure _

theorem within_settleOutcome {queued : QueuedAction} {outcome : ReplayOutcome}
    {report : SyncReport} :
    (settleOutcome queued outcome report).Within (deviceVocabulary (OfflineOp.Writes .sync)) := by
  cases outcome with
  | synced revision serverUploadId => exact .bind within_settleSynced fun _ => .pure _
  | failed reason => exact .bind (within_updateAction .failed) fun _ => .pure _
  | review reason => exact .bind (within_updateAction .parked) fun _ => .pure _
  | retry reason signInRequired =>
      exact .ite (fun _ => .bind (within_write .signIn) fun _ => .pure _) fun _ => .pure _

theorem within_replayActions {g : Uuid} {actions : List QueuedAction} {report : SyncReport} :
    (replayActions webOfflinePort g actions report).Within
      (deviceVocabulary (OfflineOp.Writes .sync)) := by
  induction actions generalizing report with
  | nil => exact .pure _
  | cons action actions ih =>
      refine .ite (fun _ => ?_) fun _ => ?_
      · exact .bind (within_run fun _ _ hexec => ⟨hexec, .stopped⟩) fun _ => .pure _
      · refine .bind (within_look fun _ => rfl) fun found => ?_
        cases found with
        | none => exact ih
        | some queued =>
            refine .ite (fun _ => ih) fun _ => ?_
            split
            · exact ih
            next run hrun =>
              refine .bind (within_updateAction .attempted) fun _ =>
                .bind (within_handlerFor (fun _ _ => .uploaded) hrun) fun outcome =>
                  .bind within_settleOutcome fun r => ?_
              exact .ite (fun _ => ih) fun _ => .pure _

theorem within_reconcileOrphanedUploads
    (h : ∀ a x, QueuedAction.Enters a (.upload x) → ok (.enqueue a)) :
    reconcileOrphanedUploads.Within (deviceVocabulary ok) := by
  refine .bind within_read fun actions => .bind within_read fun uploads => ?_
  refine .bind (.forIn fun upload _ _ => ?_) fun _ => .pure _
  refine .ite (fun _ => ?_) fun _ => .pure _
  exact .bind (within_enqueue fun a ha => h a _ ha) fun _ => .pure _

theorem within_pruneSyncedActions (h : ∀ xs, ok (.pruneActions xs)) :
    pruneSyncedActions.Within (deviceVocabulary ok) :=
  .bind within_read fun _ => .ite (fun _ => within_write (h _)) fun _ => .pure _

theorem within_pruneSettledLocalRecords (hdrafts : ∀ ds, ok (.pruneDrafts ds))
    (huploads : ∀ xs, ok (.pruneUploads xs)) :
    pruneSettledLocalRecords.Within (deviceVocabulary ok) := by
  have hfiles : ∀ cutoff : Time, Program.Within (deviceVocabulary ok) (do
      let uploads ← read fun s => s.uploads.rows
      let staleUploads := (uploads.filter fun u => u.attachedAt.any (· < cutoff)).map (·.localId)
      if staleUploads ≠ [] then
        write (.pruneUploads staleUploads) : OfflineProgram Unit) := fun _ =>
    .bind within_read fun _ =>
      .ite (fun _ => within_write (huploads _)) fun _ => .pure _
  refine .bind within_timestamp fun now => .bind within_read fun drafts => ?_
  exact .ite (fun _ => .bind (within_write (hdrafts _)) fun _ => hfiles _) fun _ => hfiles _

theorem within_sync : (sync webOfflinePort).Within (deviceVocabulary (OfflineOp.Writes .sync)) := by
  have hend : ∀ report : SyncReport,
      Program.Within (deviceVocabulary (OfflineOp.Writes .sync)) (do
        pruneSyncedActions
        pruneSettledLocalRecords
        return report : OfflineProgram SyncReport) := by
    intro report
    exact .bind (within_pruneSyncedActions fun _ => .prunedActions) fun _ =>
      .bind (within_pruneSettledLocalRecords (fun _ => .prunedDrafts) fun _ => .prunedUploads)
        fun _ => .pure _
  refine .bind within_request fun _ => .cleanup ?_ within_request
  refine .bind (within_look fun _ => rfl) fun g => ?_
  cases g with
  | none => exact .pure _
  | some g =>
      refine .bind (within_write .signIn) fun _ =>
        .bind (within_reconcileOrphanedUploads fun _ _ h => .orphan h) fun _ =>
          .bind (within_look fun _ => rfl) fun actions =>
            .bind within_replayActions fun report => ?_
      refine .ite (fun _ => ?_) fun _ => hend report
      exact .bind within_timestamp fun _ => .bind (within_write .syncedAt) fun _ => hend report

/-! ## Decisions of the owner -/

theorem within_observeGeneration {current : Option Uuid} :
    (observeGeneration current).Within
      (deviceVocabulary (OfflineOp.Writes (.observeGeneration current))) := by
  cases current with
  | none => exact .pure _
  | some g =>
      refine .bind within_read fun previous => .bind (within_write .generation) fun _ => ?_
      cases previous with
      | none => exact .pure _
      | some previous =>
          refine .ite (fun _ => .pure _) fun _ => ?_
          refine .bind within_timestamp fun time => .bind (within_write .restore) fun _ =>
            .bind within_read fun actions => .bind (.forIn fun action _ _ => ?_) fun _ => .pure _
          exact .ite (fun _ => .bind (within_updateAction .marked) fun _ => .pure _)
            fun _ => .pure _

theorem within_findAction {x : Uuid} : (findAction x).Within (deviceVocabulary ok) :=
  .bind within_read fun _ => .pure _

theorem within_deleteDiscardedUpload {payload : QueuedPayload}
    (h : ∀ u, ok (.deleteUpload u)) :
    (deleteDiscardedUpload payload).Within (deviceVocabulary ok) := by
  cases payload with
  | upload u => exact within_write (h u)
  | _ => exact .pure _

theorem within_rebasedPayload {payload : QueuedPayload} {compared acknowledged : Bool}
    {revision : Option ℕ} :
    (rebasedPayload payload compared acknowledged revision).Within (deviceVocabulary ok) := by
  cases payload with
  | send draftId key base =>
      refine .ite (fun _ => .throw _) fun _ => ?_
      refine .bind within_generateId fun key => .bind within_read fun existing => ?_
      cases existing <;> exact .pure _
  | draftSave draftId base patch =>
      cases compared with
      | false => exact .throw _
      | true => cases revision <;> first | exact .pure _ | exact .throw _
  | _ => exact .pure _

theorem within_restampLocalWork {payload : QueuedPayload} {g : Uuid}
    (hdraft : ∀ draft, ok (.putLocalDraft draft)) (hupload : ∀ u patch, ok (.updateUpload u patch)) :
    (restampLocalWork payload g).Within (deviceVocabulary ok) := by
  cases payload with
  | upload u =>
      refine .bind within_read fun existing => ?_
      cases existing with
      | none => exact .pure _
      | some existing => exact within_write (hupload _ _)
  | draftSave draftId base patch =>
      refine .bind within_read fun existing => ?_
      cases existing with
      | none => exact .pure _
      | some existing => exact within_putLocalDraft hdraft
  | _ => exact .pure _

/-- What follows the check of an action in review. -/
theorem within_resolution {x : Uuid} {action : QueuedAction} {choice : ReviewChoice} :
    (match choice with
      | .discard => do
          deleteDiscardedUpload action.payload
          deleteAction x
      | .rebase compared acknowledged revision => do
          match ← serverGeneration with
          | none => throw OfflineFailure.generationUnknown
          | some generation =>
              let payload ← rebasedPayload action.payload compared acknowledged revision
              updateAction x (rebasedPatch payload generation)
              restampLocalWork payload generation : OfflineProgram Unit).Within
      (deviceVocabulary (OfflineOp.Writes (.resolveReview x choice))) := by
  cases choice with
  | discard =>
      exact .bind (within_deleteDiscardedUpload fun _ => .discardedFile) fun _ =>
        within_write .discarded
  | rebase compared acknowledged revision =>
      refine .bind within_read fun g => ?_
      cases g with
      | none => exact .throw _
      | some g =>
          refine .bind within_rebasedPayload fun payload => ?_
          exact .bind (within_updateAction .rebased) fun _ =>
            within_restampLocalWork (fun _ => .restampedDraft) fun _ _ => .restampedUpload

theorem within_resolveReview {x : Uuid} {choice : ReviewChoice} :
    (resolveReview x choice).Within
      (deviceVocabulary (OfflineOp.Writes (.resolveReview x choice))) := by
  refine .bind within_findAction fun found => ?_
  cases found with
  | none => exact .throw _
  | some action => exact .ite (fun _ => .throw _) fun _ => within_resolution

theorem within_discardFailure {x : Uuid} :
    (discardFailure x).Within (deviceVocabulary (OfflineOp.Writes (.discardFailure x))) := by
  have hdelete : (deleteAction x).Within
      (deviceVocabulary (OfflineOp.Writes (.discardFailure x))) := within_write .dropped
  refine .bind within_findAction fun found => ?_
  cases found with
  | none => exact hdelete
  | some action =>
      exact .bind (within_deleteDiscardedUpload fun _ => .droppedFile) fun _ => hdelete

theorem within_noteComparedServerCopy {draftId : Uuid} {server : DraftRecord} :
    (noteComparedServerCopy draftId server).Within
      (deviceVocabulary (OfflineOp.Writes (.noteComparedServerCopy draftId server))) := by
  refine .bind within_read fun existing => ?_
  cases existing with
  | none => exact .pure _
  | some existing => exact within_putLocalDraft fun _ => .compared

/-! ## Editors -/

theorem within_writeLocalDraft {draft : DraftRecord} {dirty : Bool}
    (h : ∀ draft, ok (.putLocalDraft draft)) :
    (writeLocalDraft draft dirty).Within (deviceVocabulary ok) := by
  have hput : ∀ copy : LocalDraft, Program.Within (deviceVocabulary ok) (do
      let _ ← (putLocalDraft copy).attempt : OfflineProgram Unit) := fun _ =>
    .bind (.attempt (within_putLocalDraft h)) fun _ => .pure _
  refine .bind (.attempt within_read) fun existing => ?_
  simp only
  split
  · exact hput _
  · exact .bind (.attempt within_read) fun _ => hput _

theorem within_writeLocalDraftFor {draftId : Uuid} {patch : DraftEditPatch} {base : ℕ}
    (h : ∀ draft, ok (.putLocalDraft draft)) :
    (writeLocalDraftFor draftId patch base).Within (deviceVocabulary ok) := by
  refine .bind (.attempt within_read) fun existing => ?_
  split
  · exact .pure _
  · refine .ite (fun _ => .pure _) fun _ => ?_
    exact .bind (.attempt (within_putLocalDraft h)) fun _ => .pure _

theorem within_queueDraftSave {draftId : Uuid} {base : ℕ} {patch : DraftEditPatch}
    (hqueue : ∀ a, QueuedAction.Enters a (.draftSave draftId base patch) → ok (.enqueue a))
    (hput : ∀ draft, ok (.putLocalDraft draft)) :
    (queueDraftSave draftId base patch).Within (deviceVocabulary ok) := by
  refine .bind (.attempt (within_enqueuePayload hqueue)) fun r => ?_
  split
  · exact .pure _
  · exact .pure _
  · exact .bind (within_writeLocalDraftFor hput) fun _ => .pure _

section Editing

variable {op : OfflineOp} {instanceId draftId : Uuid}

theorem within_draftSaveRunner (hop : op.editing = some draftId) {base : ℕ}
    {patch : DraftEditPatch} : (draftSaveRunner instanceId draftId base patch).Within
      (deviceVocabulary op.Writes) := by
  have hqueue : (queueDraftSave draftId base patch).Within (deviceVocabulary op.Writes) :=
    within_queueDraftSave (fun a h => .editedSave hop h) fun _ => .copied hop
  refine .bind within_request fun generation => .bind within_request fun offline => ?_
  split
  · refine .bind (.attempt within_request) fun r => ?_
    split
    · exact .bind (within_writeLocalDraft fun _ => .copied hop) fun _ => .pure _
    · split
      · exact .pure _
      · exact hqueue
  · exact hqueue

theorem within_stretch {tag : EditTag} {live : Bool} {f : DraftAutosaver → α × DraftAutosaver} :
    (stretch tag instanceId live f).Within (deviceVocabulary ok) := within_edit

/-- However often a save goes round. -/
theorem within_runSave (hop : op.editing = some draftId) {rounds : ℕ} :
    (runSave instanceId draftId rounds).Within (deviceVocabulary op.Writes) := by
  induction rounds with
  | zero => trivial
  | succ rounds ih =>
      have hflush : Program.Within (deviceVocabulary op.Writes) (do
          if ← stretch .other instanceId false DraftAutosaver.takeFlush then
            runSave instanceId draftId rounds : OfflineProgram Unit) :=
        .bind within_stretch fun _ => .ite (fun _ => ih) fun _ => .pure _
      refine .bind within_stretch fun save => ?_
      cases save with
      | none => exact .pure _
      | some save =>
          refine .bind (within_draftSaveRunner hop) fun outcome =>
            .bind within_stretch fun continuation => ?_
          refine .ite (fun _ => .pure _) fun _ => ?_
          exact .ite (fun _ => .bind ih fun _ => hflush) fun _ => hflush

theorem within_flushEditor (hop : op.editing = some draftId) {rounds : ℕ} :
    (flushEditor instanceId draftId rounds).Within (deviceVocabulary op.Writes) := by
  refine .bind within_stretch fun starts => .ite (fun _ => ?_) fun _ => .pure _
  exact .cleanup (within_runSave hop) within_stretch

theorem within_submitSend (hop : op.editing = some draftId) {key : String} {rounds : ℕ} :
    (submitSend instanceId draftId key rounds).Within (deviceVocabulary op.Writes) := by
  have hrequest : ∀ base, (requestDraftSend draftId base key).Within
      (deviceVocabulary op.Writes) := by
    intro base
    refine .bind within_request fun offline => .bind within_request fun generation => ?_
    split
    · exact .bind (.attempt (within_enqueueSend fun a h => .editedSend hop h)) fun _ => .pure _
    · exact .pure _
    · exact .bind (.attempt within_request) fun _ => .pure _
  refine .bind within_stretch fun unsaved => ?_
  refine .ite (fun _ => .bind (within_flushEditor hop) fun _ => ?_) fun _ => ?_
  -- the send follows the flush, or comes at once
  all_goals
    refine .bind within_stretch fun base => ?_
    cases base with
    | none => exact .pure _
    | some base => exact hrequest base

end Editing

theorem within_attachEach {draftId : Uuid} {attached : List Uuid} {uploads : List LocalUpload}
    (h : ∀ x patch, ok (.updateUpload x patch)) :
    (attachEach draftId attached uploads).Within (deviceVocabulary ok) := by
  induction uploads with
  | nil => exact .pure _
  | cons upload uploads ih =>
      unfold attachEach
      cases upload.serverId with
      | none => exact ih
      | some serverId =>
          have hmark : (markUploadAttached upload.localId).Within (deviceVocabulary ok) :=
            within_markUploadAttached (h _)
          refine .ite (fun _ => .bind hmark fun _ => ih) fun _ => ?_
          refine .bind (.attempt ?_) fun _ => ih
          exact .bind within_request fun _ => .bind within_request fun _ => hmark

/-! ## Operations -/

/-- Every operation runs only the statements that are its own. -/
theorem OfflineOp.within (op : OfflineOp) :
    (OfflineOp.run op).Within (deviceVocabulary op.Writes) := by
  cases op with
  | observeGeneration current => exact within_observeGeneration
  | sync => exact .bind within_sync fun _ => .pure _
  | resolveReview x choice => exact within_resolveReview
  | retryFailure x => exact within_updateAction .retried
  | discardFailure x => exact within_discardFailure
  | enqueueDraftSave d base patch =>
      exact .bind (within_enqueuePayload fun a h => .queuedSave h) fun _ => .pure _
  | enqueueUpload upload =>
      refine .bind (within_withGeneration fun g => ?_) fun _ => .pure _
      exact within_putPendingUploadWithAction fun u a h => .queuedUpload h
  | enqueueSend d key base =>
      exact .bind (within_enqueueSend fun a h => .queuedSend h) fun _ => .pure _
  | enqueueMailAction payload =>
      exact .bind (within_enqueuePayload fun a h => .queuedMail h) fun _ => .pure _
  | noteComparedServerCopy d server => exact within_noteComparedServerCopy
  | putLocalDraft draft => exact within_putLocalDraft fun _ => .cached
  | openEditor d =>
      exact .bind within_request fun _ => .bind within_generateId fun _ => within_edit
  | pushEdit instanceId patch => exact within_stretch
  | timerFired instanceId d rounds =>
      exact .bind within_stretch fun _ =>
        .ite (fun _ => within_flushEditor rfl) fun _ => .pure _
  | flushEditor instanceId d rounds => exact within_flushEditor rfl
  | retryEditor instanceId d rounds =>
      exact .bind within_stretch fun _ =>
        .ite (fun _ => within_flushEditor rfl) fun _ => .pure _
  | disposeEditor instanceId => exact within_stretch
  | submitSend instanceId d key rounds => exact within_submitSend rfl
  | attachAcknowledgedUploads d attached =>
      refine .bind (.attempt ?_) fun _ => .pure _
      exact .bind within_read fun uploads => within_attachEach fun _ _ => .linked

end MailHub.Offline
