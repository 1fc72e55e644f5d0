import MailHub.Compose.Edits
import MailHub.Interleaving.Safety
import MailHub.Offline.Editor

/-!
# The offline queue as a system

Replay passes, session probes, the owner's decisions and the editors run against one store, and the
service answers them. The journal keeps the drafts as the service holds them, how far the running
pass has come, and what became of each action.
-/

namespace MailHub.Offline

open Relational Interleaving MailHub

/-! ## The journal -/

/-- The action that a pass is replaying. -/
structure Attempt where
  /-- The action as the pass read it again. -/
  queued : QueuedAction
  /-- The generation that the device held then. -/
  known : Option Uuid
  /-- The generation that the last request header was built from, once one was. -/
  header : Option (Option Uuid)
  /-- Whether the service had acknowledged every file of the draft when the replay read them. -/
  filesReady : Bool
  /-- Whether the service accepted the replayed request. -/
  accepted : Bool
  /-- The revision that the accepted save produced. -/
  revision : Option ℕ
  /-- The pending actions that the settled save has not chained forward, once it listed them. -/
  chain : Option (List QueuedAction)

/-- A pass under way. -/
structure Pass where
  worker : ℕ
  /-- The generation it speaks for. -/
  generation : Option Uuid
  /-- The listed actions that it has not come to. -/
  todo : List QueuedAction
  /-- What it came to last. -/
  attempt : Option Attempt
  /-- The actions that it tried and left pending. -/
  leftPending : List QueuedAction

/-- Whether an action of the store waits to leave the device. -/
def isPending (localId : Uuid) (s : Device) : Bool :=
  (s.queue.find? localId).any fun a => a.state == .pending

/-- The replay of an action that was just read again. -/
def Attempt.fresh (s : Device) (queued : QueuedAction) : Attempt :=
  ⟨queued, s.serverGeneration, none, false, false, none, none⟩

/-- The pass after it read an action again, which it replays when it still waits to leave; the
action before it may have been left pending. -/
def Pass.recheck (localId : Uuid) (s : Device) (p : Pass) : Pass :=
  { p with
    todo := p.todo.tail
    attempt := ((s.queue.find? localId).filter (·.state == .pending)).map (Attempt.fresh s)
    leftPending := p.leftPending ++
      ((p.attempt.map (·.queued)).filter fun a => isPending a.localId s).toList }

/-- An edit that took effect on the service. -/
structure Effect where
  /-- The queued action that it replays. -/
  localId : Uuid
  draftId : Uuid
  input : UpdateDraftInput

/-- A send request that reached the service. -/
structure SendRequest where
  localId : Uuid
  draftId : Uuid
  /-- The actions that had been synced or discarded by then. -/
  settledActions : List Uuid
  /-- The files that had been acknowledged or discarded by then. -/
  settledUploads : List Uuid

/-- Who learnt the revision of a draft. -/
inductive Holder
  | worker (i : ℕ)
  | editor (instanceId : Uuid)
  deriving DecidableEq, Repr

/-- A revision that somebody learnt from the service. -/
structure Learnt where
  holder : Holder
  draftId : Uuid
  revision : ℕ
  deriving DecidableEq, Repr

/-- What a run did. -/
structure Journal where
  /-- The service's database. -/
  server : Database
  pass : Option Pass
  /-- Every gated request of a replay: its action, and the generation in its header. -/
  requests : List (QueuedAction × Option Uuid)
  /-- The edits of replayed saves that took effect, in order. -/
  effects : List Effect
  /-- The sends of replays that reached the service. -/
  sends : List SendRequest
  /-- The actions that were ever marked as synced. -/
  synced : List Uuid
  /-- The actions that the owner discarded. -/
  discarded : List Uuid
  /-- The uploads that the service acknowledged. -/
  acknowledged : List Uuid
  /-- The uploads that the owner discarded with their actions. -/
  dropped : List Uuid
  /-- The drafts that something other than a replayed save edited. -/
  others : List Uuid
  /-- The drafts that another client edited. -/
  foreign : List Uuid
  /-- The drafts whose accepted edit got no answer. -/
  undelivered : List Uuid
  /-- The drafts of which a pass ended between the acceptance of a save and the chaining. -/
  cut : List Uuid
  /-- The drafts of which the service refused a save as stale. -/
  stale : List Uuid
  /-- The actions whose replay the service refused as stale. -/
  conflicts : List Uuid
  /-- The revisions that were learnt while no save of their drafts took effect since. -/
  learnt : List Learnt

/-- The journal at the start. -/
def Journal.start (server : Database) : Journal where
  server
  pass := none
  requests := []
  effects := []
  sends := []
  synced := []
  discarded := []
  acknowledged := []
  dropped := []
  others := []
  foreign := []
  undelivered := []
  cut := []
  stale := []
  conflicts := []
  learnt := []

namespace Journal

/-- The pass of worker `i`, when it has one. -/
def passOf (i : ℕ) (o : Journal) : Option Pass := o.pass.filter (·.worker == i)

/-- What worker `i` is replaying. -/
def attemptOf (i : ℕ) (o : Journal) : Option Attempt := (o.passOf i).bind (·.attempt)

/-- Change the pass of worker `i`. -/
def onPass (i : ℕ) (f : Pass → Pass) (o : Journal) : Journal :=
  { o with pass := o.pass.map fun p => if p.worker = i then f p else p }

/-- Change what worker `i` is replaying. -/
def onAttempt (i : ℕ) (f : Attempt → Attempt) (o : Journal) : Journal :=
  o.onPass i fun p => { p with attempt := p.attempt.map f }

/-- The draft of an accepted save that is not chained to the end. -/
def unchained (a : Attempt) : Option Uuid :=
  match a.queued.payload, a.revision, a.chain with
  | .draftSave draftId _ _, some revision, some l =>
      if l.any (·.payload.chains draftId revision) then some draftId else none
  | .draftSave draftId _ _, some _, none => some draftId
  | _, _, _ => none

/-- The pass of worker `i` is over. -/
def endPass (i : ℕ) (o : Journal) : Journal :=
  { o with
    pass := o.pass.filter (·.worker != i)
    cut := o.cut ++ ((o.attemptOf i).bind unchained).toList }

/-- Record a revision that somebody learnt. -/
def learn (holder : Holder) (draftId : Uuid) (revision : ℕ) (o : Journal) : Journal :=
  { o with learnt := o.learnt ++ [⟨holder, draftId, revision⟩] }

/-! ### Commits -/

/-- The attempt after an action was chained forward. -/
def unchain (localId : Uuid) (a : Attempt) : Attempt :=
  { a with chain := a.chain.map fun l => l.filter (·.localId != localId) }

/-- The journal after a statement of worker `i`. -/
def afterWrite (i : ℕ) (o : Journal) : Write → Journal
  | .updateAction localId patch =>
      if patch.state = some .synced then { o with synced := o.synced ++ [localId] }
      else if patch.payload ≠ none then o.onAttempt i (unchain localId)
      else o
  | .deleteAction localId => { o with discarded := o.discarded ++ [localId] }
  | .putPendingUploadWithAction upload _ =>
      if upload.serverId ≠ none ∨ upload.attachedAt ≠ none then
        { o with acknowledged := o.acknowledged ++ [upload.localId] }
      else o
  | .updateUpload localId patch =>
      if patch.serverId ≠ none then { o with acknowledged := o.acknowledged ++ [localId] } else o
  | .deleteUpload localId => { o with dropped := o.dropped ++ [localId] }
  | _ => o

/-- The journal after a stretch of an editor in worker `i`: a revision passes between the two. -/
def afterEdit (i : ℕ) (s : Device) (o : Journal) : EditTag → Journal
  | .opened instanceId draftId revision =>
      if ⟨.worker i, draftId, revision⟩ ∈ o.learnt then
        o.learn (.editor instanceId) draftId revision
      else o
  | .beginSave instanceId =>
      match s.editors.find? instanceId with
      | some a =>
          if ⟨.editor instanceId, a.draftId, a.revision⟩ ∈ o.learnt then
            o.learn (.worker i) a.draftId a.revision
          else o
      | none => o
  | .concludeSave instanceId (.saved revision) =>
      match s.editors.find? instanceId with
      | some a =>
          if ⟨.worker i, a.draftId, revision⟩ ∈ o.learnt then
            o.learn (.editor instanceId) a.draftId revision
          else o
      | none => o
  | _ => o

/-- The journal after a commit of worker `i`. -/
def observe (i : ℕ) (tag : Option StoreTag) (s : Device) (o : Journal) : Journal :=
  match tag with
  | none => o
  | some (.write w) => o.afterWrite i w
  | some (.stop _) => o.onPass i fun p => { p with todo := [], attempt := none }
  | some .passGeneration => o.onPass i fun p => { p with generation := s.serverGeneration }
  | some .listPending => o.onPass i fun p => { p with todo := OfflineStore.pendingOf s }
  | some (.recheck localId) => o.onPass i (·.recheck localId s)
  | some .generationHeaders => o.onAttempt i fun a => { a with header := some s.serverGeneration }
  | some (.files draftId) => o.onAttempt i fun a =>
      { a with filesReady := (OfflineStore.uploadsOf draftId s).all fun u => u.serverId.isSome }
  | some .listChained => o.onAttempt i fun a =>
      { a with chain := some (OfflineStore.pendingOf s) }
  | some (.edit e) => o.afterEdit i s e

/-! ### Requests -/

/-- Record a gated request of worker `i`'s replay. -/
def requested (i : ℕ) (generation : Option Uuid) (o : Journal) : Journal :=
  match o.attemptOf i with
  | some a => { o with requests := o.requests ++ [(a.queued, generation)] }
  | none => o

/-- Record that an edit took effect. -/
def edited (i : ℕ) (editor : Option Uuid) (draftId : Uuid) (input : UpdateDraftInput)
    (server : Database) (o : Journal) : Journal :=
  let learnt := o.learnt.filter (·.draftId != draftId)
  match editor, o.attemptOf i with
  | none, some a =>
      { o with server, learnt, effects := o.effects ++ [⟨a.queued.localId, draftId, input⟩] }
  | _, _ => { o with server, learnt, others := o.others ++ [draftId] }

/-- Record that the service refused worker `i`'s replay as stale. -/
def conflicted (i : ℕ) (o : Journal) : Journal :=
  { o with conflicts := o.conflicts ++ ((o.attemptOf i).map (·.queued.localId)).toList }

/-- Record that the service refused a save as stale. -/
def refused (i : ℕ) (editor : Option Uuid) (draftId : Uuid) (o : Journal) : Journal :=
  let o := { o with stale := o.stale ++ [draftId] }
  if editor = none then o.conflicted i else o

/-- The journal after the service answered an edit, or nothing when it does not answer so. -/
def answerPatch (i : ℕ) (editor : Option Uuid) (draftId : Uuid) (input : UpdateDraftInput)
    (r : Except OfflineFailure DraftRecord) (o : Journal) : Option Journal :=
  match r with
  | .ok record =>
      match (commitDraftUpdate draftId input record.updatedAt).run o.server with
      | .ok (record', server) =>
          if record = record' then
            let o := o.edited i editor draftId input server
            if editor = none then
              some (o.onAttempt i fun a =>
                { a with accepted := true, revision := some record.revision })
            else some (o.learn (.worker i) draftId record.revision)
          else none
      | .error _ => none
  | .error (.api e) =>
      if e.code = "draft_stale" then
        match (commitDraftUpdate draftId input 0).run o.server with
        | .error (.compose .draftStale _ revision) =>
            if e.currentRevision = revision then some (o.refused i editor draftId) else none
        | _ => none
      else some o
  | .error (.lost none) => some o
  | .error (.lost (some time)) =>
      match (commitDraftUpdate draftId input time).run o.server with
      | .ok (_, server) =>
          let o := o.edited i editor draftId input server
          some { o with undelivered := o.undelivered ++ [draftId] }
      | .error _ => some o
  | .error _ => none

/-- Whether a request without a base revision may fail so. -/
def mayFail : OfflineFailure → Bool
  | .api e => e.code != "draft_stale"
  | .lost _ => true
  | _ => false

/-- The revision that the service holds of a draft. -/
def revisionOf (o : Journal) (draftId : Uuid) : Option ℕ :=
  (o.server.drafts.find? draftId).map (·.revision)

/-- The journal after the service answered a send: a stale answer means that the draft has another
revision, and an accepted one locks the draft unless it repeats an earlier send. -/
def answerSend (i : ℕ) (editor : Bool) (draftId : Uuid) (baseRevision : ℕ)
    (r : Except OfflineFailure Uuid) (o : Journal) : Option Journal :=
  match r with
  | .ok outboundId =>
      match (lockDraftForSend draftId baseRevision outboundId).run o.server with
      | .ok (_, server) => some { o with server }
      | .error _ => some o
  | .error (.api e) =>
      if e.code = "draft_stale" then
        if o.revisionOf draftId = some baseRevision then none
        else if editor then some o
        else some (o.conflicted i)
      else some o
  | .error e => if mayFail e then some o else none

/-- Record that worker `i`'s replay of a send reached the service. -/
def sent (i : ℕ) (draftId : Uuid) (o : Journal) : Journal :=
  match o.attemptOf i with
  | some a =>
      { o with sends := o.sends ++
          [⟨a.queued.localId, draftId, o.synced ++ o.discarded, o.acknowledged ++ o.dropped⟩] }
  | none => o

/-- An answer that changes nothing the journal keeps. -/
def plain {α : Type} (r : Except OfflineFailure α) (o : Journal) : Option Journal :=
  match r with
  | .ok _ => some o
  | .error e => if mayFail e then some o else none

/-- An answer that never fails. -/
def total {α : Type} (r : Except OfflineFailure α) (o : Journal) : Option Journal :=
  match r with
  | .ok _ => some o
  | .error _ => none

/-- The journal after an answer, or nothing when the answer cannot come. -/
def respond (i : ℕ) :
    (c : OfflineCall) → Except OfflineFailure c.Answer → Journal → Option Journal
  | .now, r, o => o.total r
  | .generateId, r, o => o.total r
  | .acquirePass, r, o =>
      if o.pass.isNone then { o with pass := some ⟨i, none, [], none, []⟩ }.total r else none
  | .releasePass, r, o => (o.endPass i).total r
  | .patchDraft editor generation draftId input, r, o =>
      (if editor = none then o.requested i generation else o).answerPatch i editor draftId input r
  | .postUpload generation _, r, o => (o.requested i generation).plain r
  | .getAttachments _, r, o => o.plain r
  | .postAttachment editor generation _ _, r, o =>
      (if editor then o else o.requested i generation).plain r
  | .postSend editor generation draftId _ baseRevision, r, o =>
      (if editor then o else (o.requested i generation).sent i draftId).answerSend
        i editor draftId baseRevision r
  | .postAction generation _, r, o => (o.requested i generation).plain r
  | .readDraft draftId, r, o =>
      match r with
      | .ok record => if o.revisionOf draftId = some record.revision ∧ record.id = draftId then
          some (o.learn (.worker i) draftId record.revision) else none
      | .error e => if mayFail e then some o else none
  | .offline, r, o => o.total r
  | .sessionGeneration, r, o => o.total r

end Journal

/-! ## Operations -/

/-- What others do on the service. -/
inductive ServerStep
  /-- Another client edits a draft. -/
  | edit (draftId : Uuid) (input : UpdateDraftInput) (now : Time)
  /-- Anything that leaves the text and the revision of every draft alone. -/
  | elsewhere (f : Database → Database)
      (hf : ∀ db d row, db.drafts.find? d = some row →
        ∃ row', (f db).drafts.find? d = some row' ∧ Draft.SameText row row')

/-- The journal after a step of the service. -/
def ServerStep.advance : ServerStep → Journal → Option Journal
  | edit draftId input now, o =>
      match (commitDraftUpdate draftId input now).run o.server with
      | .ok (_, server) => some { o with
          server, others := o.others ++ [draftId], foreign := o.foreign ++ [draftId],
          learnt := o.learnt.filter (·.draftId != draftId) }
      | .error _ => none
  | elsewhere f _, o => some { o with server := f o.server }

/-- What happens on the device. -/
inductive OfflineOp
  | observeGeneration (current : Option Uuid)
  | sync
  | resolveReview (localId : Uuid) (choice : ReviewChoice)
  | retryFailure (localId : Uuid)
  | discardFailure (localId : Uuid)
  | enqueueDraftSave (draftId : Uuid) (baseRevision : ℕ) (patch : DraftEditPatch)
  | enqueueUpload (upload : OfflineStore.NewUpload)
  | enqueueSend (draftId : Uuid) (idempotencyKey : String) (baseRevision : ℕ)
  | enqueueMailAction (payload : MailActionPayload)
  | noteComparedServerCopy (draftId : Uuid) (server : DraftRecord)
  | putLocalDraft (draft : LocalDraft)
  | openEditor (draftId : Uuid)
  | pushEdit (instanceId : Uuid) (patch : AutosavePatch)
  | timerFired (instanceId draftId : Uuid) (rounds : ℕ)
  | flushEditor (instanceId draftId : Uuid) (rounds : ℕ)
  | retryEditor (instanceId draftId : Uuid) (rounds : ℕ)
  | disposeEditor (instanceId : Uuid)
  | submitSend (instanceId draftId : Uuid) (idempotencyKey : String) (rounds : ℕ)
  | attachAcknowledgedUploads (draftId : Uuid) (attached : List Uuid)

/-- The program of each operation; its result goes to the interface. -/
def OfflineOp.run : OfflineOp → OfflineProgram Unit
  | observeGeneration current => Offline.observeGeneration current
  | sync => do let _ ← Offline.sync webOfflinePort
  | resolveReview localId choice => Offline.resolveReview localId choice
  | retryFailure localId => Offline.retryFailure localId
  | discardFailure localId => Offline.discardFailure localId
  | enqueueDraftSave draftId baseRevision patch => do
      let _ ← Offline.enqueueDraftSave draftId baseRevision patch
  | enqueueUpload upload => do let _ ← Offline.enqueueUpload upload
  | enqueueSend draftId idempotencyKey baseRevision => do
      let _ ← Offline.enqueueSend draftId idempotencyKey baseRevision
  | enqueueMailAction payload => do let _ ← Offline.enqueueMailAction payload
  | noteComparedServerCopy draftId server => Offline.noteComparedServerCopy draftId server
  | putLocalDraft draft => OfflineStore.putLocalDraft draft
  | openEditor draftId => Offline.openEditor draftId
  | pushEdit instanceId patch => Offline.pushEdit instanceId patch
  | timerFired instanceId draftId rounds => Offline.timerFired instanceId draftId rounds
  | flushEditor instanceId draftId rounds => Offline.flushEditor instanceId draftId rounds
  | retryEditor instanceId draftId rounds => Offline.retryEditor instanceId draftId rounds
  | disposeEditor instanceId => Offline.disposeEditor instanceId
  | submitSend instanceId draftId key rounds => Offline.submitSend instanceId draftId key rounds
  | attachAcknowledgedUploads draftId attached => Offline.attachAcknowledgedUploads draftId attached

/-- One device and its service; `fails` says whether the browser's storage may fail. -/
def offlineSystem (fails : Bool) : System offlineSignature Journal where
  Op := OfflineOp
  program := OfflineOp.run
  Tick := ServerStep
  advance := ServerStep.advance
  respond := Journal.respond
  fault := fun e => fails && e matches OfflineFailure.storage _
  observe := fun i tag s _ o => o.observe i tag s
  observe_read := fun _ _ _ => rfl
  retire := Journal.endPass

/-- The start of a run: a device that was never used, and whatever the service holds. -/
structure OfflineStart (c : Config offlineSignature Journal) : Prop where
  store : c.world.store = Device.empty
  outside : ∃ server, c.world.outside = Journal.start server
  workers : c.workers = []

end MailHub.Offline
