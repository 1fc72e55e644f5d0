import MailHub.Actions.Requests
import MailHub.Actions.Runs
import MailHub.Offline.Sync

/-!
# One mail action and its fallback

A mail action freezes the server copies that a row shows and submits exactly those. When the
service cannot be reached, the device queues the same action and replays it, under a key of its
own. What the server makes of the two requests depends on how far the first one came.
-/

namespace MailHub.Offline

open Relational Interleaving MailHub

/-! ## The call -/

/-- One server copy that a row shows. -/
structure ResultOccurrence where
  occurrenceId : Uuid
  folderId : Uuid
  revision : ℕ
  modseq : Option String
  deriving DecidableEq, Repr

/-- The row that an action freezes. -/
structure SearchResultItem where
  accountId : Uuid
  messageId : Uuid
  occurrences : List ResultOccurrence
  deriving DecidableEq, Repr

/-- One action request: the kind, the frozen row, and an optional destination. -/
structure RunMailActionInput where
  kind : ActionKind
  row : SearchResultItem
  destinationFolderId : Option Uuid
  /-- The generation the session probe issued, when it had one. -/
  recoveryGeneration : Option Uuid
  deriving DecidableEq, Repr

/-- How one submitted action ended, in the words the interface shows. -/
inductive MailActionOutcome
  | submitted (kind : ActionKind) (confirmed pending needsAttention : ℕ)
  | queuedOffline (kind : ActionKind)
  | rejected (kind : ActionKind) (message : String)
  deriving DecidableEq, Repr

/-- Counts one receipt's items into the three buckets the interface reports. -/
def summarize (kind : ActionKind) (items : List ActionItemReceipt) : MailActionOutcome :=
  let isConfirmed := fun item : ActionItemReceipt => item.status == .confirmed
  let isPending := fun item : ActionItemReceipt => item.status.isPending
  .submitted kind (items.countP isConfirmed) (items.countP isPending)
    (items.countP fun item => !isConfirmed item && !isPending item)

/-- What the device does next about a call. -/
inductive MailActionStep
  /-- The call is over. -/
  | done (outcome : MailActionOutcome)
  /-- The action goes to the offline queue. -/
  | enqueue
  /-- The action is submitted under a generation. -/
  | post (generation : Uuid)
  deriving DecidableEq, Repr

/-- How a call begins; `online` is what the browser says. -/
def beginMailAction (online : Bool) (input : RunMailActionInput) : MailActionStep :=
  if input.row.occurrences = [] then
    .done (.rejected input.kind
      "This message has no server copy, so no server action can run on it.")
  else if online = false then .enqueue
  else match input.recoveryGeneration with
    | none => .done (.rejected input.kind
        "The server has not issued a recovery generation yet. Reload and try again.")
    | some generation => .post generation

/-- How a call goes on with the answer of its request. -/
def concludeMailAction (kind : ActionKind) :
    Except OfflineFailure (List ActionItemReceipt) → MailActionStep
  | .ok items => .done (summarize kind items)
  | .error error =>
      let failure := toApiError error
      if failure.network then .enqueue
      else if failure.unauthorized then
        .done (.rejected kind "Your session ended. Sign in and try again.")
      else .done (.rejected kind failure.message)

/-- The body of the online request. -/
def onlineBody (input : RunMailActionInput) (idempotencyKey : String) : MailActionSubmission where
  accountId := input.row.accountId
  kind := input.kind
  idempotencyKey := idempotencyKey
  occurrenceIds := input.row.occurrences.map (·.occurrenceId)
  destinationFolderId := input.destinationFolderId

/-- The queue payload of one request: the same frozen targets. A move without a destination is
queued with an empty one, which no server takes; it has no payload here. -/
def queuePayloadOf (input : RunMailActionInput) (idempotencyKey : String) :
    Option MailActionPayload :=
  let row := input.row
  let targets : List FrozenTarget := row.occurrences.map fun occurrence =>
    ⟨row.accountId, occurrence.folderId, row.messageId, occurrence.occurrenceId,
      occurrence.revision, occurrence.modseq⟩
  match input.kind with
  | .markRead => some (.flag targets .unread false idempotencyKey)
  | .markUnread => some (.flag targets .unread true idempotencyKey)
  | .star => some (.flag targets .flagged true idempotencyKey)
  | .unstar => some (.flag targets .flagged false idempotencyKey)
  | .archive | .move => input.destinationFolderId.map fun destination =>
      .move targets destination idempotencyKey

/-- The body that a replay of a payload posts. -/
def MailActionPayload.body : MailActionPayload → MailActionSubmission
  | flag targets f value key => mailActionBodyOf (flagKind f value) targets none key
  | move targets destination key => mailActionBodyOf .move targets (some destination) key

/-- The targets of a payload. -/
def MailActionPayload.targets : MailActionPayload → List FrozenTarget
  | flag targets _ _ _ => targets
  | move targets _ _ => targets

/-- A replay of a queued mail action posts the body of its payload, and nothing else. -/
theorem handlerFor_mailAction (payload : MailActionPayload) :
    handlerFor webOfflinePort payload.toPayload = some
      (if payload.targets.isEmpty then return .failed "The queued action held no targets."
      else replaying (do
        let generation ← generationHeaders
        apiPostAction generation payload.body
        return .synced none none) false) := by
  cases payload <;> rfl

/-! ## The call, the network and the server -/

/-- One call with the keys that its two requests carry. -/
structure MailActionCall where
  input : RunMailActionInput
  onlineKey : String
  queuedKey : String
  deriving DecidableEq, Repr

namespace MailActionCall

/-- The online request of the call. -/
def onlineRequest (call : MailActionCall) : MailActionSubmission :=
  onlineBody call.input call.onlineKey

/-- The request that every replay of the call makes. -/
def queuedRequest (call : MailActionCall) : Option MailActionSubmission :=
  (queuePayloadOf call.input call.queuedKey).map (·.body)

end MailActionCall

/-- How far the device is with a call. -/
inductive CallPhase
  | ready | posted | queued | ended
  deriving DecidableEq, Repr

/-- Where the online request of a call is. -/
inductive OnlineRequest
  | unsent | underway | dropped
  /-- A worker of the server runs it. -/
  | arrived (worker : ℕ)
  deriving DecidableEq, Repr

/-- A call with the server that its requests go to. -/
structure Exchange where
  server : Config mailSignature ActionLog
  phase : CallPhase
  online : OnlineRequest

/-- What happens to a call. -/
inductive ExchangeEvent (libs : Libraries)
  /-- The server goes on, or another request reaches it. -/
  | server (e : Event (actionSystem libs))
  /-- The owner starts the action. -/
  | begin (online : Bool)
  /-- The online request reaches the server. -/
  | arrive (generation : Option Uuid)
  /-- The online request is lost on its way. -/
  | drop
  /-- The device gets the answer of its request, or none. -/
  | answer (r : Except OfflineFailure (List ActionItemReceipt))
  /-- A replay of the queued action reaches the server. -/
  | replay (generation requestGeneration : Option Uuid)

variable {libs : Libraries} {call : MailActionCall} {x x' x₀ : Exchange}

/-- Another request: it does not carry a key of the call. -/
def MailActionCall.IsOther (call : MailActionCall) (submission : MailActionSubmission) : Bool :=
  submission.idempotencyKey != call.onlineKey && submission.idempotencyKey != call.queuedKey

/-- Whether an event of the server leaves the keys of the call alone. -/
def MailActionCall.leavesAlone (call : MailActionCall) : Event (actionSystem libs) → Bool
  | .spawn (.submit _ _ submission) => call.IsOther submission
  | _ => true

/-- The event of the server, if any; nothing when the event cannot happen. -/
def ExchangeEvent.atServer (call : MailActionCall) :
    ExchangeEvent libs → Option (Option (Event (actionSystem libs)))
  | .server e => if call.leavesAlone e then some (some e) else none
  | .arrive generation => some (some
      (.spawn (.submit generation call.input.recoveryGeneration call.onlineRequest)))
  | .replay generation g => call.queuedRequest.map fun body =>
      some (.spawn (.submit generation g body))
  | .begin _ | .drop | .answer _ => some none

/-- The device after a step. -/
def MailActionStep.phase : MailActionStep → CallPhase
  | done _ => .ended
  | enqueue => .queued
  | post _ => .posted

/-- The phase of the call and the place of its online request after an event; nothing when the
event cannot happen. -/
def Exchange.atDevice (call : MailActionCall) (x : Exchange) :
    ExchangeEvent libs → Option (CallPhase × OnlineRequest)
  | .server _ => some (x.phase, x.online)
  | .begin online =>
      if x.phase = .ready then
        let step := beginMailAction online call.input
        some (step.phase, if step.phase = .posted then .underway else x.online)
      else none
  | .arrive _ =>
      if x.online = .underway then some (x.phase, .arrived x.server.workers.length) else none
  | .drop => if x.online = .underway then some (x.phase, .dropped) else none
  | .answer r =>
      if x.phase = .posted then some ((concludeMailAction call.input.kind r).phase, x.online)
      else none
  | .replay _ _ => if x.phase = .queued then some (x.phase, x.online) else none

/-- One event. -/
def Exchange.fire (call : MailActionCall) (x : Exchange) (e : ExchangeEvent libs) :
    Option Exchange :=
  match x.atDevice call e, e.atServer call with
  | some (phase, online), some none => some ⟨x.server, phase, online⟩
  | some (phase, online), some (some event) =>
      (x.server.fire (actionSystem libs) event).map fun server => ⟨server, phase, online⟩
  | _, _ => none

/-- A sequence of events, each of which passes a check. -/
def Exchange.runChecked (call : MailActionCall) (check : Exchange → ExchangeEvent libs → Bool) :
    Exchange → List (ExchangeEvent libs) → Option Exchange
  | x, [] => some x
  | x, e :: es => if check x e then (x.fire call e).bind (runChecked call check · es) else none

/-- The moments that a call reaches when each event meets `P`. -/
inductive Exchange.Reaches (call : MailActionCall) (P : Exchange → ExchangeEvent libs → Prop)
    (x₀ : Exchange) : Exchange → Prop
  | start : Reaches call P x₀ x₀
  | next {x x' : Exchange} (e : ExchangeEvent libs) :
      Reaches call P x₀ x → P x e → x.fire call e = some x' → Reaches call P x₀ x'

/-! ## What the call leaves on the server -/

/-- An action that a request of the call created. -/
def MailActionCall.Made (call : MailActionCall) (a : Action) : Prop :=
  a.idempotencyKey = call.onlineKey ∨ a.idempotencyKey = call.queuedKey

/-- The call made at most one action, and it is the action that the call asks for. -/
structure MailActionCall.MadeOne (call : MailActionCall) (db : Database) : Prop where
  once : ∀ a ∈ db.actions, ∀ b ∈ db.actions, call.Made a → call.Made b → a = b
  asked : ∀ a ∈ db.actions, call.Made a → a.kind = call.input.kind ∧
    a.accountId = call.input.row.accountId ∧
    a.request.destinationFolderId = call.input.destinationFolderId
  targets : ∀ a ∈ db.actions, call.Made a → ∀ o,
    (∃ item ∈ db.actionItems, item.actionId = a.id ∧ item.target.occurrenceId = o) ↔
      o ∈ call.input.row.occurrences.map (·.occurrenceId)

/-- The online request can create nothing any more. -/
def Exchange.Unreached (x : Exchange) : Prop :=
  x.online = .unsent ∨ x.online = .dropped ∨ ∃ n, x.online = .arrived n ∧ x.server.HasEnded n

/-- The queue can hold the call: it archives nothing, and no flag of it names a destination. -/
def MailActionCall.IsQueueable (call : MailActionCall) : Prop :=
  call.input.kind ≠ .archive ∧
    (requiresDestination call.input.kind = false → call.input.destinationFolderId = none)

/-- The call goes to the queue only when the queue can hold it and its online request created
nothing and never will. -/
def QueuesUnreached (libs : Libraries) (call : MailActionCall) (x : Exchange)
    (e : ExchangeEvent libs) : Prop :=
  x.phase ≠ .queued → ∀ online, x.atDevice call e = some (.queued, online) →
    call.IsQueueable ∧ x.Unreached ∧
      ∀ a ∈ x.server.world.store.actions, a.idempotencyKey ≠ call.onlineKey

/-! ## What every moment keeps -/

/-- What a worker of the server has to do with the call. -/
def MailActionCall.Role (call : MailActionCall) (phase : CallPhase) (online : OnlineRequest)
    (i : ℕ) (op : ActionOp) : Prop :=
  ∀ generation g submission, op = .submit generation g submission →
    call.IsOther submission = true ∨
      (submission = call.onlineRequest ∧ online = .arrived i) ∨
      (call.queuedRequest = some submission ∧ phase = .queued)

/-- The action is what a request asks for. -/
structure IsFrom (submission : MailActionSubmission) (a : Action) : Prop where
  key : a.idempotencyKey = submission.idempotencyKey
  scope : a.request = canonicalScope submission
  kind : a.kind = submission.kind
  account : a.accountId = submission.accountId

/-- Where an action comes from. -/
inductive MailActionCall.Origin (call : MailActionCall) (phase : CallPhase) (a : Action) : Prop
  | other (h : ¬ call.Made a)
  | online (hfrom : IsFrom call.onlineRequest a) (hphase : phase ≠ .queued)
  | queued (body : MailActionSubmission) (hbody : call.queuedRequest = some body)
      (hfrom : IsFrom body a) (hphase : phase = .queued)

/-- What a moment of the call keeps, when the operations of the workers are `ops`. -/
structure Exchange.Sound (libs : Libraries) (call : MailActionCall)
    (c₀ : Config mailSignature ActionLog) (ops : ℕ → ActionOp) (x : Exchange) : Prop where
  reaches : ReachesAs (actionSystem libs) ops .free c₀ x.server
  fresh : x.phase = .ready → x.online = .unsent
  shown : x.phase = .posted ∨ x.phase = .queued → call.input.row.occurrences ≠ []
  role : ∀ i < x.server.workers.length, call.Role x.phase x.online i (ops i)
  origin : ∀ a ∈ x.server.world.store.actions, call.Origin x.phase a
  queued : x.phase = .queued → call.IsQueueable ∧ x.Unreached

variable {c₀ : Config mailSignature ActionLog} {ops : ℕ → ActionOp}

/-- The device goes on. -/
theorem Exchange.Sound.move {phase : CallPhase} {online : OnlineRequest}
    (h : x.Sound libs call c₀ ops) (hready : phase ≠ .ready)
    (hshown : phase = .posted ∨ phase = .queued → call.input.row.occurrences ≠ [])
    (honline : ∀ i, x.online = .arrived i → online = .arrived i)
    (hstay : x.phase = .queued → phase = .queued)
    (hqueued : phase = .queued → call.IsQueueable ∧ Exchange.Unreached ⟨x.server, phase, online⟩ ∧
      (x.phase = .queued ∨
        ∀ a ∈ x.server.world.store.actions, a.idempotencyKey ≠ call.onlineKey)) :
    Exchange.Sound libs call c₀ ops ⟨x.server, phase, online⟩ where
  reaches := h.reaches
  fresh hphase := absurd hphase hready
  shown := hshown
  role i hi generation g submission hop := by
    rcases h.role i hi generation g submission hop with hother | ⟨hsub, hat⟩ | ⟨hsub, hphase⟩
    · exact .inl hother
    · exact .inr (.inl ⟨hsub, honline i hat⟩)
    · exact .inr (.inr ⟨hsub, hstay hphase⟩)
  origin a ha := by
    cases h.origin a ha with
    | other hnot => exact .other hnot
    | online hfrom hphase =>
        refine .online hfrom fun hnow => ?_
        rcases (hqueued hnow).2.2 with hbefore | hnone
        · exact hphase hbefore
        · exact hnone a ha hfrom.key
    | queued body hbody hfrom hphase => exact .queued body hbody hfrom (hstay hphase)
  queued hphase := ⟨(hqueued hphase).1, (hqueued hphase).2.1⟩

theorem beginMailAction_shown {online : Bool} {input : RunMailActionInput}
    (h : (beginMailAction online input).phase = .posted ∨
      (beginMailAction online input).phase = .queued) : input.row.occurrences ≠ [] := by
  intro hnone
  simp [beginMailAction, hnone, MailActionStep.phase] at h

theorem MailActionStep.phase_ne_ready (step : MailActionStep) : step.phase ≠ .ready := by
  cases step <;> simp [MailActionStep.phase]

/-- The device keeps it, when it queues no call that has reached the server. -/
theorem Exchange.Sound.device {e : ExchangeEvent libs} {phase : CallPhase} {online : OnlineRequest}
    (h : x.Sound libs call c₀ ops) (hmeets : QueuesUnreached libs call x e)
    (hdevice : x.atDevice call e = some (phase, online)) :
    Exchange.Sound libs call c₀ ops ⟨x.server, phase, online⟩ := by
  -- A request that is underway has not been given up.
  have hunderway : x.online = .underway → x.phase ≠ .queued := by
    intro hat hphase
    rcases (h.queued hphase).2 with hu | hu | ⟨n, hu, -⟩ <;> simp [hat] at hu
  have hready : x.online = .underway → x.phase ≠ .ready := by
    intro hat hphase
    simp [h.fresh hphase] at hat
  cases e with
  | server e =>
      obtain ⟨rfl, rfl⟩ : x.phase = phase ∧ x.online = online := by
        simpa [Exchange.atDevice] using hdevice
      exact h
  | begin now =>
      have hphase : x.phase = .ready := by
        by_contra hne
        simp [Exchange.atDevice, hne] at hdevice
      have hmeet := hmeets (by simp [hphase]) online
      simp only [Exchange.atDevice, hphase, if_true, Option.some.injEq, Prod.mk.injEq]
        at hdevice hmeet
      obtain ⟨rfl, rfl⟩ := hdevice
      refine h.move (MailActionStep.phase_ne_ready _) beginMailAction_shown (fun i hat => ?_)
        (fun hq => absurd (hphase.symm.trans hq) (by simp)) fun hq => ?_
      · simp [h.fresh hphase] at hat
      · obtain ⟨hqueueable, -, hnone⟩ := hmeet ⟨hq, rfl⟩
        refine ⟨hqueueable, .inl ?_, .inr hnone⟩
        simp [hq, h.fresh hphase]
  | arrive generation =>
      have hat : x.online = .underway := by
        by_contra hne
        simp [Exchange.atDevice, hne] at hdevice
      obtain ⟨rfl, rfl⟩ : x.phase = phase ∧ .arrived x.server.workers.length = online := by
        simpa [Exchange.atDevice, hat] using hdevice
      exact h.move (hready hat) h.shown (fun i hi => by simp [hat] at hi) id
        fun hq => absurd hq (hunderway hat)
  | drop =>
      have hat : x.online = .underway := by
        by_contra hne
        simp [Exchange.atDevice, hne] at hdevice
      obtain ⟨rfl, rfl⟩ : x.phase = phase ∧ .dropped = online := by
        simpa [Exchange.atDevice, hat] using hdevice
      exact h.move (hready hat) h.shown (fun i hi => by simp [hat] at hi) id
        fun hq => absurd hq (hunderway hat)
  | answer r =>
      have hphase : x.phase = .posted := by
        by_contra hne
        simp [Exchange.atDevice, hne] at hdevice
      have hmeet := hmeets (by simp [hphase]) online
      simp only [Exchange.atDevice, hphase, if_true, Option.some.injEq, Prod.mk.injEq]
        at hdevice hmeet
      obtain ⟨rfl, rfl⟩ := hdevice
      refine h.move (MailActionStep.phase_ne_ready _) (fun _ => h.shown (.inl hphase))
        (fun _ => id) (fun hq => absurd (hphase.symm.trans hq) (by simp)) fun hq => ?_
      obtain ⟨hqueueable, hunreached, hnone⟩ := hmeet ⟨hq, rfl⟩
      exact ⟨hqueueable, hunreached, .inr hnone⟩
  | replay generation g =>
      have hphase : x.phase = .queued := by
        by_contra hne
        simp [Exchange.atDevice, hne] at hdevice
      obtain ⟨rfl, rfl⟩ : x.phase = phase ∧ x.online = online := by
        simpa [Exchange.atDevice, hphase] using hdevice
      exact h

theorem IsFrom.same {submission : MailActionSubmission} {a a' : Action}
    (h : IsFrom submission a) (hsame : a'.asQueued = a.asQueued) : IsFrom submission a' := by
  obtain ⟨-, hkey, hkind, haccount, hrequest⟩ := asQueued_inj hsame
  exact ⟨hkey.trans h.key, hrequest.trans h.scope, hkind.trans h.kind, haccount.trans h.account⟩

/-- Work on an action leaves its origin. -/
theorem MailActionCall.Origin.same {phase : CallPhase} {a a' : Action}
    (h : call.Origin phase a) (hsame : a'.asQueued = a.asQueued) : call.Origin phase a' := by
  cases h with
  | other hnot =>
      refine .other fun hmade => hnot ?_
      rwa [MailActionCall.Made, (asQueued_inj hsame).2.1] at hmade
  | online hfrom hphase => exact .online (hfrom.same hsame) hphase
  | queued body hbody hfrom hphase => exact .queued body hbody (hfrom.same hsame) hphase

/-- The server goes on; whatever starts has its role. -/
theorem Exchange.Sound.server {e : Event (actionSystem libs)}
    {server : Config mailSignature ActionLog} (h₀ : ActionStart c₀)
    (h : x.Sound libs call c₀ ops)
    (hspawn : ∀ op, e.spawned = some op →
      call.Role x.phase x.online x.server.workers.length op)
    (hfire : x.server.fire (actionSystem libs) e = some server) :
    ∃ ops', Exchange.Sound libs call c₀ ops' ⟨server, x.phase, x.online⟩ := by
  obtain ⟨ops', hreach, hold, hnew⟩ := h.reaches.extend e
  refine ⟨ops', .next e hreach (Policy.free_meets ..) hnew hfire, h.fresh, h.shown,
    fun i hi => ?_, fun a ha => ?_, fun hphase => ?_⟩
  · by_cases hlt : i < x.server.workers.length
    · rw [hold i hlt]
      exact h.role i hlt
    · have hlength := Config.fire_workers hfire
      change i < server.workers.length at hi
      cases hop : e.spawned with
      | none =>
          rw [hop] at hlength
          simp at hlength
          omega
      | some op =>
          rw [hop] at hlength
          simp at hlength
          obtain rfl : i = x.server.workers.length := by omega
          rw [hnew op hop]
          exact hspawn op hop
  · change a ∈ server.world.store.actions at ha
    rcases actions_step h₀ hreach hnew hfire with hsame | ⟨i, halive, hlt, hcommit⟩
    · rw [hsame] at ha
      exact h.origin a ha
    rw [hold i hlt] at hcommit
    rcases hcommit with hsame | ⟨generation, g, submission, action, targets, hop, hq, hrun⟩
    · obtain ⟨a₀, ha₀, heq⟩ := hsame.mem_action ha
      exact (h.origin a₀ ha₀).same heq
    obtain ⟨-, -, hactions, -⟩ := commitSubmission_rows hrun
    rw [Table.mem_iff, hactions, List.mem_append, List.mem_singleton] at ha
    rcases ha with ha | rfl
    · exact h.origin a ha
    have hfrom : IsFrom submission a := ⟨hq.key, hq.scope, hq.kind, hq.account⟩
    rcases h.role i hlt generation g submission hop with hother | ⟨rfl, hat⟩ | ⟨hbody, hphase⟩
    · refine .other fun hmade => ?_
      simp only [MailActionCall.IsOther, Bool.and_eq_true, bne_iff_ne] at hother
      rcases hmade with hmade | hmade
      · exact hother.1 (hq.key.symm.trans hmade)
      · exact hother.2 (hq.key.symm.trans hmade)
    · -- A request that was given up has ended, and commits nothing.
      refine .online hfrom fun hphase => ?_
      rcases (h.queued hphase).2 with hu | hu | ⟨n, hu, hended⟩
      · simp [hat] at hu
      · simp [hat] at hu
      · obtain rfl : i = n := by simpa [hat] using hu
        exact halive hended
    · exact .queued submission hbody hfrom hphase
  · obtain ⟨hqueueable, hunreached⟩ := h.queued hphase
    refine ⟨hqueueable, ?_⟩
    rcases hunreached with hu | hu | ⟨n, hu, hended⟩
    · exact .inl hu
    · exact .inr (.inl hu)
    · exact .inr (.inr ⟨n, hu, hended.fire hfire⟩)

/-- One event keeps it. -/
theorem Exchange.Sound.fire {e : ExchangeEvent libs} (h₀ : ActionStart c₀)
    (h : x.Sound libs call c₀ ops) (hmeets : QueuesUnreached libs call x e)
    (hfire : x.fire call e = some x') : ∃ ops', x'.Sound libs call c₀ ops' := by
  unfold Exchange.fire at hfire
  split at hfire
  next phase online hdevice hserver =>
      obtain rfl := Option.some.inj hfire
      exact ⟨ops, h.device hmeets hdevice⟩
  next phase online event hdevice hserver =>
      have hmoved := h.device hmeets hdevice
      obtain ⟨server, hrun, rfl⟩ := Option.map_eq_some_iff.mp hfire
      refine hmoved.server h₀ (fun op hop generation g submission hsub => ?_) hrun
      subst hsub
      cases e with
      | server e =>
          have hleaves : call.leavesAlone e = true ∧ e = event := by
            simpa [ExchangeEvent.atServer] using hserver
          obtain ⟨hleaves, rfl⟩ := hleaves
          cases e with
          | spawn op =>
              obtain rfl : op = _ := Option.some.inj hop
              exact .inl hleaves
          | commit i | abort i e | answer i r | stop i | tick t => simp [Event.spawned] at hop
      | arrive generation' =>
          obtain rfl : _ = event := Option.some.inj (Option.some.inj hserver)
          have hat : x.online = .underway := by
            by_contra hne
            simp [Exchange.atDevice, hne] at hdevice
          obtain ⟨-, rfl⟩ : x.phase = phase ∧ .arrived x.server.workers.length = online := by
            simpa [Exchange.atDevice, hat] using hdevice
          obtain ⟨-, -, hbody⟩ := ActionOp.submit.inj (Option.some.inj hop)
          exact .inr (.inl ⟨hbody.symm, rfl⟩)
      | replay generation' g' =>
          have hphase : x.phase = .queued := by
            by_contra hne
            simp [Exchange.atDevice, hne] at hdevice
          obtain ⟨rfl, -⟩ : x.phase = phase ∧ x.online = online := by
            simpa [Exchange.atDevice, hphase] using hdevice
          obtain ⟨body, hbody, hevent⟩ := Option.map_eq_some_iff.mp hserver
          obtain rfl := Option.some.inj hevent
          obtain ⟨-, -, rfl⟩ := ActionOp.submit.inj (Option.some.inj hop)
          exact .inr (.inr ⟨hbody, hphase⟩)
      | begin online' | drop | answer r => simp [ExchangeEvent.atServer] at hserver
  next => simp at hfire

/-- A call at the start of a run. -/
def Exchange.start (c₀ : Config mailSignature ActionLog) : Exchange := ⟨c₀, .ready, .unsent⟩

theorem Exchange.start_sound (h₀ : ActionStart c₀) :
    ∃ ops, (Exchange.start c₀).Sound libs call c₀ ops := by
  refine ⟨fun _ => .receipt 0, .start, fun _ => rfl, fun h => ?_, fun i hi => ?_, fun a ha => ?_,
    fun h => ?_⟩
  · simp [Exchange.start] at h
  · simp [Exchange.start, h₀.workers] at hi
  · change a ∈ c₀.world.store.actions at ha
    rw [h₀.actions] at ha
    exact absurd ha Table.not_mem_empty
  · simp [Exchange.start] at h

theorem Exchange.Reaches.sound (h₀ : ActionStart c₀)
    (h : Exchange.Reaches call (QueuesUnreached libs call) (.start c₀) x) :
    ∃ ops, x.Sound libs call c₀ ops := by
  induction h with
  | start => exact Exchange.start_sound h₀
  | next e _ hmeets hfire ih =>
      obtain ⟨ops, hsound⟩ := ih
      exact hsound.fire h₀ hmeets hfire

/-! ## One action -/

/-- What the queue replays is the request of the call. -/
theorem queuedRequest_asked {body : MailActionSubmission} (hqueueable : call.IsQueueable)
    (hshown : call.input.row.occurrences ≠ []) (h : call.queuedRequest = some body) :
    body = { call.onlineRequest with idempotencyKey := call.queuedKey } := by
  obtain ⟨hkind, hdestination⟩ := hqueueable
  obtain ⟨first, rest, hrow⟩ := List.exists_cons_of_ne_nil hshown
  have hflag : ∀ flag value, flagKind flag value = call.input.kind →
      (MailActionPayload.flag (call.input.row.occurrences.map fun occurrence =>
        (⟨call.input.row.accountId, occurrence.folderId, call.input.row.messageId,
          occurrence.occurrenceId, occurrence.revision, occurrence.modseq⟩ : FrozenTarget))
        flag value call.queuedKey).body =
          { call.onlineRequest with idempotencyKey := call.queuedKey } := by
    intro flag value hsame
    have hnone : call.input.destinationFolderId = none :=
      hdestination (by rw [← hsame]; cases flag <;> cases value <;> rfl)
    simp [MailActionPayload.body, mailActionBodyOf, MailActionCall.onlineRequest, onlineBody, hrow,
      hsame, hnone]
  unfold MailActionCall.queuedRequest queuePayloadOf at h
  cases hk : call.input.kind with
  | archive => exact absurd hk hkind
  | move =>
      simp only [hk, Option.map_map, Option.map_eq_some_iff, Function.comp_apply] at h
      obtain ⟨destination, hd, rfl⟩ := h
      simp [MailActionPayload.body, mailActionBodyOf, MailActionCall.onlineRequest, onlineBody,
        hrow, hk, hd]
  | markRead | markUnread | star | unstar =>
      simp only [hk, Option.map_some, Option.some.injEq] at h
      rw [← h]
      exact hflag _ _ (by rw [hk]; rfl)

theorem mem_canonicalScope {submission : MailActionSubmission} {o : Uuid} :
    o ∈ (canonicalScope submission).occurrenceIds ↔ o ∈ submission.occurrenceIds := by
  simp [canonicalScope]

/-- An action of the call is what the call asks for. -/
theorem Exchange.Sound.asks (h : x.Sound libs call c₀ ops) {a : Action}
    (ha : a ∈ x.server.world.store.actions) (hmade : call.Made a) :
    ∃ body, IsFrom body a ∧ ∃ key, body = { call.onlineRequest with idempotencyKey := key } := by
  cases h.origin a ha with
  | other hnot => exact absurd hmade hnot
  | online hfrom hphase => exact ⟨_, hfrom, call.onlineKey, rfl⟩
  | queued body hbody hfrom hphase =>
      exact ⟨body, hfrom, call.queuedKey,
        queuedRequest_asked (h.queued hphase).1 (h.shown (.inr hphase)) hbody⟩

/-- Two actions of the call have one key. -/
theorem Exchange.Sound.key_eq (h : x.Sound libs call c₀ ops) {a b : Action}
    (ha : a ∈ x.server.world.store.actions) (hb : b ∈ x.server.world.store.actions)
    (hmadea : call.Made a) (hmadeb : call.Made b) : a.idempotencyKey = b.idempotencyKey := by
  cases h.origin a ha with
  | other hnot => exact absurd hmadea hnot
  | online hfrom hphase =>
      cases h.origin b hb with
      | other hnot => exact absurd hmadeb hnot
      | online hfrom' hphase' => exact hfrom.key.trans hfrom'.key.symm
      | queued body hbody hfrom' hphase' => exact absurd hphase' hphase
  | queued body hbody hfrom hphase =>
      cases h.origin b hb with
      | other hnot => exact absurd hmadeb hnot
      | online hfrom' hphase' => exact absurd hphase hphase'
      | queued body' hbody' hfrom' hphase' =>
          obtain rfl : body = body' := Option.some.inj (hbody.symm.trans hbody')
          exact hfrom.key.trans hfrom'.key.symm

/-- One call makes at most one action, and that is the one it asks for. -/
theorem call_made_one (h₀ : ActionStart c₀)
    (h : Exchange.Reaches call (QueuesUnreached libs call) (.start c₀) x) :
    call.MadeOne x.server.world.store := by
  obtain ⟨ops, hsound⟩ := h.sound h₀
  have hfrozen := actions_frozen h₀ hsound.reaches
  refine ⟨fun a ha b hb hmadea hmadeb => ?_, fun a ha hmade => ?_, fun a ha hmade o => ?_⟩
  · exact hfrozen.keys a ha b hb (hsound.key_eq ha hb hmadea hmadeb)
  · obtain ⟨body, hfrom, key, rfl⟩ := hsound.asks ha hmade
    refine ⟨hfrom.kind, hfrom.account, ?_⟩
    rw [hfrom.scope]
    rfl
  · obtain ⟨body, hfrom, key, rfl⟩ := hsound.asks ha hmade
    rw [← hfrozen.targets a ha o, hfrom.scope, mem_canonicalScope]
    rfl

/-! ## Samples -/

/-- A run that passes a check meets what the check stands for. -/
theorem Exchange.Reaches.of_runChecked {P : Exchange → ExchangeEvent libs → Prop}
    {check : Exchange → ExchangeEvent libs → Bool} (hcheck : ∀ x e, check x e = true → P x e)
    {es : List (ExchangeEvent libs)} {y : Exchange} (hx : Exchange.Reaches call P x₀ x)
    (h : x.runChecked call check es = some y) : Exchange.Reaches call P x₀ y := by
  induction es generalizing x with
  | nil =>
      obtain rfl : x = y := by simpa [Exchange.runChecked] using h
      exact hx
  | cons e es ih =>
      unfold Exchange.runChecked at h
      split at h
      next hpass =>
        obtain ⟨x₁, hfire, hrun⟩ := Option.bind_eq_some_iff.mp h
        exact ih (.next e hx (hcheck x e hpass) hfire) hrun
      next => simp at h

/-- The owner marks the message of the sample mailbox as read. -/
def sampleCall : MailActionCall :=
  ⟨⟨.markRead, ⟨1, 30, [⟨20, 5, 0, none⟩]⟩, none, some 1⟩, "online", "queued"⟩

/-- The owner archives it. -/
def sampleArchive : MailActionCall :=
  ⟨⟨.archive, ⟨1, 30, [⟨20, 5, 0, none⟩]⟩, some 6, some 1⟩, "online", "queued"⟩

/-- Worker `i` takes a submission and queues it as action `id`; an archive reads its destination. -/
def sampleServe (i id : ℕ) (moves : Bool) : List (ExchangeEvent sampleLibraries) :=
  let steps : List (Event (actionSystem sampleLibraries)) :=
    [.commit i, .commit i, .commit i, .commit i] ++ (if moves then [.commit i] else []) ++
      [.answer i (sampleReply id), .answer i (sampleReply 0), .commit i, .commit i, .commit i]
  steps.map .server

/-- The server queues the action, the answer is lost, and the device replays it. -/
def sampleLost : List (ExchangeEvent sampleLibraries) :=
  [.begin true, .arrive (some 1)] ++ sampleServe 0 40 false ++
    [.answer (.error (.lost none)), .replay (some 1) (some 1)] ++ sampleServe 1 41 false

/-- The device is offline and queues the action. -/
def sampleUnplugged (moves : Bool) : List (ExchangeEvent sampleLibraries) :=
  [.begin false, .replay (some 1) (some 1)] ++ sampleServe 0 40 moves

/-- The request is lost on its way, and the device replays the action. -/
def sampleDropped : List (ExchangeEvent sampleLibraries) :=
  [.begin true, .drop, .answer (.error (.lost none)), .replay (some 1) (some 1)] ++
    sampleServe 0 40 false

/-- Every action with its key, its kind and its scope. -/
def sampleView (x : Exchange) : List (String × ActionKind × List Uuid) :=
  x.server.world.store.actions.rows.map fun a =>
    (a.idempotencyKey, a.kind, a.request.occurrenceIds)

/-- Whether an event sends no call to the queue but one that the server has not seen. -/
def queuesUnseen (call : MailActionCall) (x : Exchange) (e : ExchangeEvent libs) : Bool :=
  x.phase == .queued || (x.atDevice call e).all (·.1 != .queued) ||
    ((x.online == .unsent || x.online == .dropped) && x.server.world.store.actions.rows == [])

theorem queuesUnreached_of_unseen {e : ExchangeEvent libs} (hcall : call.IsQueueable)
    (h : queuesUnseen call x e = true) : QueuesUnreached libs call x e := by
  intro hphase online hdevice
  simp only [queuesUnseen, hdevice, Option.all_some, Bool.or_eq_true, beq_iff_eq, bne_self_eq_false,
    Bool.false_eq_true, or_false, Bool.and_eq_true] at h
  obtain ⟨hat, hnone⟩ := h.resolve_left hphase
  refine ⟨hcall, hat.imp_right .inl, fun a ha => ?_⟩
  rw [Table.mem_iff, hnone] at ha
  exact absurd ha List.not_mem_nil

/-- The request is lost on its way and the action replayed: the server queues it once. -/
theorem call_made_one_sample : ∃ x, sampleView x = [("queued", .markRead, [20])] ∧
    Exchange.Reaches sampleCall (QueuesUnreached sampleLibraries sampleCall)
      (.start sampleActions) x ∧ sampleCall.MadeOne x.server.world.store := by
  have h : ((Exchange.start sampleActions).runChecked sampleCall (queuesUnseen sampleCall)
      sampleDropped).map sampleView = some [("queued", .markRead, [20])] := by decide +kernel
  obtain ⟨x, hrun, hview⟩ := Option.map_eq_some_iff.mp h
  have hcall : sampleCall.IsQueueable := ⟨by decide, by decide⟩
  have hreach := Exchange.Reaches.of_runChecked
    (fun _ _ => queuesUnreached_of_unseen hcall) .start hrun
  exact ⟨x, hview, hreach, call_made_one sampleActions_start hreach⟩

/-- A lost answer makes two actions of one call, and an archive that is queued becomes a move. -/
theorem call_made_twice :
    (∃ x, Exchange.Reaches sampleCall (fun _ (_ : ExchangeEvent sampleLibraries) => True)
      (.start sampleActions) x ∧ ¬ sampleCall.MadeOne x.server.world.store) ∧
    ∃ x, Exchange.Reaches sampleArchive (fun _ (_ : ExchangeEvent sampleLibraries) => True)
      (.start sampleActions) x ∧ ¬ sampleArchive.MadeOne x.server.world.store := by
  constructor
  · have h : ((Exchange.start sampleActions).runChecked sampleCall (fun _ _ => true)
        sampleLost).map sampleView =
          some [("online", .markRead, [20]), ("queued", .markRead, [20])] := by decide +kernel
    obtain ⟨x, hrun, hview⟩ := Option.map_eq_some_iff.mp h
    refine ⟨x, .of_runChecked (fun _ _ _ => trivial) .start hrun, fun hone => ?_⟩
    unfold sampleView at hview
    obtain ⟨a, ha, hkeya⟩ : ∃ a ∈ x.server.world.store.actions, a.idempotencyKey = "online" := by
      obtain ⟨a, ha, heq⟩ := List.mem_map.mp (hview ▸ List.mem_cons_self ..)
      exact ⟨a, ha, congrArg Prod.fst heq⟩
    obtain ⟨b, hb, hkeyb⟩ : ∃ b ∈ x.server.world.store.actions, b.idempotencyKey = "queued" := by
      obtain ⟨b, hb, heq⟩ :=
        List.mem_map.mp (hview ▸ List.mem_cons_of_mem _ (List.mem_singleton_self _))
      exact ⟨b, hb, congrArg Prod.fst heq⟩
    have hsame := hone.once a ha b hb (.inl hkeya) (.inr hkeyb)
    rw [hsame, hkeyb] at hkeya
    exact absurd hkeya (by decide)
  · have h : ((Exchange.start sampleActions).runChecked sampleArchive (fun _ _ => true)
        (sampleUnplugged true)).map sampleView = some [("queued", .move, [20])] := by decide +kernel
    obtain ⟨x, hrun, hview⟩ := Option.map_eq_some_iff.mp h
    refine ⟨x, .of_runChecked (fun _ _ _ => trivial) .start hrun, fun hone => ?_⟩
    unfold sampleView at hview
    obtain ⟨a, ha, heq⟩ := List.mem_map.mp (hview ▸ List.mem_singleton_self _)
    have hkind : a.kind = .move := congrArg (·.2.1) heq
    have hasked := (hone.asked a ha (.inr (congrArg Prod.fst heq))).1
    rw [hkind] at hasked
    exact absurd hasked (by decide)

end MailHub.Offline
