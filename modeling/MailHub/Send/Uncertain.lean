import MailHub.Interleaving.Roles
import MailHub.Send.Runs

/-!
# Checking an uncertain send

The answer to a send request was lost, so the editor does not know whether the server queued the
draft. It reads the draft once more and takes the send lock for the evidence: without a lock it says
that nothing was sent. The lock is released again when the send is accepted or fails.
-/

namespace MailHub

open Relational Interleaving

variable {libs : Libraries} {ops : ℕ → MailOp} {input : QueueSendInput} {db : Database}
  {c₀ c : Config mailSignature MailLog}

/-! ## The check -/

/-- Read one live draft. A deleted draft is gone. -/
def readDraft (draftId : Uuid) (db : Database) : Except Failure DraftRecord :=
  match (db.drafts.find? draftId).filter (·.deletedAt.isNone) with
  | some row => toDraftRecord row
  | none => .error draftNotFound

/-- What the editor shows after a check: the send that it follows from now on, or a note. -/
inductive UncertainCheck
  | target (outboundId : Uuid)
  | note (text : String)
  deriving DecidableEq, Repr

/-- The note that says so. -/
def nothingSent : String := "The server holds no queued send for this draft. Nothing was sent."

/-- Resolve an uncertain queue request: the draft lock is the evidence. -/
def checkUncertain (draftId : Uuid) (db : Database) : UncertainCheck :=
  match readDraft draftId db with
  | .ok read =>
      match read.lockedBySend with
      | some outboundId => .target outboundId
      | none => .note nothingSent
  | .error _ => .note "The draft cannot be read right now. Try again."

/-- A draft that is live, readable and not locked. -/
structure Draft.IsOpen (draft : Draft) : Prop where
  live : draft.deletedAt = none
  unlocked : draft.lockedBySend = none
  readable : ∃ read, toDraftRecord draft = .ok read

theorem readDraft_eq_ok {draftId : Uuid} {read : DraftRecord} : readDraft draftId db = .ok read ↔
    ∃ draft, db.drafts.find? draftId = some draft ∧ draft.deletedAt = none ∧
      toDraftRecord draft = .ok read := by
  unfold readDraft
  constructor
  · intro h
    split at h
    next row hrow =>
      obtain ⟨hfind, hlive⟩ := Option.filter_eq_some_iff.mp hrow
      exact ⟨row, hfind, Option.isNone_iff_eq_none.mp hlive, h⟩
    next => simp at h
  · rintro ⟨row, hfind, hlive, hread⟩
    simp [hfind, Option.filter, hlive, hread]

/-- A record has the lock of its row. -/
theorem lockedBySend_toDraftRecord {draft : Draft} {read : DraftRecord}
    (h : toDraftRecord draft = .ok read) : read.lockedBySend = draft.lockedBySend := by
  unfold toDraftRecord at h
  obtain ⟨recipients, -, h⟩ := bind_eq_ok.mp h
  obtain rfl := Except.ok.inj h
  rfl

/-- The check says that nothing was sent for exactly the open drafts. -/
theorem checkUncertain_eq_nothingSent {draftId : Uuid} :
    checkUncertain draftId db = .note nothingSent ↔
      ∃ draft, db.drafts.find? draftId = some draft ∧ draft.IsOpen := by
  have hread : checkUncertain draftId db = .note nothingSent ↔
      ∃ read, readDraft draftId db = .ok read ∧ read.lockedBySend = none := by
    unfold checkUncertain
    cases readDraft draftId db with
    | error e => simp [nothingSent]
    | ok read => cases hlocked : read.lockedBySend <;> simp [hlocked]
  rw [hread]
  constructor
  · rintro ⟨read, hok, hlocked⟩
    obtain ⟨draft, hfind, hlive, hrecord⟩ := readDraft_eq_ok.mp hok
    exact ⟨draft, hfind, hlive, (lockedBySend_toDraftRecord hrecord).symm.trans hlocked, read, hrecord⟩
  · rintro ⟨draft, hfind, hlive, hunlocked, read, hrecord⟩
    exact ⟨read, readDraft_eq_ok.mpr ⟨draft, hfind, hlive, hrecord⟩,
      (lockedBySend_toDraftRecord hrecord).trans hunlocked⟩

/-! ## When it is right -/

/-- A send that a request created. -/
structure OutboundMessage.IsOf (row : OutboundMessage) (input : QueueSendInput) : Prop where
  draftId : row.draftId = some input.draftId
  key : row.idempotencyKey = input.idempotencyKey

/-- A worker runs the request. -/
def Requests (ops : ℕ → MailOp) (input : QueueSendInput) (i : ℕ) : Prop :=
  ∃ p g, ops i = .queueSend p g input

/-- The check may say that nothing was sent: the request created no send, and none of the workers
that run it will create one. -/
structure CheckSound (libs : Libraries) (ops : ℕ → MailOp) (input : QueueSendInput)
    (c : Config mailSignature MailLog) : Prop where
  none_created : checkUncertain input.draftId c.world.store = .note nothingSent →
    ∀ row ∈ c.world.store.outboundMessages, ¬ row.IsOf input
  none_later : checkUncertain input.draftId c.world.store = .note nothingSent →
    ∀ i, Requests ops input i → ∀ c₁ c₂, ReachesAs (mailSystem libs) ops .free c c₁ →
      c₁.fire (mailSystem libs) (.commit i) = some c₂ → ∀ row ∈ c₂.world.store.outboundMessages,
        row.IsOf input → ∃ row₁ ∈ c₁.world.store.outboundMessages, row₁.id = row.id

/-- The request left the server: every worker that runs it has ended. -/
def RequestEnded (ops : ℕ → MailOp) (input : QueueSendInput) (c : Config mailSignature MailLog) :
    Prop :=
  ∀ i, Requests ops input i → c.HasEnded i

/-- The send that the request created was accepted or has failed, and its draft is open again. -/
def Concluded (input : QueueSendInput) (db : Database) : Prop :=
  (∃ draft, db.drafts.find? input.draftId = some draft ∧ draft.IsOpen) ∧
    ∃ row ∈ db.outboundMessages, row.IsOf input ∧ (row.status = .sent ∨ row.status = .failed)

/-- A send of the request that is not concluded holds its draft. -/
theorem Consistent.not_open (hc : Consistent libs db) {row : OutboundMessage}
    (hrow : row ∈ db.outboundMessages) (hof : row.IsOf input)
    (hstatus : ¬ (row.status = .sent ∨ row.status = .failed)) :
    ¬ ∃ draft, db.drafts.find? input.draftId = some draft ∧ draft.IsOpen := by
  rintro ⟨draft, hfind, hopen⟩
  have hunresolved : row.status.isUnresolved = true := by
    cases hs : row.status <;> simp_all [OutboundStatus.isUnresolved]
  have hlocked := (hc.locked_iff _ draft _ hfind).mpr
    ⟨row, Table.mem_iff_find?.mp hrow, hof.draftId, hunresolved⟩
  simp [hopen.unlocked] at hlocked

/-- Once the request has left the server, the check is right unless its send is concluded. -/
theorem check_sound_iff (h₀ : MailStart c₀) (h : ReachesAs (mailSystem libs) ops .free c₀ c)
    (hended : RequestEnded ops input c) :
    CheckSound libs ops input c ↔ ¬ Concluded input c.world.store := by
  have hconsistent := (run_sound h₀ h.reaches).inv.consistent
  constructor
  · rintro hsound ⟨hopen, row, hrow, hof, -⟩
    exact hsound.none_created (checkUncertain_eq_nothingSent.mpr hopen) row hrow hof
  · intro hnot
    refine ⟨fun hsays row hrow hof => ?_, fun _ i hi c₁ c₂ h₁ hfire => ?_⟩
    · have hopen := checkUncertain_eq_nothingSent.mp hsays
      refine hconsistent.not_open hrow hof (fun hstatus => hnot ?_) hopen
      exact ⟨hopen, row, hrow, hof, hstatus⟩
    · have hgone := (hended i hi).reaches h₁.reaches
      simp [hgone.commits_nothing] at hfire

/-! ## Samples -/

/-- The request of the samples. -/
def sampleRequest : QueueSendInput := ⟨10, "key", 1⟩

/-- The roles of the samples: worker 1 runs the request. -/
def sampleRoles (es : List (Event (mailSystem sampleLibraries))) : ℕ → MailOp :=
  rolesOf (MailOp.recoverAbandonedAttempts sampleProcess) es

/-- What the owner is told, every send with its draft and its key, and whether worker 1 has
ended. -/
structure CheckView where
  told : UncertainCheck
  sends : List (Option Uuid × String × OutboundStatus)
  ended : Bool
  deriving DecidableEq

def checkView (c : Config mailSignature MailLog) : CheckView :=
  ⟨checkUncertain 10 c.world.store,
    c.world.store.outboundMessages.rows.map fun row => (row.draftId, row.idempotencyKey, row.status),
    (c.workers[1]?).any (·.finished)⟩

/-- What a sample run leaves: a reachable moment, after the request has left the server. -/
theorem sample_ended {es : List (Event (mailSystem sampleLibraries))} {view : CheckView}
    (h : (sampleStart.runChecked (mailSystem sampleLibraries) (fun _ _ => true) es).map checkView =
      some view) (hended : view.ended = true)
    (hroles : ∀ i, Requests (sampleRoles es) sampleRequest i → i = 1) :
    ∃ c, ReachesAs (mailSystem sampleLibraries) (sampleRoles es) .free sampleStart c ∧
      checkView c = view ∧ RequestEnded (sampleRoles es) sampleRequest c := by
  obtain ⟨c, hrun, rfl⟩ := Option.map_eq_some_iff.mp h
  refine ⟨c, .of_events (fun _ _ _ => Policy.free_meets ..) rfl _ hrun, rfl, fun i hi => ?_⟩
  obtain rfl := hroles i hi
  obtain ⟨p, hp, hfinished⟩ := (Option.any_eq_true ..).mp hended
  exact ⟨p, hp, hfinished⟩

/-- The process that took the request dies before it queues the send. -/
def sampleDies : List (Event (mailSystem sampleLibraries)) := sampleQueue.take 10 ++ [.stop 1]

/-- Nothing was sent, and the owner is told so. -/
theorem check_sound_sample : ∃ c, checkUncertain 10 c.world.store = .note nothingSent ∧
    ReachesAs (mailSystem sampleLibraries) (sampleRoles sampleDies) .free sampleStart c ∧
      (CheckSound sampleLibraries (sampleRoles sampleDies) sampleRequest c ↔
        ¬ Concluded sampleRequest c.world.store) := by
  have h : (sampleStart.runChecked (mailSystem sampleLibraries) (fun _ _ => true) sampleDies).map
      checkView = some ⟨.note nothingSent, [], true⟩ := by decide +kernel
  have hroles : ∀ i, Requests (sampleRoles sampleDies) sampleRequest i → i = 1 := by
    rintro (_ | _ | i) ⟨p, g, hop⟩
    · cases hop
    · rfl
    · cases hop
  obtain ⟨c, hreach, hview, hended⟩ := sample_ended h rfl hroles
  exact ⟨c, congrArg CheckView.told hview, hreach, check_sound_iff sampleStart_start hreach hended⟩

/-- The send was accepted, and the owner is told that nothing was sent. -/
theorem check_misleads : ∃ ops c, MailStart sampleStart ∧
    ReachesAs (mailSystem sampleLibraries) ops .free sampleStart c ∧
      RequestEnded ops sampleRequest c ∧
        ¬ CheckSound sampleLibraries ops sampleRequest c := by
  have h : (sampleStart.runChecked (mailSystem sampleLibraries) (fun _ _ => true)
      (sampleQueue ++ sampleAccept)).map checkView =
        some ⟨.note nothingSent, [(some 10, "key", .sent)], true⟩ := by decide +kernel
  have hroles : ∀ i, Requests (sampleRoles (sampleQueue ++ sampleAccept)) sampleRequest i →
      i = 1 := by
    rintro (_ | _ | _ | i) ⟨p, g, hop⟩
    · cases hop
    · rfl
    · cases hop
    · cases hop
  obtain ⟨c, hreach, hview, hended⟩ := sample_ended h rfl hroles
  refine ⟨_, c, sampleStart_start, hreach, hended, fun hsound => ?_⟩
  have htold : checkUncertain 10 c.world.store = .note nothingSent := congrArg CheckView.told hview
  have hsends : c.world.store.outboundMessages.rows.map (fun row =>
      (row.draftId, row.idempotencyKey, row.status)) = [(some 10, "key", .sent)] :=
    congrArg CheckView.sends hview
  obtain ⟨row, hrow, heq⟩ := List.mem_map.mp (hsends ▸ List.mem_singleton_self _)
  simp only [Prod.mk.injEq] at heq
  exact hsound.none_created htold row hrow ⟨heq.1, heq.2.1⟩

end MailHub
