import MailHub.Auth.Console
import MailHub.Send.Runs

/-!
# The windows of the sweeps

A sweep of the Sent-copy cycle reads a bounded window of due rows, oldest first, and runs its job on
the rows of its own generation. A row of another generation is skipped and stays due, so that it
takes a place of the window in every pass. A sweep attempts a row of its generation exactly when
fewer rows of other generations than the window holds are due before it.
-/

namespace MailHub

open Relational Interleaving

variable {libs : Libraries} {db : Database} {g : Uuid} {limit : ℕ}

/-! ## Sweeps -/

/-- The sweeps of the Sent-copy cycle. -/
inductive Sweep
  | sentCopies | unknownOutcomes

namespace Sweep

/-- The rows that are due for a sweep. -/
def isDue (db : Database) (row : OutboundMessage) : Sweep → Bool
  | sentCopies => isCopyDue db row
  | unknownOutcomes => row.status == .outcomeUnknown &&
      row.reconcileAttempts < sendSweepAttemptCap && !missingSentFolder db row

/-- The job that a sweep runs on a row; it says whether it did anything. -/
def job (s : OutboundService) (id : Uuid) : Sweep → MailProgram Bool
  | sentCopies => do
      let outcome ← executeSentCopyAppend s id
      return outcome.2
  | unknownOutcomes => do
      let outcome ← reconcileUnknownOutcome s id
      return outcome.reconciled

/-- The call of a sweep in some process. -/
def call (p : Process) (limit : ℕ) : Sweep → MailOp
  | sentCopies => .appendDueSentCopies p limit
  | unknownOutcomes => .reconcileUnknownOutcomes p limit

/-- The due rows, oldest first. -/
def dueOrder (db : Database) (kind : Sweep) : List OutboundMessage :=
  (db.outboundMessages.select fun row => kind.isDue db row).insertionSort fun a b =>
    a.createdAt ≤ b.createdAt

/-- The rows on which a sweep of generation `g` runs its job. -/
def attempted (g : Uuid) (limit : ℕ) (db : Database) (kind : Sweep) : List OutboundMessage :=
  ((kind.dueOrder db).take limit).filter fun row => g == row.recoveryGeneration

/-- How many due rows of other generations come before every due row of generation `g`. -/
def staleAhead (g : Uuid) (db : Database) (kind : Sweep) : ℕ :=
  ((kind.dueOrder db).takeWhile fun row => g != row.recoveryGeneration).length

/-- A row is due, and of generation `g`. -/
def IsDueOf (g : Uuid) (db : Database) (kind : Sweep) (row : OutboundMessage) : Prop :=
  row ∈ db.outboundMessages ∧ kind.isDue db row = true ∧ row.recoveryGeneration = g

theorem mem_dueOrder {kind : Sweep} {row : OutboundMessage} :
    row ∈ kind.dueOrder db ↔ row ∈ db.outboundMessages ∧ kind.isDue db row = true := by
  unfold dueOrder
  rw [List.mem_insertionSort, Table.mem_select]

/-- What a sweep attempts is due, and of its generation. -/
theorem isDueOf_of_mem_attempted {kind : Sweep} {row : OutboundMessage}
    (h : row ∈ kind.attempted g limit db) : kind.IsDueOf g db row := by
  obtain ⟨htake, hgeneration⟩ := List.mem_filter.mp h
  obtain ⟨hmem, hdue⟩ := mem_dueOrder.mp (List.mem_of_mem_take htake)
  exact ⟨hmem, hdue, (beq_iff_eq.mp hgeneration).symm⟩

end Sweep

/-! ## The window -/

/-- Some member of a list passes a test within its first `n` places exactly when fewer than `n`
places come before the first one that does. -/
theorem filter_take_ne_nil_iff {α : Type} {p : α → Bool} {l : List α} (h : ∃ a ∈ l, p a = true)
    (n : ℕ) : (l.take n).filter p ≠ [] ↔ (l.takeWhile fun a => !p a).length < n := by
  induction l generalizing n with
  | nil => simp at h
  | cons a l ih =>
      cases n with
      | zero => simp
      | succ n =>
          rw [List.take_succ_cons, List.filter_cons, List.takeWhile_cons]
          by_cases hp : p a = true
          · simp [hp]
          · have hrest : ∃ b ∈ l, p b = true := by
              obtain ⟨b, hb, hpb⟩ := h
              rcases List.mem_cons.mp hb with rfl | hb
              · exact absurd hpb hp
              · exact ⟨b, hb, hpb⟩
            have hn := ih hrest n
            simp only [hp, Bool.not_false, if_true, List.length_cons, Nat.add_lt_add_iff_right]
            simpa using hn

/-- A sweep attempts a row exactly when the window reaches past the rows of other generations. -/
theorem Sweep.attempted_ne_nil_iff {kind : Sweep} (h : ∃ row, kind.IsDueOf g db row) :
    kind.attempted g limit db ≠ [] ↔ kind.staleAhead g db < limit := by
  obtain ⟨row, hmem, hdue, hgeneration⟩ := h
  refine filter_take_ne_nil_iff ⟨row, Sweep.mem_dueOrder.mpr ⟨hmem, hdue⟩, ?_⟩ limit
  rw [hgeneration, beq_self_eq_true]

/-! ## One call -/

/-- Run a job on rows, one after another; a row that throws does not abort the pass. -/
def visitRows (job : Uuid → MailProgram Bool) :
    List Uuid → SweepSummary → MailProgram SweepSummary
  | [], summary => return summary
  | id :: ids, summary => do
      match ← (job id).attempt with
      | .ok true => visitRows job ids { summary with attempted := summary.attempted + 1 }
      | .ok false => visitRows job ids summary
      | .error _ => visitRows job ids { summary with rowErrors := summary.rowErrors + 1 }

/-- How many rows of a window belong to other generations. -/
def staleRows (g : Uuid) (rows : List (Uuid × Uuid)) : ℕ := rows.countP fun row => g != row.2

/-- The summary of a window before any job. -/
def windowSummary (g : Uuid) (rows : List (Uuid × Uuid)) : SweepSummary :=
  ⟨rows.length, 0, staleRows g rows, 0, false⟩

/-- What a sweep does at one row of its window. -/
def sweepRow (job : Uuid → MailProgram Bool) (g : Uuid) (row : Uuid × Uuid)
    (summary : SweepSummary) : MailProgram (ForInStep SweepSummary) :=
  if assessJob (.ready g) row.2 = .stale then
    pure (.yield { summary with skippedStale := summary.skippedStale + 1 })
  else
    (job row.1).attempt.bind fun r =>
      match r with
      | .ok true => pure (.yield { summary with attempted := summary.attempted + 1 })
      | .ok false => pure (.yield summary)
      | .error _ => pure (.yield { summary with rowErrors := summary.rowErrors + 1 })

/-- A pass over a window runs the job on the rows of the generation and counts the others. -/
theorem forIn_sweepRow (job : Uuid → MailProgram Bool) (g : Uuid) (rows : List (Uuid × Uuid))
    (summary : SweepSummary) : forIn rows summary (sweepRow job g) =
      visitRows job ((rows.filter fun row => g == row.2).map (·.1))
        { summary with skippedStale := summary.skippedStale + staleRows g rows } := by
  induction rows generalizing summary with
  | nil => rfl
  | cons row rows ih =>
      rw [List.forIn_cons]
      by_cases hg : g = row.2
      · have hassess : assessJob (.ready g) row.2 ≠ .stale := by simp [assessJob, hg]
        have hstale : staleRows g (row :: rows) = staleRows g rows := by simp [staleRows, hg]
        have hkeep : (row :: rows).filter (fun row => g == row.2) =
            row :: rows.filter fun row => g == row.2 := by simp [hg]
        rw [hstale, hkeep, sweepRow, if_neg hassess, List.map_cons, visitRows, Program.bind_eq,
          Program.bind_assoc]
        refine congrArg (Program.bind _) (funext fun r => ?_)
        rcases r with e | b
        · exact ih _
        · cases b <;> exact ih _
      · have hassess : assessJob (.ready g) row.2 = .stale := if_neg hg
        have hstale : staleRows g (row :: rows) = staleRows g rows + 1 := by simp [staleRows, hg]
        have hskip : (row :: rows).filter (fun row => g == row.2) =
            rows.filter fun row => g == row.2 := by simp [hg]
        rw [hstale, hskip, sweepRow, if_pos hassess, Nat.add_comm (staleRows g rows),
          ← Nat.add_assoc]
        exact ih _

/-- A sweep reads the control state and its window, and runs its job on the rows of its
generation. -/
theorem sweep_eq (s : OutboundService) (due : Database → List (Uuid × Uuid))
    (job : Uuid → MailProgram Bool) : sweep s due job =
      (MailProgram.query (readStatus s.generation)).bind fun status =>
        match status with
        | .ready g => (MailProgram.query due).bind fun rows =>
            visitRows job ((rows.filter fun row => g == row.2).map (·.1)) (windowSummary g rows)
        | _ => .pure ⟨0, 0, 0, 0, true⟩ := by
  unfold sweep
  simp only [Program.bind_eq]
  congr 1
  funext status
  cases status with
  | ready g =>
      simp only []
      congr 1
      funext rows
      refine (Program.bind_pure _).trans ((forIn_sweepRow job g rows _).trans ?_)
      simp only [Nat.zero_add, windowSummary]
  | _ => rfl

/-! ## Service of a generation -/

/-- A call of a sweep reads the control state, and then its window, and runs its job on the rows of
its generation. -/
theorem Sweep.run_call (kind : Sweep) (p : Process) (limit : ℕ) :
    (kind.call p limit).run libs =
      (MailProgram.query (readStatus p.generation)).bind fun status =>
        (match status with
        | .ready g =>
            (MailProgram.query fun db => dueRows (fun row => kind.isDue db row) limit db).bind
              fun rows => visitRows (fun id => kind.job (p.service libs) id)
                ((rows.filter fun row : Uuid × Uuid => g == row.2).map fun row => row.1)
                (windowSummary g rows)
        | _ => .pure ⟨0, 0, 0, 0, true⟩ : MailProgram SweepSummary).bind fun _ => .pure () := by
  have hsweep := sweep_eq (p.service libs) (fun db => dueRows (fun row => kind.isDue db row) limit db)
    fun id => kind.job (p.service libs) id
  have hcall : (kind.call p limit).run libs = (sweep (p.service libs)
      (fun db => dueRows (fun row => kind.isDue db row) limit db)
        fun id => kind.job (p.service libs) id).bind fun _ => .pure () := by
    cases kind <;> rfl
  rw [hcall, hsweep, Program.bind_assoc]
  rfl

/-- What a sweep of generation `g` has left to do after it read its window. -/
def Sweep.pass (p : Process) (libs : Libraries) (g : Uuid) (limit : ℕ) (db : Database)
    (kind : Sweep) : MailProgram Unit :=
  (visitRows (fun id => kind.job (p.service libs) id) ((kind.attempted g limit db).map (·.id))
    (windowSummary g (dueRows (fun row => kind.isDue db row) limit db))).bind fun _ => .pure ()

/-- The rows of the generation in a window are the rows that a sweep attempts. -/
theorem Sweep.map_attempted (kind : Sweep) : (kind.attempted g limit db).map (fun row => row.id) =
    ((dueRows (fun row => kind.isDue db row) limit db).filter
      fun row : Uuid × Uuid => g == row.2).map fun row => row.1 := by
  unfold attempted dueRows dueOrder
  rw [List.filter_map, List.map_map]
  rfl

/-- A worker calls a sweep in generation `g`, and others may run between its two reads: it then runs
its job on `attempted`, and that holds a due row of generation `g` exactly when fewer due rows of
other generations come before all of these than the window holds. -/
theorem sweeps_serve_iff {kind : Sweep} {p : Process} {i : ℕ}
    {c₁ c₁' c₂ c₃ : Config mailSignature MailLog}
    (hcall : c₁.workers[i]? = some ((kind.call p limit).run libs))
    (hready : readStatus p.generation c₁.world.store = .ready g)
    (hstatus : c₁.fire (mailSystem libs) (.commit i) = some c₁')
    (hstill : c₂.workers[i]? = c₁'.workers[i]?)
    (hdue : ∃ row, kind.IsDueOf g c₂.world.store row)
    (hwindow : c₂.fire (mailSystem libs) (.commit i) = some c₃) :
    c₃.workers[i]? = some (kind.pass p libs g limit c₂.world.store) ∧
      ((∃ row ∈ kind.attempted g limit c₂.world.store, kind.IsDueOf g c₂.world.store row) ↔
        kind.staleAhead g c₂.world.store < limit) := by
  constructor
  · rw [Sweep.run_call] at hcall
    have hstatusRead := Config.fire_read hcall hstatus
    rw [← hstill, hready] at hstatusRead
    have hwindowRead := Config.fire_read ((congrArg some (Program.bind_assoc ..)).symm.trans
      hstatusRead.symm).symm hwindow
    rw [hwindowRead, Sweep.pass, Sweep.map_attempted]
  · rw [← Sweep.attempted_ne_nil_iff hdue]
    constructor
    · rintro ⟨row, hrow, -⟩ hnil
      rw [hnil] at hrow
      simp at hrow
    · intro hne
      obtain ⟨row, hrow⟩ := List.exists_mem_of_ne_nil _ hne
      exact ⟨row, hrow, Sweep.isDueOf_of_mem_attempted hrow⟩

/-! ## Samples -/

/-- A transaction of the recovery commands, as the mail services see it. -/
def recoveryOp {β : Type} (auth : Auth.AuthDatabase) (t : Auth.AuthTx β) : MailOp :=
  .elsewhere (fun db => match t.run { auth with mail := db } with
      | .ok (_, after) => { db with serviceState := after.mail.serviceState }
      | .error _ => db)
    (fun db => by split <;> exact ⟨rfl, rfl, rfl, rfl⟩)
    fun db => by split <;> exact ⟨rfl, fun _ => rfl⟩

/-- An owner with one passkey. -/
def sampleOwner : Auth.AuthDatabase where
  mail := .empty
  owner := ⟨[⟨true, 1⟩], by decide⟩
  ownerCredentials :=
    ⟨[⟨2, 1, "passkey", "Laptop", "key", 0, none, none, false, none, 0, none⟩], by decide⟩
  ownerSessions := .empty
  webauthnChallenges := .empty
  enrollmentGrants := .empty
  trail := []
  ownerLock := none
  nextTransaction := 0

/-- Libraries in which the length of the bytes is their hash and tells the identifier. -/
def sampleMimes : Libraries :=
  { sampleLibraries with
    sha256Hex := fun bytes => toString bytes.length
    composeMime := fun input => .ok (List.replicate input.date 0)
    simpleParser := fun bytes => .ok
      { messageId := some (rfcMessageIdOf "a@b.cc" bytes.length), inReplyTo := none,
        referenceIds := [], sender := none, replyTo := none, recipients := none, subject := none,
        sentAt := none, textPlain := none, html := none, attachments := [] } }

/-- The answers of `sampleReply`, in which the storage holds the bytes of send `n`. -/
def sampleHeld (n : ℕ) : (c : MailCall) → Except Failure c.Answer
  | .storagePut _ bytes => .ok ⟨toString bytes.length, bytes.length⟩
  | .storageGet _ => .ok (List.replicate n 0)
  | c => sampleReply n c

/-- Worker `i` creates draft `100 + n` under generation `g`, worker `i + 1` queues it as row
`200 + n`, and worker `i + 2` works the row up to its submission. -/
def sampleSend (g n i : ℕ) (key : String) : List (Event (mailSystem sampleMimes)) :=
  let p : Process := ⟨some g, true, true⟩
  [.spawn (.createDraft p (some g) ⟨1, none, some { «to» := [⟨"c@d.ee", none⟩] }, none, none⟩),
    .commit i, .commit i, .answer i (sampleReply (100 + n)), .answer i (sampleHeld n), .commit i,
    .spawn (.queueSend p (some g) ⟨100 + n, key, 1⟩),
    .commit (i + 1), .commit (i + 1), .commit (i + 1), .commit (i + 1), .commit (i + 1),
    .answer (i + 1) (sampleHeld n), .answer (i + 1) (sampleHeld n),
    .answer (i + 1) (sampleReply (200 + n)), .answer (i + 1) (sampleHeld n),
    .answer (i + 1) (sampleHeld n), .commit (i + 1),
    .spawn (.executeOutbound p (200 + n)), .commit (i + 2), .commit (i + 2),
    .answer (i + 2) (sampleHeld n), .commit (i + 2), .answer (i + 2) (sampleHeld n),
    .answer (i + 2) (sampleHeld n)]

/-- The answer of the server is lost. -/
def sampleLost (i : ℕ) : List (Event (mailSystem sampleMimes)) :=
  [.answer i fun _ => .error (.port "gone"), .commit i]

/-- The server accepts, worker `i + 1` appends the Sent copy, and the server refuses the append. -/
def sampleRefused (g n i : ℕ) : List (Event (mailSystem sampleMimes)) :=
  [.answer i (sampleHeld n), .answer i (sampleReply (300 + n)), .answer i (sampleHeld n),
    .commit i, .spawn (.executeSentCopyAppend ⟨some g, true, true⟩ (200 + n)), .commit (i + 1),
    .commit (i + 1), .commit (i + 1), .answer (i + 1) (sampleHeld n), .commit (i + 1),
    .answer (i + 1) (sampleHeld n), .answer (i + 1) (sampleHeld n),
    .answer (i + 1) (sampleHeld n), .answer (i + 1) (sampleHeld n),
    .answer (i + 1) (sampleHeld n), .commit (i + 1), .answer (i + 1) (sampleHeld n)]

/-- One send whose row stays due for a sweep after its first attempt. -/
def Sweep.sampleDue (g n i : ℕ) (key : String) : Sweep → List (Event (mailSystem sampleMimes))
  | sentCopies => sampleSend g n i key ++ sampleRefused g n (i + 2)
  | unknownOutcomes => sampleSend g n i key ++ sampleLost (i + 2)

/-- Sends of generation 1 leave due rows, the service recovers to generation 2, and one more send
leaves a due row. -/
def Sweep.sampleRestored (keys : List String) (kind : Sweep) :
    List (Event (mailSystem sampleMimes)) :=
  let width := match kind with
    | sentCopies => 4
    | unknownOutcomes => 3
  let i := width * keys.length
  (keys.zipIdx.flatMap fun (key, n) => kind.sampleDue 1 n (width * n) key) ++
    [.spawn (recoveryOp sampleOwner (Auth.commitBeginRecovery 2 0)), .commit i,
      .spawn (recoveryOp sampleOwner (Auth.commitCompleteRecovery 2)), .commit (i + 1)] ++
    kind.sampleDue 2 keys.length (i + 2) "last"

/-- What the samples show of a moment. -/
structure SweepView where
  status : ControlStatus
  /-- The due rows of generation 2. -/
  due : List Uuid
  /-- The rows that a sweep of generation 2 attempts. -/
  attempted : List Uuid
  staleAhead : ℕ
  /-- What a sweep that attempts nothing reports. -/
  summary : Option SweepSummary
  deriving DecidableEq

/-- The view of one moment. -/
def sweepView (c : Config mailSignature MailLog) (kind : Sweep) : SweepView where
  status := readStatus (some 2) c.world.store
  due := ((kind.dueOrder c.world.store).filter fun row => row.recoveryGeneration == 2).map (·.id)
  attempted := (kind.attempted 2 defaultSendSweepLimit c.world.store).map (·.id)
  staleAhead := kind.staleAhead 2 c.world.store
  summary :=
    let s := (⟨some 2, true, true⟩ : Process).service sampleMimes
    let run := match kind with
      | .sentCopies => appendDueSentCopies s defaultSendSweepLimit
      | .unknownOutcomes => reconcileUnknownOutcomes s defaultSendSweepLimit
    (run.alone c.world.store).bind fun r => r.1.toOption

theorem isDueOf_of_mem_due {c : Config mailSignature MailLog} {kind : Sweep} (id : Uuid)
    (h : id ∈ (sweepView c kind).due) : ∃ row, kind.IsDueOf 2 c.world.store row := by
  obtain ⟨row, hrow, -⟩ := List.mem_map.mp h
  obtain ⟨horder, hgeneration⟩ := List.mem_filter.mp hrow
  obtain ⟨hmem, hisDue⟩ := Sweep.mem_dueOrder.mp horder
  exact ⟨row, hmem, hisDue, beq_iff_eq.mp hgeneration⟩

/-- A due row of generation 2 waits behind ten rows of generation 1: a sweep attempts nothing. -/
def Sweep.Starved (kind : Sweep) : Prop :=
  ∃ c, Reaches (mailSystem sampleMimes) .free sampleStart c ∧
    readStatus (some 2) c.world.store = .ready 2 ∧
    (∃ row, kind.IsDueOf 2 c.world.store row) ∧
    ¬ (∃ row ∈ kind.attempted 2 defaultSendSweepLimit c.world.store,
      kind.IsDueOf 2 c.world.store row) ∧
    (sweepView c kind).summary = some ⟨10, 0, 10, 0, false⟩

theorem starved_of_sampleRestored (kind : Sweep) : kind.Starved := by
  have h : (sampleStart.run (mailSystem sampleMimes)
      (kind.sampleRestored ["a", "b", "c", "d", "e", "f", "g", "h", "i", "j"])).map
        (sweepView · kind) = some ⟨.ready 2, [210], [], 10, some ⟨10, 0, 10, 0, false⟩⟩ := by
    cases kind
    · decide +kernel
    · decide +kernel
  obtain ⟨c, hrun, hview⟩ := Option.map_eq_some_iff.mp h
  refine ⟨c, .of_run hrun, congrArg (·.status) hview, ?_, ?_, congrArg (·.summary) hview⟩
  · refine isDueOf_of_mem_due 210 ?_
    rw [hview]
    exact List.mem_singleton.mpr rfl
  · rintro ⟨row, hrow, -⟩
    have hmem : row.id ∈ (sweepView c kind).attempted := List.mem_map.mpr ⟨row, hrow, rfl⟩
    rw [hview] at hmem
    exact absurd hmem List.not_mem_nil

/-- Ten due rows of generation 1 survive the recovery and fill the window of either sweep, so a due
row of generation 2 is never attempted. -/
theorem sweeps_starved :
    Sweep.sentCopies.Starved ∧ Sweep.unknownOutcomes.Starved :=
  ⟨starved_of_sampleRestored .sentCopies, starved_of_sampleRestored .unknownOutcomes⟩

/-- The views of a call of a sweep by worker 11, before and after its read of the control state. -/
def sweepCallViews (c : Config mailSignature MailLog) : Option (SweepView × SweepView) :=
  let called : Config mailSignature MailLog :=
    ⟨c.world, c.workers ++ [(Sweep.unknownOutcomes.call ⟨some 2, true, true⟩
      defaultSendSweepLimit).run sampleMimes]⟩
  (called.fire (mailSystem sampleMimes) (.commit 11)).bind fun c' =>
    (c'.fire (mailSystem sampleMimes) (.commit 11)).map fun _ =>
      (sweepView called .unknownOutcomes, sweepView c' .unknownOutcomes)

/-- Two due rows of generation 1 leave the sweep of generation 2 room for its own row. -/
theorem sweeps_serve_sample : ∃ c₁ c₂ c₃,
    Reaches (mailSystem sampleMimes) .free sampleStart c₁ ∧
      c₁.fire (mailSystem sampleMimes) (.commit 11) = some c₂ ∧
      c₂.fire (mailSystem sampleMimes) (.commit 11) = some c₃ ∧
      c₃.workers[11]? = some (Sweep.unknownOutcomes.pass ⟨some 2, true, true⟩ sampleMimes 2
        defaultSendSweepLimit c₂.world.store) ∧
      ∃ row ∈ Sweep.unknownOutcomes.attempted 2 defaultSendSweepLimit c₂.world.store,
        Sweep.unknownOutcomes.IsDueOf 2 c₂.world.store row := by
  have h : ((sampleStart.run (mailSystem sampleMimes)
      (Sweep.unknownOutcomes.sampleRestored ["a", "b"])).bind fun c =>
        (sweepCallViews c).map fun views => (c.workers.length, views)) =
      some (11, ⟨.ready 2, [202], [202], 2, none⟩, ⟨.ready 2, [202], [202], 2, none⟩) := by
    decide +kernel
  obtain ⟨c, hrun, hviews⟩ := Option.bind_eq_some_iff.mp h
  obtain ⟨views, hcalls, hviews⟩ := Option.map_eq_some_iff.mp hviews
  obtain ⟨hlength, rfl⟩ := Prod.mk.inj hviews
  obtain ⟨c₂, hstatus, hrest⟩ := Option.bind_eq_some_iff.mp hcalls
  obtain ⟨c₃, hwindow, hpair⟩ := Option.map_eq_some_iff.mp hrest
  obtain ⟨hbefore, hafter⟩ := Prod.mk.inj hpair
  have hcall : (⟨c.world, c.workers ++ [(Sweep.unknownOutcomes.call ⟨some 2, true, true⟩
      defaultSendSweepLimit).run sampleMimes]⟩ : Config mailSignature MailLog).workers[11]? =
        some ((Sweep.unknownOutcomes.call ⟨some 2, true, true⟩ defaultSendSweepLimit).run
          sampleMimes) := by
    rw [← hlength, List.getElem?_concat_length]
  have hdue : ∃ row, Sweep.unknownOutcomes.IsDueOf 2 c₂.world.store row := by
    refine isDueOf_of_mem_due 202 ?_
    rw [hafter]
    exact List.mem_singleton.mpr rfl
  have hserves := sweeps_serve_iff hcall (congrArg (·.status) hbefore) hstatus rfl hdue
    hwindow
  refine ⟨_, c₂, c₃, .trans (.of_run hrun) (.next (.spawn (Sweep.unknownOutcomes.call
    ⟨some 2, true, true⟩ defaultSendSweepLimit)) .start trivial rfl), hstatus, hwindow,
    hserves.1, hserves.2.mpr ?_⟩
  have hstale : Sweep.unknownOutcomes.staleAhead 2 c₂.world.store = 2 :=
    congrArg (·.staleAhead) hafter
  rw [hstale]
  decide

end MailHub
