import MailHub.Home.Service
import MailHub.Interleaving.Safety
import Mathlib.Logic.Function.Basic

/-!
# The visit boundary passes over nothing

A Home read sees the messages that are committed when it reads the section of arrivals, and stores
the newest ingestion time that it finds later. A message that commits in between, or one that
commits late with an early time, can lie behind the boundary although no visit could show it. The
boundary covers only what was committed in every run in which arrivals are newer than the
boundaries that are stored or about to be stored, and newer than what a read finds after them.
-/

namespace MailHub.Home

open Relational Interleaving

open HomeProgram (lift query queryAs ask)

/-! ## The system -/

/-- A message as it appeared: its identifier and its ingestion time. -/
structure Arrival where
  messageId : Uuid
  ingestedAt : Instant
  deriving DecidableEq, Repr

/-- The arrivals that are committed. -/
def arrivals (db : Database) : List Arrival :=
  db.messages.rows.map fun m => ⟨m.id, m.ingestedAt⟩

/-- A transaction of another service: the messages that it adds carry the time at which it started,
and it leaves the visit boundaries alone. -/
structure Stamps (f : Instant → Database → Database) : Prop where
  arrivals : ∀ t db, ∀ a ∈ arrivals (f t db), a ∈ arrivals db ∨ a.ingestedAt = t
  visits : ∀ t db, (f t db).homeVisits = db.homeVisits

/-- One operation. -/
inductive HomeOp
  | readHome (input : HomeReadInput)
  /-- A transaction of another service, an ingestion for example. -/
  | ingest (f : Instant → Database → Database) (hf : Stamps f)

/-- The program of one operation; its result goes back to the caller. -/
def HomeOp.run (lower : String → String) : HomeOp → HomeProgram Unit
  | readHome input => do let _ ← Home.readHome lower input
  | ingest f _ => do
      let start ← ask .transactionStart
      Program.transaction (S := homeSignature) none (modify (f start))

/-- What a Home read had before it when it read the section of arrivals. -/
structure SinceRead where
  worker : ℕ
  deviceId : String
  arrivals : List Arrival
  deriving DecidableEq, Repr

/-- A boundary that a Home read raised, with the arrivals that were committed when that read, or an
earlier one of the device, read the section of arrivals. -/
structure Raise where
  deviceId : String
  boundary : Instant
  seen : List Arrival
  deriving DecidableEq, Repr

/-- A boundary that a worker has read for its device and is about to store. -/
structure Pending where
  worker : ℕ
  deviceId : String
  next : Instant
  deriving DecidableEq, Repr

/-- What happened so far. -/
structure HomeLog where
  reads : List SinceRead
  /-- The boundaries of the workers that are still there. -/
  pending : List Pending
  raises : List Raise

/-- The log at the start. -/
def HomeLog.empty : HomeLog := ⟨[], [], []⟩

/-- The arrivals that the reads of a device by workers up to `i` had before them; workers are
numbered in the order in which they start. -/
def HomeLog.seen (log : HomeLog) (i : ℕ) (deviceId : String) : List Arrival :=
  (log.reads.filter fun r => r.deviceId == deviceId && r.worker ≤ i).flatMap (·.arrivals)

/-- The log after a commit. -/
def HomeLog.afterCommit (i : ℕ) (db db' : Database) (log : HomeLog) : Option HomeTag → HomeLog
  | some (.readSince deviceId) =>
      { log with reads := log.reads ++ [⟨i, deviceId, arrivals db⟩] }
  | some (.readNewest deviceId) =>
      { log with
        pending := log.pending ++ ((newestIngestion db).map fun t => ⟨i, deviceId, t⟩).toList }
  | some (.advance deviceId) =>
      -- a boundary that was there already is not raised
      match visitBoundary deviceId db' with
      | some boundary =>
          if visitBoundary deviceId db = some boundary then log
          else { log with raises := log.raises ++ [⟨deviceId, boundary, log.seen i deviceId⟩] }
      | none => log
  | none => log

/-- Home next to the other services; every statement may meet a database fault. -/
def homeSystem (lower : String → String) : System homeSignature HomeLog where
  Op := HomeOp
  program := HomeOp.run lower
  Tick := Empty
  advance := fun t => nomatch t
  respond := fun _ _ _ log => some log
  fault := Failure.isDatabaseFault
  observe := fun i tag db db' log => log.afterCommit i db db' tag
  observe_read := fun _ _ _ => rfl
  retire := fun i log => { log with pending := log.pending.filter (·.worker ≠ i) }

/-- The database and the log. -/
abbrev HomeWorld := World homeSignature HomeLog

/-! ## The property and its condition -/

/-- Every message at or before a raised boundary was committed when the read that raised it, or an
earlier one of the device, read the section of arrivals. -/
def VisitsCover (w : HomeWorld) : Prop :=
  ∀ r ∈ w.outside.raises, ∀ a ∈ arrivals w.store, a.ingestedAt ≤ r.boundary → a ∈ r.seen

/-- A new arrival is newer than every boundary that a read has stored or is about to store, and
what arrived after a read of the arrivals is newer than the newest time that the read goes on to
find, in whole milliseconds. -/
def arrivesLater : Policy homeSignature HomeLog where
  commit i tag w w' :=
    (∀ a ∈ arrivals w'.store, a ∉ arrivals w.store →
      (∀ r ∈ w.outside.raises, r.boundary < a.ingestedAt) ∧
        ∀ p ∈ w.outside.pending, p.next < a.ingestedAt) ∧
    ∀ deviceId, tag = some (.readNewest deviceId) →
      ∀ a ∈ arrivals w.store, a ∉ w.outside.seen i deviceId →
        ∀ next, newestIngestion w.store = some next → next < a.ingestedAt
  call _ _ _ _ := True

/-! ## The discipline -/

variable {lower : String → String} {i : ℕ} {α : Type} {w w' : HomeWorld} {db db' : Database}
variable {log : HomeLog}

/-- Every arrival at or before a boundary that a worker is about to store was committed when the
worker, or an earlier one of its device, read the section of arrivals. -/
def PendingCovers (w : HomeWorld) : Prop :=
  ∀ p ∈ w.outside.pending, ∀ a ∈ arrivals w.store, a.ingestedAt ≤ p.next →
    a ∈ w.outside.seen p.worker p.deviceId

/-- What the reads of a device had before them is remembered. -/
theorem HomeLog.seen_append (log : HomeLog) (r : SinceRead) (i : ℕ) (deviceId : String)
    {a : Arrival} (h : a ∈ log.seen i deviceId) :
    a ∈ ({ log with reads := log.reads ++ [r] } : HomeLog).seen i deviceId := by
  unfold HomeLog.seen at h ⊢
  rw [List.filter_append, List.flatMap_append]
  exact List.mem_append_left _ h

/-- The discipline of Home: boundaries cover what was read, and a worker relies on what it is about
to store. -/
def homeDiscipline (lower : String → String) : Discipline (homeSystem lower) where
  inv := fun w => VisitsCover w ∧ PendingCovers w
  rely := fun i w w' => ∀ p ∈ w.outside.pending, p.worker = i → p ∈ w'.outside.pending
  assumes := arrivesLater
  ensures := .free
  rely_refl := fun _ _ _ hp _ => hp
  rely_trans := fun _ _ _ _ h₁ h₂ p hp hi => h₂ p (h₁ p hp hi) hi
  ensures_read := fun _ _ _ => trivial
  inv_tick := fun _ t => nomatch t
  rely_tick := fun _ _ t => nomatch t
  inv_retire := fun _ _ h => ⟨h.1, fun p hp => h.2 p (List.mem_of_mem_filter hp)⟩
  rely_retire := fun _ _ _ _ hj _ hp hi =>
    List.mem_filter.mpr ⟨hp, decide_eq_true (hi ▸ hj)⟩

/-- Knowing which boundary it is about to store is stable for a worker. -/
theorem stable_pending (deviceId : String) (next : Instant) :
    Stable (homeDiscipline lower) i fun w => ⟨i, deviceId, next⟩ ∈ w.outside.pending :=
  fun _ _ hr _ hw => hr _ hw rfl

/-! ## Steps -/

/-- A request changes nothing. -/
theorem preserves_askHome (c : HomeCall) :
    Preserves (homeDiscipline lower) i (fun _ => True) (ask c) := by
  refine ⟨fun w _ => .request fun w' _ hi r o ho _ => ?_⟩
  obtain rfl : w'.outside = o := Option.some.inj ho
  exact ⟨⟨hi, fun _ _ _ hp _ => hp⟩, trivial, (Preserves.ofExcept .trivial r).safe w' trivial⟩

/-- A transaction of another service keeps the boundaries covered. -/
theorem preserves_stamped {f : Database → Database} :
    Preserves (homeDiscipline lower) i (fun _ => True)
      (Program.transaction (S := homeSignature) none (modify f)) := by
  refine ⟨fun w _ => .transaction (fun w' _ hi b db' hrun ha => ?_) fun _ _ _ _ _ => trivial⟩
  obtain rfl : f w'.store = db' := by simpa using hrun
  obtain ⟨hcover, hpending⟩ := hi
  have hlater := ha.1
  refine ⟨⟨⟨fun r hr a ha' hle => ?_, fun p hp a ha' hle => ?_⟩, fun _ _ _ hp _ => hp⟩,
    trivial, .pure fun _ _ _ => trivial⟩
  · by_cases hold : a ∈ arrivals w'.store
    · exact hcover r hr a hold hle
    · have hlt := (hlater a ha' hold).1 r hr
      exact absurd hle (not_le_of_gt hlt)
  · by_cases hold : a ∈ arrivals w'.store
    · exact hpending p hp a hold hle
    · have hlt := (hlater a ha' hold).2 p hp
      exact absurd hle (not_le_of_gt hlt)

/-- Reading the section of arrivals records what is committed. -/
theorem preserves_readSince (deviceId : String) (f : Database → α) :
    Preserves (homeDiscipline lower) i (fun _ => True) (queryAs (.readSince deviceId) f) := by
  refine ⟨fun w _ => .transaction (fun w' _ hi b db' hrun _ => ?_) fun _ _ _ _ _ => trivial⟩
  obtain ⟨-, rfl⟩ : f w'.store = b ∧ w'.store = db' := by simpa [Tx.read] using hrun
  obtain ⟨hcover, hpending⟩ := hi
  refine ⟨⟨⟨hcover, fun p hp a ha hle => ?_⟩, fun _ _ _ hp _ => hp⟩, trivial,
    .pure fun _ _ _ => trivial⟩
  exact w'.outside.seen_append _ p.worker p.deviceId (hpending p hp a ha hle)

/-- Reading the newest ingestion time makes it the boundary that the worker is about to store. -/
theorem safe_readNewest (deviceId : String) :
    Safe (homeDiscipline lower) i (queryAs (.readNewest deviceId) newestIngestion) w
      (fun newest w' => ∀ next, newest = some next →
        ⟨i, deviceId, next⟩ ∈ w'.outside.pending) fun _ _ => True := by
  refine .transaction (fun w' _ hi b db' hrun ha => ?_) fun _ _ _ _ _ => trivial
  obtain ⟨rfl, rfl⟩ : newestIngestion w'.store = b ∧ w'.store = db' := by
    simpa [Tx.read] using hrun
  obtain ⟨hcover, hpending⟩ := hi
  have hlater := ha.2 deviceId rfl
  refine ⟨⟨⟨hcover, fun p hp a ha' hle => ?_⟩, fun j _ p hp _ => List.mem_append_left _ hp⟩,
    trivial, .pure fun w₂ hr₂ _ next hnext => hr₂ ⟨i, deviceId, next⟩ ?_ rfl⟩
  · rcases List.mem_append.mp hp with hold | hnew
    · exact hpending p hold a ha' hle
    · obtain ⟨t, hnewest, rfl⟩ := Option.map_eq_some_iff.mp (Option.mem_toList.mp hnew)
      by_contra hunseen
      have hlt := hlater a ha' hunseen t hnewest
      exact absurd hle (not_le_of_gt hlt)
  · refine List.mem_append_right _ (Option.mem_toList.mpr ?_)
    rw [hnext, Option.map_some]

/-- A stored boundary is the later one of what was there and the next one. -/
theorem visitBoundary_store {deviceId : String} {next : Instant} {u : Unit}
    (hrun : (storeBoundary deviceId next).run db = .ok (u, db')) :
    visitBoundary deviceId db' = some (max ((visitBoundary deviceId db).getD next) next) ∧
      db'.messages = db.messages := by
  obtain rfl : { db with
      homeVisits := db.homeVisits.put
        ⟨deviceId, max ((visitBoundary deviceId db).getD next) next⟩ } = db' := by
    simpa [storeBoundary] using hrun
  have hfind : (db.homeVisits.put
      ⟨deviceId, max ((visitBoundary deviceId db).getD next) next⟩).find? deviceId =
        some ⟨deviceId, max ((visitBoundary deviceId db).getD next) next⟩ :=
    Table.find?_put.trans (if_pos rfl)
  exact ⟨congrArg (Option.map HomeVisit.boundary) hfind, rfl⟩

/-- A boundary that is raised is raised to the next one. -/
theorem boundary_raised {old : Option Instant} {next : Instant}
    (h : old ≠ some (max (old.getD next) next)) : max (old.getD next) next = next := by
  cases old with
  | none => exact max_self next
  | some boundary =>
      rw [Option.getD_some] at h ⊢
      exact max_eq_right (le_of_not_ge fun hle => h (congrArg some (max_eq_left hle).symm))

/-- Storing the boundary that was read keeps the boundaries covered. -/
theorem safe_advance {deviceId : String} {next : Instant}
    (hw : ⟨i, deviceId, next⟩ ∈ w.outside.pending) :
    Safe (homeDiscipline lower) i
      (Program.transaction (S := homeSignature) (some (.advance deviceId))
        (storeBoundary deviceId next)) w (fun _ _ => True) fun _ _ => True := by
  refine .transaction (fun w' hr hi b db' hrun _ => ?_) fun _ _ _ _ _ => trivial
  have hself : ⟨i, deviceId, next⟩ ∈ w'.outside.pending := hr _ hw rfl
  obtain ⟨hcover, hpending⟩ := hi
  obtain ⟨hnew, hmessages⟩ := visitBoundary_store hrun
  have harrivals : arrivals db' = arrivals w'.store := by
    unfold arrivals
    rw [hmessages]
  by_cases hsame : visitBoundary deviceId w'.store = visitBoundary deviceId db'
  · have hlog : w'.outside.afterCommit i w'.store db' (some (.advance deviceId)) = w'.outside := by
      simp only [HomeLog.afterCommit, hnew]
      rw [if_pos (hsame.trans hnew)]
    have hworld : Config.committed (homeSystem lower) w' i (some (.advance deviceId)) db' =
        ⟨db', w'.outside⟩ := congrArg (World.mk db') hlog
    rw [hworld]
    refine ⟨⟨⟨fun r hr' a ha hle => ?_, fun p hp a ha hle => ?_⟩, fun _ _ _ hp _ => hp⟩, trivial,
      .pure fun _ _ _ => trivial⟩
    · exact hcover r hr' a (harrivals ▸ ha) hle
    · exact hpending p hp a (harrivals ▸ ha) hle
  · rw [hnew] at hsame
    have hlog : w'.outside.afterCommit i w'.store db' (some (.advance deviceId)) =
        { w'.outside with
          raises := w'.outside.raises ++ [⟨deviceId, next, w'.outside.seen i deviceId⟩] } := by
      simp only [HomeLog.afterCommit, hnew]
      rw [if_neg hsame, boundary_raised hsame]
    have hworld : Config.committed (homeSystem lower) w' i (some (.advance deviceId)) db' =
        ⟨db', _⟩ := congrArg (World.mk db') hlog
    rw [hworld]
    refine ⟨⟨⟨fun r hr' a ha hle => ?_, fun p hp a ha hle => ?_⟩, fun _ _ _ hp _ => hp⟩, trivial,
      .pure fun _ _ _ => trivial⟩
    · rw [harrivals] at ha
      rcases List.mem_append.mp hr' with hold | hlast
      · exact hcover r hold a ha hle
      · obtain rfl := List.mem_singleton.mp hlast
        exact hpending ⟨i, deviceId, next⟩ hself a ha hle
    · exact hpending p hp a (harrivals ▸ ha) hle

/-! ## Operations -/

theorem preserves_queryHome (f : Database → α) :
    Preserves (homeDiscipline lower) i (fun _ => True) (query f) := by
  have hK : Stable (homeDiscipline lower) i fun _ => True := .trivial
  exact .read hK f

theorem preserves_sectionQuery (deviceId : String) (id : HomeSectionId)
    (f : Database → HomeSection) :
    Preserves (homeDiscipline lower) i (fun _ => True) (sectionQuery deviceId id f) := by
  unfold sectionQuery
  split
  · exact preserves_readSince deviceId f
  · exact preserves_queryHome f

theorem preserves_readRankedSection {read : (Database → HomeSection) → HomeProgram HomeSection}
    (hread : ∀ f, Preserves (homeDiscipline lower) i (fun _ => True) (read f))
    (id : HomeSectionId) (limit : ℕ) (cursor : Option HomeSectionCursor)
    (boundary : Option Instant) : Preserves (homeDiscipline lower) i (fun _ => True)
      (readRankedSection lower read id limit cursor boundary) := by
  refine .bind (preserves_askHome _) fun now => .bind (hread _) fun page => ?_
  refine .ite (fun _ => .pure .trivial _) fun _ => ?_
  exact .bind (preserves_queryHome _) fun _ => .pure .trivial _

theorem preserves_readSections (deviceId : String) (limit : ℕ) (boundary : Option Instant)
    (ids : List HomeSectionId) : Preserves (homeDiscipline lower) i (fun _ => True)
      (readSections lower deviceId limit boundary ids) := by
  induction ids with
  | nil => exact .pure .trivial _
  | cons id ids ih =>
      refine .bind (preserves_readRankedSection (preserves_sectionQuery deviceId id) _ _ _ _)
        fun page => ?_
      exact .bind ih fun pages => .pure .trivial _

theorem preserves_readCoverage :
    Preserves (homeDiscipline lower) i (fun _ => True) readCoverage := by
  refine .bind (preserves_askHome _) fun enabled => .bind (preserves_askHome _) fun circuit => ?_
  refine .bind (preserves_queryHome _) fun covered => .bind (preserves_queryHome _) fun newest => ?_
  exact .pure .trivial _

/-- A worker stores the boundary that it read. -/
theorem preserves_advanceVisitBoundary (deviceId : String) :
    Preserves (homeDiscipline lower) i (fun _ => True) (advanceVisitBoundary deviceId) := by
  refine ⟨fun w _ => .bind ((safe_readNewest deviceId).mono (fun newest w' _ hw' => ?_)
    fun _ _ _ h => h)⟩
  cases newest with
  | none => exact .pure fun _ _ _ => trivial
  | some next => exact safe_advance (hw' next rfl)

theorem preserves_readHome (input : HomeReadInput) :
    Preserves (homeDiscipline lower) i (fun _ => True) (readHome lower input) := by
  refine .bind (.ofExcept .trivial _) fun deviceId => .bind (.ofExcept .trivial _) fun limit => ?_
  refine .bind (preserves_queryHome _) fun boundary => .bind (preserves_askHome _) fun now => ?_
  refine .bind (preserves_readSections deviceId limit boundary _) fun sections => ?_
  refine .bind preserves_readCoverage fun classification => ?_
  exact .bind (preserves_advanceVisitBoundary deviceId) fun _ => .pure .trivial _

/-- Every operation keeps the boundaries covered. -/
theorem safe_homeOp (op : HomeOp) (i : ℕ) (w : HomeWorld) :
    Safe (homeDiscipline lower) i (op.run lower) w (fun _ _ => True) fun _ _ => True := by
  cases op with
  | readHome input =>
      exact (Preserves.bind (preserves_readHome input) fun _ => .pure .trivial _).safe w trivial
  | ingest f hf =>
      exact (Preserves.bind (preserves_askHome _) fun start => preserves_stamped).safe w trivial

/-! ## Runs -/

variable {c₀ c : Config homeSignature HomeLog}

/-- In every run whose arrivals come later, the boundaries cover only what a visit could show. -/
theorem visits_cover (hworkers : c₀.workers = []) (hlog : c₀.world.outside = .empty)
    (h : Reaches (homeSystem lower) arrivesLater c₀ c) : VisitsCover c.world := by
  have hsound : c₀.Sound (homeDiscipline lower) := by
    refine ⟨⟨fun r hr => ?_, fun p hp => ?_⟩, fun i p hp => ?_⟩
    · simp [hlog, HomeLog.empty] at hr
    · simp [hlog, HomeLog.empty] at hp
    · rw [hworkers] at hp
      simp at hp
  have hreach : Reaches (homeSystem lower) (homeDiscipline lower).assumes c₀ c := h
  exact (hreach.sound hsound safe_homeOp).inv.1

/-! ## A sample -/

/-- The ingestion of one message. -/
def addMessage (id : Uuid) (start : Instant) (db : Database) : Database :=
  { db with messages := db.messages.put (.bare id 1 start) }

theorem addMessage_stamps (id : Uuid) : Stamps (addMessage id) := by
  refine ⟨fun t db a ha => ?_, fun t db => rfl⟩
  obtain ⟨m, hm, rfl⟩ := List.mem_map.mp ha
  rcases Table.mem_put.mp hm with ⟨hold, -⟩ | rfl
  · exact .inl (List.mem_map.mpr ⟨m, hold, rfl⟩)
  · exact .inr rfl

/-- Answers with one time for transactions. -/
def sampleHomeReply (start : Instant) : (c : HomeCall) → Except Failure c.Answer
  | .now => .ok (0 : ℕ)
  | .transactionStart => .ok start
  | .readSettings => .ok true
  | .readCircuit => .ok (CircuitState.closed, "")

/-- The sample before any read: no message and no visit. -/
def sampleHome : Config homeSignature HomeLog := ⟨⟨Database.empty, .empty⟩, []⟩

/-- The sample system. -/
abbrev sampleHomeSystem : System homeSignature HomeLog := homeSystem fun text => text

/-- Worker `i` commits a message in a transaction that started at a time. -/
def sampleIngest (i : ℕ) (id : Uuid) (start : Instant) : List (Event sampleHomeSystem) :=
  [.spawn (.ingest (addMessage id) (addMessage_stamps id)), .answer i (sampleHomeReply start),
    .commit i]

/-- Worker `i` reads Home up to the section of arrivals. -/
def sampleVisit (i : ℕ) : List (Event sampleHomeSystem) :=
  [.spawn (.readHome ⟨"device-1", none⟩), .commit i, .answer i (sampleHomeReply 0)] ++
    (List.replicate 4 [.answer i (sampleHomeReply 0), .commit i]).flatten

/-- Worker `i` reads the rest of Home and stores the boundary. -/
def sampleLeave (i : ℕ) : List (Event sampleHomeSystem) :=
  [.answer i (sampleHomeReply 0), .commit i, .answer i (sampleHomeReply 0),
    .answer i (sampleHomeReply 0), .commit i, .commit i, .commit i, .commit i]

/-- The raised boundaries and the arrivals of a pool. -/
structure VisitView where
  raises : List Raise
  arrivals : List Arrival
  deriving DecidableEq

/-- The view of a pool. -/
def visitView (c : Config homeSignature HomeLog) : VisitView :=
  ⟨c.world.outside.raises, arrivals c.world.store⟩

/-- Two messages commit after a read has passed the section of arrivals: the boundary passes over
the first one, which no read of the device had before it. -/
theorem arrival_passed : ∃ c, Reaches sampleHomeSystem .free sampleHome c ∧
    sampleHome.workers = [] ∧ sampleHome.world.outside = .empty ∧ ¬ VisitsCover c.world := by
  have h : (sampleHome.run sampleHomeSystem (sampleVisit 0 ++ sampleIngest 1 1 1000300 ++
      sampleIngest 2 2 2000500 ++ sampleLeave 0)).map visitView =
        some ⟨[⟨"device-1", 2000000, []⟩], [⟨1, 1000300⟩, ⟨2, 2000500⟩]⟩ := by
    decide +kernel
  obtain ⟨c, hrun, hview⟩ := Option.map_eq_some_iff.mp h
  refine ⟨c, .of_run hrun, rfl, rfl, fun hcover => ?_⟩
  obtain ⟨hraises, harrivals⟩ := VisitView.mk.inj hview
  have hseen : (⟨1, 1000300⟩ : Arrival) ∈ ([] : List Arrival) := by
    refine hcover ⟨"device-1", 2000000, []⟩ ?_ ⟨1, 1000300⟩ ?_ (by decide)
    · rw [hraises]
      exact List.mem_singleton.mpr rfl
    · rw [harrivals]
      exact List.mem_cons_self
  exact absurd hseen List.not_mem_nil

/-! ### A run in order -/

/-- Whether an event adds only arrivals that come later, and finds no arrival that came after the
read of the arrivals at or before the newest time. -/
def isLater (c : Config homeSignature HomeLog) (e : Event sampleHomeSystem) : Bool :=
  match e with
  | .commit i =>
      (match c.fire sampleHomeSystem e with
        | some c' => (arrivals c'.world.store).all fun a => a ∈ arrivals c.world.store ||
            (c.world.outside.raises.all (·.boundary < a.ingestedAt) &&
              c.world.outside.pending.all (·.next < a.ingestedAt))
        | none => true) &&
      match c.standsAt i with
      | some (.readNewest deviceId) =>
          (arrivals c.world.store).all fun a => a ∈ c.world.outside.seen i deviceId ||
            (newestIngestion c.world.store).all (· < a.ingestedAt)
      | _ => true
  | _ => true

/-- An event that passes the check meets the policy. -/
theorem arrivesLater_of_isLater {c : Config homeSignature HomeLog} {e : Event sampleHomeSystem}
    (h : isLater c e = true) : arrivesLater.Meets sampleHomeSystem c e := by
  cases e with
  | commit i =>
      intro β tag f k b db hp hf
      obtain ⟨hfire, hnewest⟩ := Bool.and_eq_true_iff.mp h
      refine ⟨fun a ha hnew => ?_, fun deviceId htag a ha hunseen next hnext => ?_⟩
      · have hstep : c.fire sampleHomeSystem (.commit i) = some (c.resume sampleHomeSystem i
            (k (.ok b)) (Config.committed sampleHomeSystem c.world i tag db)) := by
          simp [Config.fire, hp, hf]
        simp only [hstep, Config.resume_store, List.all_eq_true] at hfire
        simpa [hnew] using hfire a ha
      · subst htag
        simp only [Config.standsAt, hp, List.all_eq_true] at hnewest
        simpa [hunseen, hnext] using hnewest a ha
  | answer i r => exact fun _ _ _ _ _ => trivial
  | spawn op | abort i e | stop i | tick t => trivial

/-- A read that finds everything it listed, and what holds of every run in order. -/
theorem visits_cover_sample : ∃ c,
    sampleHome.runChecked sampleHomeSystem isLater
      (sampleIngest 0 1 1000300 ++ sampleIngest 1 2 2000500 ++ sampleVisit 2 ++ sampleLeave 2 ++
        sampleIngest 3 3 3000700) = some c ∧
      visitView c = ⟨[⟨"device-1", 2000000, [⟨1, 1000300⟩, ⟨2, 2000500⟩]⟩],
        [⟨1, 1000300⟩, ⟨2, 2000500⟩, ⟨3, 3000700⟩]⟩ ∧ VisitsCover c.world := by
  have h : (sampleHome.runChecked sampleHomeSystem isLater
      (sampleIngest 0 1 1000300 ++ sampleIngest 1 2 2000500 ++ sampleVisit 2 ++ sampleLeave 2 ++
        sampleIngest 3 3 3000700)).map visitView =
      some ⟨[⟨"device-1", 2000000, [⟨1, 1000300⟩, ⟨2, 2000500⟩]⟩],
        [⟨1, 1000300⟩, ⟨2, 2000500⟩, ⟨3, 3000700⟩]⟩ := by
    decide +kernel
  obtain ⟨c, hrun, hview⟩ := Option.map_eq_some_iff.mp h
  have hreach : Reaches sampleHomeSystem arrivesLater sampleHome c :=
    .of_runChecked (fun _ _ => arrivesLater_of_isLater) hrun
  exact ⟨c, hrun, hview, visits_cover rfl rfl hreach⟩

end MailHub.Home
