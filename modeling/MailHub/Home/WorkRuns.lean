import MailHub.Home.Anchors
import MailHub.Home.Visits
import MailHub.Interleaving.Roles

/-!
# Saved work in every run

The owner's changes of saved work run next to merges of duplicates and to everything else. The index
on open records holds in every state, a merge keeps every record, and a change takes effect only
where its record has the revision that it names: a change made against an outdated revision is
refused and leaves no trace.
-/

namespace MailHub.Home

open Relational Interleaving

open HomeProgram (lift query ask)

/-! ## The system -/

/-- One operation. -/
inductive WorkOp
  | createWork (requestGeneration : Option Uuid) (input : CreateWorkInput) (id : Uuid)
  | rescheduleWork (requestGeneration : Option Uuid) (id : Uuid) (revision : ℤ)
      (dueAt timeZone : String)
  | completeWork (requestGeneration : Option Uuid) (id : Uuid) (revision : ℤ)
  | reopenWork (requestGeneration : Option Uuid) (id : Uuid) (revision : ℤ)
  | cancelWork (requestGeneration : Option Uuid) (id : Uuid) (revision : ℤ)
  | dismiss (requestGeneration : Option Uuid) (accountId messageId id : Uuid)
  | undismiss (requestGeneration : Option Uuid) (accountId messageId : Uuid)
  /-- The ingestion commits a parsed original, and merges a duplicate. -/
  | commitParsed (o : ParsedOriginal)
  /-- A transaction of another service; none of them writes saved work. -/
  | elsewhere (f : Database → Database) (hf : ∀ db, (f db).homeWork = db.homeWork)

/-- The program of one operation; its result goes back to the caller. -/
def WorkOp.run (s : HomeService) : WorkOp → HomeProgram Unit
  | createWork requestGeneration input id => do
      let _ ← Home.createWork s requestGeneration input id
  | rescheduleWork requestGeneration id revision dueAt timeZone => do
      let _ ← Home.rescheduleWork s requestGeneration id revision dueAt timeZone
  | completeWork requestGeneration id revision => do
      let _ ← Home.completeWork s requestGeneration id revision
  | reopenWork requestGeneration id revision => do
      let _ ← Home.reopenWork s requestGeneration id revision
  | cancelWork requestGeneration id revision => Home.cancelWork s requestGeneration id revision
  | dismiss requestGeneration accountId messageId id =>
      Home.dismiss s requestGeneration accountId messageId id
  | undismiss requestGeneration accountId messageId =>
      Home.undismiss s requestGeneration accountId messageId
  | commitParsed o => do let _ ← Home.commitParsed o
  | elsewhere f _ => execute (modify f)

/-- The record that an operation changes, with the revision that it names. -/
def WorkOp.change : WorkOp → Option (Uuid × ℤ)
  | rescheduleWork _ id revision _ _ | completeWork _ id revision | reopenWork _ id revision
  | cancelWork _ id revision => some (id, revision)
  | _ => none

/-- A commit that changed saved work or the audit trail. -/
structure WorkStep where
  worker : ℕ
  before : Database
  after : Database

/-- A commit that changes neither saved work nor the audit trail. -/
def Quiet (db db' : Database) : Prop :=
  db'.homeWork.rows = db.homeWork.rows ∧ db'.events = db.events

instance (db db' : Database) : Decidable (Quiet db db') := inferInstanceAs (Decidable (_ ∧ _))

/-- The commits so far, after one of worker `i`. -/
def observeWork (i : ℕ) (db db' : Database) (log : List WorkStep) : List WorkStep :=
  if Quiet db db' then log else log ++ [⟨i, db, db'⟩]

/-- The failures that a statement may meet: a database fault, or a lost race on a unique index. -/
def workFault (e : Failure) : Bool := e.isDatabaseFault || e.isUniqueViolation

/-- Saved work next to the ingestion and the other services. -/
def workSystem (s : HomeService) : System homeSignature (List WorkStep) where
  Op := WorkOp
  program := WorkOp.run s
  Tick := Empty
  advance := fun t => nomatch t
  respond := fun _ _ _ log => some log
  fault := workFault
  observe := fun i _ db db' log => observeWork i db db' log
  observe_read := fun _ _ _ => if_pos ⟨rfl, rfl⟩
  retire := fun _ log => log

/-- The database and the commits so far. -/
abbrev WorkWorld := World homeSignature (List WorkStep)

/-! ## What a run keeps -/

/-- Worker `i` made its change of a record at a revision. -/
def Made (i : ℕ) (id : Uuid) (revision : ℤ) (log : List WorkStep) : Prop :=
  ∃ step ∈ log, step.worker = i ∧ ChangesAt id revision step.before.homeWork step.after.homeWork

/-- No record of an identifier has a revision any more, or an earlier one. -/
def Outdated (id : Uuid) (revision : ℤ) (work : Table HomeWork) : Prop :=
  ∀ a ∈ work, a.id = id → revision < a.revision

/-- A commit gives an identifier to a new record. -/
def WorkStep.Creates (step : WorkStep) (id : Uuid) : Prop :=
  (∀ a ∈ step.before.homeWork, a.id ≠ id) ∧ ∃ b ∈ step.after.homeWork, b.id = id

/-- From a database on, what is outdated stays so, unless its identifier goes to a new record. -/
def Ages (db : Database) (later : List WorkStep) (db' : Database) : Prop :=
  ∀ id revision, Outdated id revision db.homeWork → (∃ step ∈ later, step.Creates id) ∨
    (Outdated id revision db'.homeWork ∧ ∀ step ∈ later, Outdated id revision step.before.homeWork)

/-- The index holds, no commit takes a revision back, merges keep every record, and a worker that
changes a record leaves no trace before it has made its change. -/
structure Orderly (ops : ℕ → WorkOp) (w : WorkWorld) : Prop where
  unique : OpenUnique w.store.homeWork
  merged : ∀ step ∈ w.outside, ∀ o, ops step.worker = .commitParsed o →
    Reanchors step.before.homeWork step.after.homeWork
  made : ∀ step ∈ w.outside, ∀ id revision, (ops step.worker).change = some (id, revision) →
    Made step.worker id revision w.outside

/-- A later moment of a run. -/
def Later (w w' : WorkWorld) : Prop :=
  ∃ later, w'.outside = w.outside ++ later ∧ Ages w.store later w'.store

variable {s : HomeService} {ops : ℕ → WorkOp} {i : ℕ} {w w' : WorkWorld} {db db' : Database}
variable {α : Type} {id : Uuid} {revision : ℤ} {log later : List WorkStep}

theorem Later.refl (w : WorkWorld) : Later w w := by
  refine ⟨[], (List.append_nil _).symm, fun id revision h => .inr ⟨h, fun step hstep => ?_⟩⟩
  exact absurd hstep List.not_mem_nil

theorem Later.trans {w'' : WorkWorld} (h : Later w w') (h' : Later w' w'') : Later w w'' := by
  obtain ⟨later, hlog, hages⟩ := h
  obtain ⟨later', hlog', hages'⟩ := h'
  refine ⟨later ++ later', by rw [hlog', hlog, List.append_assoc], fun id revision hold => ?_⟩
  rcases hages id revision hold with ⟨step, hstep, hcreates⟩ | ⟨hmid, hbefore⟩
  · exact .inl ⟨step, List.mem_append_left _ hstep, hcreates⟩
  · rcases hages' id revision hmid with ⟨step, hstep, hcreates⟩ | ⟨hend, hbefore'⟩
    · exact .inl ⟨step, List.mem_append_right _ hstep, hcreates⟩
    · refine .inr ⟨hend, fun step hstep => ?_⟩
      rcases List.mem_append.mp hstep with hstep | hstep
      · exact hbefore step hstep
      · exact hbefore' step hstep

theorem Made.append (h : Made i id revision log) : Made i id revision (log ++ later) := by
  obtain ⟨step, hstep, hmade⟩ := h
  exact ⟨step, List.mem_append_left _ hstep, hmade⟩

/-- A commit ages what it leaves. -/
theorem ages_commit (h : Rises db.homeWork db'.homeWork) : Ages db [⟨i, db, db'⟩] db' := by
  intro id revision hold
  by_cases hcreates : WorkStep.Creates ⟨i, db, db'⟩ id
  · exact .inl ⟨_, List.mem_singleton.mpr rfl, hcreates⟩
  · refine .inr ⟨fun b hb hid => ?_, fun step hstep => ?_⟩
    · have hpresent : ∃ a ∈ db.homeWork, a.id = id := by
        by_contra habsent
        exact hcreates ⟨fun a ha haid => habsent ⟨a, ha, haid⟩, b, hb, hid⟩
      obtain ⟨a, ha, haid⟩ := hpresent
      have hle : a.revision ≤ b.revision := h a ha b hb (haid.trans hid.symm)
      have hlt : revision < a.revision := hold a ha haid
      omega
    · obtain rfl := List.mem_singleton.mp hstep
      exact hold

/-! ## The discipline -/

/-- The discipline of saved work: the log only grows, and what is outdated stays so. -/
def workDiscipline (s : HomeService) (ops : ℕ → WorkOp) : Discipline (workSystem s) where
  inv := Orderly ops
  rely := fun _ w w' => Later w w'
  assumes := .free
  ensures := .free
  rely_refl := fun _ w => .refl w
  rely_trans := fun _ _ _ _ h h' => h.trans h'
  ensures_read := fun _ _ _ => trivial
  inv_tick := fun _ t => nomatch t
  rely_tick := fun _ _ t => nomatch t
  inv_retire := fun _ _ h => h
  rely_retire := fun w _ _ _ _ => .refl w

/-- What worker `i` may commit: the index stays, revisions do not go back, a merge keeps every
record, and a change is made before it leaves any other trace. -/
structure Lawful (ops : ℕ → WorkOp) (i : ℕ) (log : List WorkStep) (db db' : Database) : Prop where
  unique : OpenUnique db'.homeWork
  rises : Rises db.homeWork db'.homeWork
  merged : ∀ o, ops i = .commitParsed o → Reanchors db.homeWork db'.homeWork
  made : ∀ id revision, (ops i).change = some (id, revision) →
    Quiet db db' ∨ ChangesAt id revision db.homeWork db'.homeWork ∨ Made i id revision log

/-- The world after a commit that leaves no trace. -/
theorem committed_quiet (h : Quiet w.store db') (tag : Option HomeTag) :
    Config.committed (workSystem s) w i tag db' = ⟨db', w.outside⟩ := by
  have hlog : observeWork i w.store db' w.outside = w.outside := if_pos h
  exact congrArg (fun log => (⟨db', log⟩ : WorkWorld)) hlog

/-- The world after a commit that leaves a trace. -/
theorem committed_loud (h : ¬ Quiet w.store db') (tag : Option HomeTag) :
    Config.committed (workSystem s) w i tag db' = ⟨db', w.outside ++ [⟨i, w.store, db'⟩]⟩ := by
  have hlog : observeWork i w.store db' w.outside = w.outside ++ [⟨i, w.store, db'⟩] := if_neg h
  exact congrArg (fun log => (⟨db', log⟩ : WorkWorld)) hlog

/-- A lawful commit keeps the discipline. -/
theorem Lawful.keeps (hi : Orderly ops w) (h : Lawful ops i w.outside w.store db')
    (tag : Option HomeTag) :
    (workDiscipline s ops).Keeps i w (Config.committed (workSystem s) w i tag db') := by
  by_cases hquiet : Quiet w.store db'
  · have hwork : db'.homeWork = w.store.homeWork := by
      have hrows := hquiet.1
      revert hrows
      cases db'.homeWork
      cases w.store.homeWork
      rintro rfl
      rfl
    rw [committed_quiet hquiet]
    refine ⟨⟨h.unique, hi.merged, hi.made⟩, fun _ _ => ⟨[], (List.append_nil _).symm, ?_⟩⟩
    intro id revision hold
    refine .inr ⟨?_, fun step hstep => absurd hstep List.not_mem_nil⟩
    dsimp only
    rw [hwork]
    exact hold
  · rw [committed_loud hquiet]
    refine ⟨⟨h.unique, fun step hstep o ho => ?_, fun step hstep id revision hchange => ?_⟩,
      fun _ _ => ⟨_, rfl, ages_commit h.rises⟩⟩
    · rcases List.mem_append.mp hstep with hold | hnew
      · exact hi.merged step hold o ho
      · obtain rfl := List.mem_singleton.mp hnew
        exact h.merged o ho
    · rcases List.mem_append.mp hstep with hold | hnew
      · exact (hi.made step hold id revision hchange).append
      · obtain rfl := List.mem_singleton.mp hnew
        rcases h.made id revision hchange with hquiet' | hchanges | hmade
        · exact absurd hquiet' hquiet
        · exact ⟨_, List.mem_append_right _ (List.mem_singleton.mpr rfl), rfl, hchanges⟩
        · exact hmade.append

/-- What is known of the commits so far, for good. -/
def Grows (P : List WorkStep → Prop) : Prop := ∀ log later, P log → P (log ++ later)

theorem grows_true : Grows fun _ => True := fun _ _ _ => trivial

theorem grows_made (i : ℕ) (id : Uuid) (revision : ℤ) : Grows (Made i id revision) :=
  fun _ _ h => h.append

variable {P : List WorkStep → Prop}

/-- What is known of the commits so far stays known. -/
theorem Grows.stable (hP : Grows P) : Stable (workDiscipline s ops) i fun w => P w.outside := by
  rintro w w' ⟨later, hlog, -⟩ - hw
  rw [hlog]
  exact hP _ _ hw

/-- What is known of the commits so far is known after one more. -/
theorem Grows.committed (hP : Grows P) (h : P w.outside) (tag : Option HomeTag) :
    P (Config.committed (workSystem s) w i tag db').outside := by
  by_cases hquiet : Quiet w.store db'
  · rw [committed_quiet hquiet]
    exact h
  · rw [committed_loud hquiet]
    exact hP _ _ h

/-! ## Steps -/

/-- A request changes nothing. -/
theorem preserves_askWork (hP : Grows P) (c : HomeCall) :
    Preserves (workDiscipline s ops) i (fun w => P w.outside) (ask c) := by
  refine ⟨fun w hw => .request fun w' hr hi r o ho _ => ?_⟩
  obtain rfl : w'.outside = o := Option.some.inj ho
  have hw' : P w'.outside := hP.stable w w' hr hi hw
  exact ⟨⟨hi, fun _ _ => .refl w'⟩, trivial, (Preserves.ofExcept hP.stable r).safe w' hw'⟩

theorem preserves_queryWork (hP : Grows P) (f : Database → α) :
    Preserves (workDiscipline s ops) i (fun w => P w.outside) (query f) := .read hP.stable f

theorem preserves_liftWork (hP : Grows P) (r : Except Failure α) :
    Preserves (workDiscipline s ops) i (fun w => P w.outside) (lift r) := .ofExcept hP.stable r

/-- A statement whose commits are lawful keeps what is known. -/
theorem preserves_execute (hP : Grows P) {t : Tx α}
    (ht : ∀ w b db', Orderly ops w → P w.outside → t.run w.store = .ok (b, db') →
      Lawful ops i w.outside w.store db') :
    Preserves (workDiscipline s ops) i (fun w => P w.outside) (execute t) := by
  refine ⟨fun w hw => .transaction (fun w' hr hi b db' hrun _ => ?_) fun e w' hr hi _ =>
    hP.stable w w' hr hi hw⟩
  have hw' : P w'.outside := hP.stable w w' hr hi hw
  have hlawful := ht w' b db' hi hw' hrun
  exact ⟨hlawful.keeps hi none, trivial,
    .pure fun w₂ hr₂ hi₂ => hP.stable _ w₂ hr₂ hi₂ (hP.committed hw' none)⟩

/-- What leaves saved work alone is lawful for a worker that has nothing to change. -/
theorem lawful_of_same (hi : Orderly ops w) (hchange : (ops i).change = none)
    (h : db'.homeWork = w.store.homeWork) : Lawful ops i w.outside w.store db' := by
  refine ⟨h ▸ hi.unique, h ▸ .refl _, fun o _ => h ▸ .refl _, fun id revision hc => ?_⟩
  rw [hchange] at hc
  cases hc

/-- The owner's event is lawful for a worker that has made its change. -/
theorem preserves_recordEvent (hP : Grows P) (type entityType : String) (entityId : Uuid)
    (hmerge : ∀ o, ops i ≠ .commitParsed o)
    (h : ∀ log id revision, P log → (ops i).change = some (id, revision) → Made i id revision log) :
    Preserves (workDiscipline s ops) i (fun w => P w.outside)
      (recordEvent type entityType entityId) := by
  refine preserves_execute hP fun w b db' hi hw hrun => ?_
  obtain rfl : _ = db' := (Prod.mk.inj (Except.ok.inj hrun)).2
  exact ⟨hi.unique, .refl _, fun o ho => absurd ho (hmerge o),
    fun id revision hc => .inr (.inr (h _ id revision hw hc))⟩

theorem preserves_gate (hP : Grows P) (requestGeneration : Option Uuid) :
    Preserves (workDiscipline s ops) i (fun w => P w.outside) (s.gate requestGeneration) :=
  .bind (preserves_queryWork hP _) fun gate => .bind (preserves_liftWork hP gate) fun _ =>
    .pure hP.stable _

theorem preserves_toWorkRecord (hP : Grows P) (record : HomeWork) :
    Preserves (workDiscipline s ops) i (fun w => P w.outside) (toWorkRecord record) := by
  refine .bind (preserves_queryWork hP _) fun anchor => ?_
  cases anchor with
  | none => exact .pure hP.stable _
  | some m => exact .bind (preserves_queryWork hP _) fun _ => .pure hP.stable _

/-! ## Changes -/

/-- A record that is loaded for a change has the revision that the change names. -/
theorem safe_loadCurrent {check : HomeWork → Except Failure Unit} :
    Safe (workDiscipline s ops) i (loadCurrent check id revision) w
      (fun record _ => (record.revision : ℤ) = revision) fun _ _ => True := by
  have hload : Preserves (workDiscipline s ops) i (fun _ => True) (loadWorkForMutation id) := by
    refine .bind (preserves_queryWork grows_true _) fun found => ?_
    cases found with
    | none => exact .throw grows_true.stable _
    | some record => exact .pure grows_true.stable _
  refine hload.andThen trivial (fun record w₁ _ => ?_) fun _ _ _ => trivial
  refine (preserves_liftWork grows_true _).andThen trivial (fun _ w₂ _ => ?_) fun _ _ _ => trivial
  unfold requireCurrentRevision
  by_cases hrevision : (record.revision : ℤ) = revision
  · rw [if_neg (not_not_intro hrevision)]
    exact .pure fun _ _ _ => hrevision
  · rw [if_pos hrevision]
    exact .throw fun _ _ _ => trivial

/-- A commit of a change is one that the worker has made. -/
theorem made_committed (h : ChangesAt id revision w.store.homeWork db'.homeWork)
    (tag : Option HomeTag) :
    Made i id revision (Config.committed (workSystem s) w i tag db').outside := by
  have hloud : ¬ Quiet w.store db' := fun hquiet => h.ne hquiet.1
  rw [committed_loud hloud]
  exact ⟨_, List.mem_append_right _ (List.mem_singleton.mpr rfl), rfl, h⟩

/-- A worker that changes a record merges nothing. -/
theorem ne_commitParsed (hchange : (ops i).change = some (id, revision)) (o : ParsedOriginal) :
    ops i ≠ .commitParsed o := by
  intro ho
  rw [ho] at hchange
  cases hchange

/-- A worker that writes its change has made it when it goes on. -/
theorem safe_commitChange (hchange : (ops i).change = some (id, revision)) {record : HomeWork}
    {statement : Tx (Option HomeWork)} (ht : ChangesOnce id revision statement) (type : String) :
    Safe (workDiscipline s ops) i (commitChange record statement type) w
      (fun _ w' => Made i id revision w'.outside) fun _ _ => True := by
  unfold commitChange
  refine .bind (.transaction (fun w' _ hi row db' hrun _ => ?_) fun _ _ _ _ _ => trivial)
  have hcases := ht.run hi.unique hrun
  have hlawful : Lawful ops i w'.outside w'.store db' := by
    rcases hcases with ⟨-, rfl⟩ | ⟨hunique, hchanges⟩
    · exact ⟨hi.unique, .refl _, fun o ho => absurd ho (ne_commitParsed hchange o),
        fun _ _ _ => .inl ⟨rfl, rfl⟩⟩
    · refine ⟨hunique, hchanges.rises, fun o ho => absurd ho (ne_commitParsed hchange o), ?_⟩
      intro id' revision' hchange'
      obtain ⟨rfl, rfl⟩ := Prod.mk.inj (Option.some.inj (hchange.symm.trans hchange'))
      exact .inr (.inl hchanges)
  refine ⟨hlawful.keeps hi none, trivial, .pure fun w₂ hr₂ hi₂ => ?_⟩
  cases row with
  | none => exact .throw fun _ _ _ => trivial
  | some row =>
      rcases hcases with ⟨hnone, -⟩ | ⟨-, hchanges⟩
      · cases hnone
      · have hmade : Made i id revision w₂.outside :=
          (grows_made i id revision).stable _ _ hr₂ hi₂ (made_committed hchanges none)
        have hevent : Preserves (workDiscipline s ops) i (fun w => Made i id revision w.outside)
            (recordEvent type "home_work" record.id) := by
          refine preserves_recordEvent (grows_made i id revision) _ _ _
            (ne_commitParsed hchange) fun log id' revision' hmade' hchange' => ?_
          obtain ⟨rfl, rfl⟩ := Prod.mk.inj (Option.some.inj (hchange.symm.trans hchange'))
          exact hmade'
        exact hevent.andThen hmade (fun _ w₃ hw₃ => (Preserves.pure
          (grows_made i id revision).stable row).safe w₃ hw₃) fun _ _ _ => trivial

/-- Rewriting a loaded record and answering with its view. -/
theorem safe_rewrite (hchange : (ops i).change = some (id, revision)) {record : HomeWork}
    (hrevision : (record.revision : ℤ) = revision) {f : Time → HomeWork → HomeWork}
    {hf : ∀ now w, (f now w).id = w.id} (hnext : ∀ now w, (f now w).revision = w.revision + 1)
    (type : String) :
    Safe (workDiscipline s ops) i (do
        let now ← ask .now
        let row ← commitChange record (updateWork id record.revision (f now) (hf now)) type
        toWorkRecord row) w
      (fun _ w' => Made i id revision w'.outside) fun _ _ => True := by
  refine (preserves_askWork grows_true .now).andThen trivial (fun now w₁ _ => ?_)
    fun _ _ _ => trivial
  have hcommit : Safe (workDiscipline s ops) i
      (commitChange record (updateWork id record.revision (f now) (hf now)) type) w₁
      (fun _ w' => Made i id revision w'.outside) fun _ _ => True :=
    safe_commitChange hchange (hrevision ▸ changesOnce_updateWork (hnext now)) type
  refine .bind (hcommit.mono (fun row w₂ _ hmade => ?_) fun _ _ _ _ => trivial)
  exact ((preserves_toWorkRecord (grows_made i id revision) row).safe w₂ hmade).mono
    (fun _ _ _ h => h) fun _ _ _ _ => trivial

/-- What a change does before it loads its record. -/
theorem safe_opened {β : Type} (requestGeneration : Option Uuid) {p : HomeProgram β}
    (hp : ∀ w, Safe (workDiscipline s ops) i p w
      (fun _ w' => Made i id revision w'.outside) fun _ _ => True) :
    Safe (workDiscipline s ops) i (do
        s.gate requestGeneration
        lift (requireRevision revision)
        p) w
      (fun _ w' => Made i id revision w'.outside) fun _ _ => True := by
  refine (preserves_gate grows_true _).andThen trivial (fun _ w₁ _ => ?_) fun _ _ _ => trivial
  exact (preserves_liftWork grows_true _).andThen trivial (fun _ w₂ _ => hp w₂) fun _ _ _ => trivial

/-- What a change does with the record that it loads. -/
theorem safe_loaded {β : Type} {check : HomeWork → Except Failure Unit}
    {commit : HomeWork → HomeProgram β}
    (hcommit : ∀ record w, (record.revision : ℤ) = revision →
      Safe (workDiscipline s ops) i (commit record) w
        (fun _ w' => Made i id revision w'.outside) fun _ _ => True) :
    Safe (workDiscipline s ops) i (loadCurrent check id revision >>= commit) w
      (fun _ w' => Made i id revision w'.outside) fun _ _ => True :=
  .bind (safe_loadCurrent.mono (fun record w' _ hrevision => hcommit record w' hrevision)
    fun _ _ _ _ => trivial)

/-! ## Operations -/

theorem safe_rescheduleWork {requestGeneration : Option Uuid} {dueAt timeZone : String}
    (hchange : (ops i).change = some (id, revision)) :
    Safe (workDiscipline s ops) i
      (rescheduleWork s requestGeneration id revision dueAt timeZone) w
      (fun _ w' => Made i id revision w'.outside) fun _ _ => True := by
  refine safe_opened requestGeneration fun w₁ => ?_
  refine (preserves_askWork grows_true .now).andThen trivial (fun now w₂ _ => ?_)
    fun _ _ _ => trivial
  refine (preserves_liftWork grows_true _).andThen trivial (fun due w₃ _ => ?_)
    fun _ _ _ => trivial
  refine (preserves_liftWork grows_true _).andThen trivial (fun zone w₄ _ => ?_)
    fun _ _ _ => trivial
  exact safe_loaded fun record w₅ hrevision => safe_rewrite hchange hrevision (fun _ _ => rfl) _

theorem safe_completeWork {requestGeneration : Option Uuid}
    (hchange : (ops i).change = some (id, revision)) :
    Safe (workDiscipline s ops) i (completeWork s requestGeneration id revision) w
      (fun _ w' => Made i id revision w'.outside) fun _ _ => True :=
  safe_opened requestGeneration fun _ => safe_loaded fun _ _ hrevision =>
    safe_rewrite hchange hrevision (fun _ _ => rfl) _

theorem safe_reopenWork {requestGeneration : Option Uuid}
    (hchange : (ops i).change = some (id, revision)) :
    Safe (workDiscipline s ops) i (reopenWork s requestGeneration id revision) w
      (fun _ w' => Made i id revision w'.outside) fun _ _ => True := by
  refine safe_opened requestGeneration fun w₁ => safe_loaded fun record w₂ hrevision => ?_
  refine .handle ((safe_rewrite hchange hrevision (fun _ _ => rfl) _).mono (fun _ _ _ h => h)
    fun e w₃ _ _ => ?_)
  dsimp only
  split
  · exact .throw fun _ _ _ => trivial
  · exact .throw fun _ _ _ => trivial

theorem safe_cancelWork {requestGeneration : Option Uuid}
    (hchange : (ops i).change = some (id, revision)) :
    Safe (workDiscipline s ops) i (cancelWork s requestGeneration id revision) w
      (fun _ w' => Made i id revision w'.outside) fun _ _ => True := by
  refine safe_opened requestGeneration fun w₁ => safe_loaded fun record w₂ hrevision => ?_
  refine .bind ((safe_commitChange hchange (hrevision ▸ changesOnce_deleteWork) _).mono
    (fun row w₃ _ hmade => ?_) fun _ _ _ _ => trivial)
  exact .pure fun w₄ hr hi => (grows_made i id revision).stable _ _ hr hi hmade

/-- An event of a worker that changes no record and merges nothing. -/
theorem preserves_event (hchange : (ops i).change = none) (hmerge : ∀ o, ops i ≠ .commitParsed o)
    (type entityType : String) (entityId : Uuid) :
    Preserves (workDiscipline s ops) i (fun _ => True) (recordEvent type entityType entityId) := by
  refine preserves_recordEvent grows_true _ _ _ hmerge fun _ id revision _ hc => ?_
  rw [hchange] at hc
  cases hc

theorem preserves_createWork {requestGeneration : Option Uuid} {input : CreateWorkInput}
    (hchange : (ops i).change = none) (hmerge : ∀ o, ops i ≠ .commitParsed o) :
    Preserves (workDiscipline s ops) i (fun _ => True)
      (createWork s requestGeneration input id) := by
  have haccount : Preserves (workDiscipline s ops) i (fun _ => True)
      (requireAccount input.accountId) := by
    refine .bind (preserves_queryWork grows_true _) fun account => .ite (fun _ => ?_) fun _ => ?_
    · exact .throw grows_true.stable _
    · exact .pure grows_true.stable _
  have hinsert : ∀ row, Preserves (workDiscipline s ops) i (fun _ => True)
      (execute (insertWork row)) := by
    refine fun row => preserves_execute grows_true fun w r db' hi _ hrun => ?_
    rcases run_insertWork hi.unique hrun with rfl | ⟨hunique, hrises⟩
    · exact lawful_of_same hi hchange rfl
    · refine ⟨hunique, hrises, fun o ho => absurd ho (hmerge o), fun id revision hc => ?_⟩
      rw [hchange] at hc
      cases hc
  have hsaved : ∀ r, Preserves (workDiscipline s ops) i (fun _ => True) (savedRecord input r) := by
    intro r
    cases r with
    | some record =>
        exact .bind (preserves_event hchange hmerge _ _ _) fun _ => .pure grows_true.stable _
    | none =>
        refine .bind (preserves_queryWork grows_true _) fun existing => ?_
        cases existing with
        | some record => exact .pure grows_true.stable _
        | none => exact .throw grows_true.stable _
  refine .bind (preserves_gate grows_true _) fun _ => ?_
  refine .bind (preserves_askWork grows_true .now) fun now => ?_
  refine .bind (preserves_liftWork grows_true _) fun times => .bind haccount fun _ => ?_
  refine .bind (preserves_queryWork grows_true _) fun anchor => ?_
  cases anchor with
  | none => exact .throw grows_true.stable _
  | some anchor =>
      refine .bind (preserves_askWork grows_true .transactionStart) fun start => ?_
      refine .bind (hinsert _) fun inserted => .bind (hsaved inserted) fun record => ?_
      exact preserves_toWorkRecord grows_true record

theorem preserves_dismiss {requestGeneration : Option Uuid} {accountId messageId : Uuid}
    (hchange : (ops i).change = none) (hmerge : ∀ o, ops i ≠ .commitParsed o) :
    Preserves (workDiscipline s ops) i (fun _ => True)
      (dismiss s requestGeneration accountId messageId id) := by
  refine .bind (preserves_gate grows_true _) fun _ => ?_
  refine .bind (preserves_queryWork grows_true _) fun m => .ite (fun _ => ?_) fun _ => ?_
  · exact .throw_bind grows_true.stable
  · refine .bind (preserves_execute grows_true fun w b db' hi _ hrun => ?_) fun _ =>
      preserves_event hchange hmerge _ _ _
    exact lawful_of_same hi hchange (insertDismissal_same hrun)

theorem preserves_undismiss {requestGeneration : Option Uuid} {accountId messageId : Uuid}
    (hchange : (ops i).change = none) (hmerge : ∀ o, ops i ≠ .commitParsed o) :
    Preserves (workDiscipline s ops) i (fun _ => True)
      (undismiss s requestGeneration accountId messageId) := by
  refine .bind (preserves_gate grows_true _) fun _ => ?_
  refine .bind (preserves_execute grows_true fun w b db' hi _ hrun => ?_) fun removed =>
    .ite (fun _ => ?_) fun _ => ?_
  · obtain rfl : _ = db' := (Prod.mk.inj (Except.ok.inj hrun)).2
    exact lawful_of_same hi hchange rfl
  · exact .throw_bind grows_true.stable
  · exact preserves_event hchange hmerge _ _ _

theorem preserves_commitParsed {o : ParsedOriginal} (hop : ops i = .commitParsed o) :
    Preserves (workDiscipline s ops) i (fun _ => True) (commitParsed o) := by
  have hattempt : Preserves (workDiscipline s ops) i (fun _ => True) (attemptCommit o) := by
    refine .bind (preserves_askWork grows_true .transactionStart) fun now => ?_
    refine .bind (preserves_queryWork grows_true _) fun seen => ?_
    refine preserves_execute grows_true fun w b db' hi _ hrun => ?_
    have hstep : MergeStep w.store db' := (mergeStep_commitSeen o w.store).step b db' hrun
    refine ⟨hstep.unique hi.unique, hstep.reanchors.rises, fun _ _ => hstep.reanchors,
      fun id revision hc => ?_⟩
    rw [hop] at hc
    cases hc
  refine .bind (.attempt grows_true.stable hattempt) fun r => ?_
  cases r with
  | ok result => exact .pure grows_true.stable _
  | error cause => exact .ite (fun _ => hattempt) fun _ => .throw grows_true.stable _

/-- A worker that returns from a change has made it. -/
def Answers (ops : ℕ → WorkOp) (i : ℕ) (w : WorkWorld) : Prop :=
  ∀ id revision, (ops i).change = some (id, revision) → Made i id revision w.outside

theorem lasting_answers : Lasting (workDiscipline s ops) (Answers ops) := by
  refine ⟨fun i w w' hr hi h id revision hchange => ?_, fun i w _ h => h⟩
  exact (grows_made i id revision).stable w w' hr hi (h id revision hchange)

/-- A worker that made its change and returns answers. -/
theorem answers_of_made (hchange : (ops i).change = some (id, revision))
    (h : Made i id revision w.outside) : Answers ops i w := by
  intro id' revision' hchange'
  obtain ⟨rfl, rfl⟩ := Prod.mk.inj (Option.some.inj (hchange.symm.trans hchange'))
  exact h

/-- A worker that changes no record answers nothing. -/
theorem answers_of_none (hchange : (ops i).change = none) : Answers ops i w := by
  intro id revision hc
  rw [hchange] at hc
  cases hc

/-- A change that returns what it made answers. -/
theorem safe_answer {β : Type} {p : HomeProgram β} (hchange : (ops i).change = some (id, revision))
    (hp : Safe (workDiscipline s ops) i p w (fun _ w' => Made i id revision w'.outside)
      fun _ _ => True) :
    Safe (workDiscipline s ops) i (p >>= fun _ => pure ()) w (fun _ => Answers ops i)
      fun _ _ => True := by
  refine .bind (hp.mono (fun b w₁ _ hmade => ?_) fun _ _ _ _ => trivial)
  exact .pure fun w₂ hr hi =>
    answers_of_made hchange ((grows_made i id revision).stable w₁ w₂ hr hi hmade)

/-- A worker that changes no record has nothing to answer. -/
theorem safe_plain {β : Type} {p : HomeProgram β} (hchange : (ops i).change = none)
    (hp : Preserves (workDiscipline s ops) i (fun _ => True) p) :
    Safe (workDiscipline s ops) i (p >>= fun _ => pure ()) w (fun _ => Answers ops i)
      fun _ _ => True :=
  hp.andThen trivial (fun _ _ _ => .pure fun _ _ _ => answers_of_none hchange) fun _ _ _ => trivial

/-- Every operation keeps the discipline, and a change that returns is made. -/
theorem safe_workOp (i : ℕ) (w : WorkWorld) :
    Safe (workDiscipline s ops) i ((ops i).run s) w (fun _ => Answers ops i) fun _ _ => True := by
  have hmerge : ∀ {op}, ops i = op → (∀ o, op ≠ .commitParsed o) → ∀ o, ops i ≠ .commitParsed o :=
    fun hop hne o => hop ▸ hne o
  cases hop : ops i with
  | createWork requestGeneration input id =>
      have hchange : (ops i).change = none := congrArg WorkOp.change hop
      exact safe_plain hchange (preserves_createWork hchange (hmerge hop fun _ => nofun))
  | rescheduleWork requestGeneration id revision dueAt timeZone =>
      have hchange : (ops i).change = some (id, revision) := congrArg WorkOp.change hop
      exact safe_answer hchange (safe_rescheduleWork hchange)
  | completeWork requestGeneration id revision =>
      have hchange : (ops i).change = some (id, revision) := congrArg WorkOp.change hop
      exact safe_answer hchange (safe_completeWork hchange)
  | reopenWork requestGeneration id revision =>
      have hchange : (ops i).change = some (id, revision) := congrArg WorkOp.change hop
      exact safe_answer hchange (safe_reopenWork hchange)
  | cancelWork requestGeneration id revision =>
      have hchange : (ops i).change = some (id, revision) := congrArg WorkOp.change hop
      exact (safe_cancelWork hchange).mono (fun _ _ _ hmade => answers_of_made hchange hmade)
        fun _ _ _ _ => trivial
  | dismiss requestGeneration accountId messageId id =>
      have hchange : (ops i).change = none := congrArg WorkOp.change hop
      have hp : Preserves (workDiscipline s ops) i (fun _ => True)
          (Home.dismiss s requestGeneration accountId messageId id) :=
        preserves_dismiss hchange (hmerge hop fun _ => nofun)
      exact (hp.safe w trivial).mono (fun _ _ _ _ => answers_of_none hchange) fun _ _ _ _ => trivial
  | undismiss requestGeneration accountId messageId =>
      have hchange : (ops i).change = none := congrArg WorkOp.change hop
      have hp : Preserves (workDiscipline s ops) i (fun _ => True)
          (Home.undismiss s requestGeneration accountId messageId) :=
        preserves_undismiss hchange (hmerge hop fun _ => nofun)
      exact (hp.safe w trivial).mono (fun _ _ _ _ => answers_of_none hchange) fun _ _ _ _ => trivial
  | commitParsed o =>
      exact safe_plain (congrArg WorkOp.change hop) (preserves_commitParsed hop)
  | elsewhere f hf =>
      have hchange : (ops i).change = none := congrArg WorkOp.change hop
      have hp : Preserves (workDiscipline s ops) i (fun _ => True) (execute (modify f)) := by
        refine preserves_execute grows_true fun w u db' hi _ hrun => ?_
        obtain rfl : f w.store = db' := (Prod.mk.inj (Except.ok.inj hrun)).2
        exact lawful_of_same hi hchange (hf w.store)
      exact (hp.safe w trivial).mono (fun _ _ _ _ => answers_of_none hchange) fun _ _ _ _ => trivial

/-! ## Runs -/

variable {c₀ c₁ c : Config homeSignature (List WorkStep)}

/-- A run only goes on: the log grows, and what is outdated stays so. -/
theorem later_of_reaches (hsound : c₁.Sound (workDiscipline s ops))
    (h : ReachesAs (workSystem s) ops .free c₁ c) : Later c₁.world c.world := by
  have hops : ∀ i w, Safe (workDiscipline s ops) i ((workSystem s).program (ops i)) w
      (fun _ _ => True) fun _ _ => True := fun i w =>
    (safe_workOp i w).mono (fun _ _ _ _ => trivial) fun _ _ _ h => h
  induction h with
  | start => exact .refl _
  | @next c c' e hreach hmeets hspawn hfire ih =>
      have hmid : c.Sound (workDiscipline s ops) := ReachesAs.sound hreach hsound hops
      exact ih.trans (hmid.fire_rely hmeets hfire (Nat.le_refl c.workers.length))

/-- In every run at most one open record of an account and a kind is at an anchor; a merge keeps
every open record; a change that returns was made where its record had the revision that it names;
and a worker whose revision is outdated before it has made its change never returns and leaves no
trace, unless its identifier goes to a new record. -/
theorem work_consistent (hworkers : c₀.workers = []) (hlog : c₀.world.outside = [])
    (hunique : OpenUnique c₀.world.store.homeWork)
    (h₁ : ReachesAs (workSystem s) ops .free c₀ c₁) (h : ReachesAs (workSystem s) ops .free c₁ c) :
    OpenUnique c.world.store.homeWork ∧
    (∀ step ∈ c.world.outside, ∀ o, ops step.worker = .commitParsed o →
      ∀ a ∈ step.before.homeWork, a.status = .open →
        ∃ b ∈ step.after.homeWork, b.status = .open ∧ SameRecord a b) ∧
    (∀ i id revision, (ops i).change = some (id, revision) → c.workers[i]? = some (.pure ()) →
      Made i id revision c.world.outside) ∧
    ∃ later, c.world.outside = c₁.world.outside ++ later ∧
      ∀ i id revision, (ops i).change = some (id, revision) →
        (∀ step ∈ c₁.world.outside, step.worker ≠ i) →
        Outdated id revision c₁.world.store.homeWork → (∀ step ∈ later, ¬ step.Creates id) →
        c.workers[i]? ≠ some (.pure ()) ∧ ∀ step ∈ c.world.outside, step.worker ≠ i := by
  have hops : ∀ i w, Safe (workDiscipline s ops) i ((workSystem s).program (ops i)) w
      (fun _ => Answers ops i) fun _ _ => True := fun i w => safe_workOp i w
  have hstart : c₀.SoundFor (workDiscipline s ops) (Answers ops) := by
    refine ⟨⟨hunique, fun step hstep => ?_, fun step hstep => ?_⟩, fun i p hp => ?_⟩
    · rw [hlog] at hstep
      exact absurd hstep List.not_mem_nil
    · rw [hlog] at hstep
      exact absurd hstep List.not_mem_nil
    · rw [hworkers] at hp
      cases hp
  have hmid := ReachesAs.soundFor lasting_answers h₁ hstart hops
  have hend := ReachesAs.soundFor lasting_answers h hmid hops
  have hreturns : ∀ i id revision, (ops i).change = some (id, revision) →
      c.workers[i]? = some (.pure ()) → Made i id revision c.world.outside :=
    fun i id revision hchange hpure => hend.returned hpure id revision hchange
  have hsound : c₁.Sound (workDiscipline s ops) :=
    ⟨hmid.inv, fun i p hp => (hmid.safe i p hp).mono (fun _ _ _ _ => trivial) fun _ _ _ h => h⟩
  obtain ⟨later, hlater, hages⟩ := later_of_reaches hsound h
  refine ⟨hend.inv.unique, fun step hstep o ho a ha hopen => ?_, hreturns, later, hlater, ?_⟩
  · obtain ⟨b, hb, hsame⟩ := (hend.inv.merged step hstep o ho).kept a ha
    obtain ⟨anchor, time, rfl⟩ := id hsame
    exact ⟨_, hb, hopen, hsame⟩
  · intro i id revision hchange huntouched hold hnew
    have hrefused : ¬ Made i id revision c.world.outside := by
      rintro ⟨step, hstep, hworker, hchanges⟩
      rw [hlater] at hstep
      rcases List.mem_append.mp hstep with hstep | hstep
      · exact huntouched step hstep hworker
      · rcases hages id revision hold with ⟨created, hcreated, hcreates⟩ | ⟨-, hbefore⟩
        · exact hnew created hcreated hcreates
        · obtain ⟨record, hrecord, hid, hrevision⟩ := hchanges.record
          have hlt := hbefore step hstep record hrecord hid
          omega
    refine ⟨fun hpure => hrefused (hreturns i id revision hchange hpure), fun step hstep hi => ?_⟩
    subst hi
    exact hrefused (hend.inv.made step hstep id revision hchange)

/-! ## A sample -/

/-- The mutations of the sample. -/
def sampleHomeService : HomeService := ⟨some 1, fun _ => none, fun _ => true⟩

/-- Two messages of one account with the same bytes. -/
def sampleWork : Config homeSignature (List WorkStep) :=
  ⟨⟨{ Database.empty with
      serviceState := some ⟨1, .ready⟩
      accounts := Table.empty.put ⟨1, [], true⟩
      messages := (Table.empty.put { Message.bare 1 1 0 with originalSha256 := some "hash" }).put
        (.bare 2 1 0) }, []⟩, []⟩

/-- The original of the second message. -/
def sampleOriginal : ParsedOriginal :=
  ⟨1, 2, ⟨none, none, [], none, none, none, none, none, none, none, []⟩, ⟨none, none⟩,
    "originals/2.eml", "hash", 1⟩

/-- Worker `i` runs its next `n` statements. -/
def commits (i n : ℕ) : List (Event (workSystem sampleHomeService)) :=
  List.replicate n (.commit i)

/-- The owner saves work at the second message, and asks twice for it to be completed; the first
request is slow, a merge moves the record in between, and the second request completes it. -/
def sampleChanges : List (Event (workSystem sampleHomeService)) :=
  [.spawn (.createWork (some 1) ⟨1, 2, .replyLater, none, none⟩ 10), .commit 0,
      .answer 0 (sampleHomeReply 0)] ++ commits 0 2 ++ [.answer 0 (sampleHomeReply 0)] ++
    commits 0 4 ++
    [.spawn (.completeWork (some 1) 10 1)] ++ commits 1 2 ++
    [.spawn (.commitParsed sampleOriginal), .answer 2 (sampleHomeReply 5)] ++ commits 2 2 ++
    [.spawn (.completeWork (some 1) 10 1)] ++ commits 3 2 ++ [.answer 3 (sampleHomeReply 0)] ++
    commits 3 4

/-- Saved work, the workers behind the commits so far, and the workers that have returned. -/
structure ChangesView where
  work : List HomeWork
  commits : List ℕ
  returned : List Bool
  deriving DecidableEq

/-- Whether a program has returned. -/
def hasReturned : Program homeSignature Unit → Bool
  | .pure _ => true
  | _ => false

/-- A program that has returned is its result. -/
theorem workers_of_returned {c : Config homeSignature (List WorkStep)} {i : ℕ}
    (h : (c.workers.map hasReturned)[i]? = some true) : c.workers[i]? = some (.pure ()) := by
  rw [List.getElem?_map, Option.map_eq_some_iff] at h
  obtain ⟨p, hp, hreturned⟩ := h
  cases p with
  | pure u => exact hp
  | throw e | halt | atomic _ _ _ | call _ _ => cases hreturned

/-- The view of a pool. -/
def changesView (c : Config homeSignature (List WorkStep)) : ChangesView :=
  ⟨c.world.store.homeWork.rows, c.world.outside.map (·.worker), c.workers.map hasReturned⟩

/-- The record of the sample in the end: moved to the surviving message and completed once. -/
def sampleDone : HomeWork :=
  ⟨10, 1, 1, none, .replyLater, .done, none, none, 2, 0, 0, some 0⟩

/-- The slow request of the sample is refused: the record moved with the merge and was completed
by the other request meanwhile. -/
theorem work_consistent_sample : ∃ c₁ c,
    ReachesAs (workSystem sampleHomeService) (rolesOf (.commitParsed sampleOriginal) sampleChanges)
      .free sampleWork c₁ ∧
    ReachesAs (workSystem sampleHomeService) (rolesOf (.commitParsed sampleOriginal) sampleChanges)
      .free c₁ c ∧
    changesView c = ⟨[sampleDone], [0, 0, 2, 3, 3], [true, false, true, true]⟩ ∧
    OpenUnique c.world.store.homeWork ∧ Made 3 10 1 c.world.outside ∧
    c.workers[1]? ≠ some (.pure ()) ∧ ∀ step ∈ c.world.outside, step.worker ≠ 1 := by
  have hrun : ((sampleWork.runChecked (workSystem sampleHomeService) (fun _ _ => true)
      sampleChanges).bind fun c₁ => (c₁.runChecked (workSystem sampleHomeService) (fun _ _ => true)
        [.answer 1 (sampleHomeReply 0), .commit 1]).map fun c => (changesView c₁, changesView c)) =
      some (⟨[sampleDone], [0, 0, 2, 3, 3], [true, false, true, true]⟩,
        ⟨[sampleDone], [0, 0, 2, 3, 3], [true, false, true, true]⟩) := by
    decide +kernel
  obtain ⟨c₁, h₁, hrest⟩ := Option.bind_eq_some_iff.mp hrun
  obtain ⟨c, h, hviews⟩ := Option.map_eq_some_iff.mp hrest
  obtain ⟨hview₁, hview⟩ := Prod.mk.inj hviews
  obtain ⟨hwork₁, hcommits₁, -⟩ := ChangesView.mk.inj hview₁
  obtain ⟨-, hcommits, hreturned⟩ := ChangesView.mk.inj hview
  have hfirst : ReachesAs (workSystem sampleHomeService)
      (rolesOf (.commitParsed sampleOriginal) sampleChanges) .free sampleWork c₁ :=
    .of_events (fun c e _ => Policy.free_meets _ c e) rfl _ h₁
  have hsecond : ReachesAs (workSystem sampleHomeService)
      (rolesOf (.commitParsed sampleOriginal) sampleChanges) .free c₁ c := by
    refine .of_runChecked (fun c e _ => Policy.free_meets _ c e) (fun i op hop => ?_) h
    exact absurd hop (List.getElem?_nil.trans_ne nofun)
  obtain ⟨hunique, -, hreturns, later, hlater, hrefused⟩ :=
    work_consistent rfl rfl (by decide) hfirst hsecond
  have hnone : later = [] := by
    have hmap := congrArg (List.map (·.worker)) hlater
    rw [hcommits, List.map_append, hcommits₁] at hmap
    have hlength := congrArg List.length hmap
    rw [List.length_append, List.length_map] at hlength
    exact List.eq_nil_of_length_eq_zero (by omega)
  have huntouched : ∀ step ∈ c₁.world.outside, step.worker ≠ 1 := by
    intro step hstep hworker
    have hmem : step.worker ∈ [0, 0, 2, 3, 3] := hcommits₁ ▸ List.mem_map_of_mem hstep
    rw [hworker] at hmem
    simp at hmem
  have houtdated : Outdated 10 1 c₁.world.store.homeWork := by
    intro a ha _
    rw [Table.mem_iff, hwork₁, List.mem_singleton] at ha
    subst ha
    decide
  refine ⟨c₁, c, hfirst, hsecond, hview, hunique, hreturns 3 10 1 rfl ?_, ?_⟩
  · exact workers_of_returned (by rw [hreturned]; rfl)
  · refine hrefused 1 10 1 rfl huntouched houtdated fun step hstep => ?_
    rw [hnone] at hstep
    exact absurd hstep List.not_mem_nil

end MailHub.Home
