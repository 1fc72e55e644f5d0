import MailHub.Home.Cursors
import MailHub.Recovery.Status

/-!
# Saved work

The owner saves work at an anchor message, reschedules, completes, reopens and cancels it. A change
names the revision of the record that it was made against: it loads the record, compares the
revision, and writes in one statement that asks for the loaded revision again. A unique index allows
one open record of an account and a kind at one anchor.
-/

namespace MailHub.Home

open Relational Interleaving

open HomeProgram (lift query ask)

/-! ## Validation -/

/-- What the mutations of Home are built from. -/
structure HomeService where
  /-- The configured recovery generation. -/
  generation : Option Uuid
  /-- The instant that a text names, if it names one. -/
  parseDate : String → Option ℤ
  /-- Whether the runtime knows a zone name. -/
  knownZone : String → Bool

/-- How far a reminder may be scheduled into the future. -/
def maxReminderAheadMs : ℕ := 10 * 365 * 24 * 60 * 60 * 1000

/-- Validate one reminder instant: future, and not absurdly far away. -/
def validateDueAt (s : HomeService) (value : Option String) (now : Time) : Except Failure Time :=
  match value.filter (· ≠ "") with
  | none => .error (.home .dueTimeInvalid "A reminder needs the resolved date and time." none)
  | some text =>
      match s.parseDate text with
      | none => .error (.home .dueTimeInvalid
          "The reminder time must be an ISO 8601 timestamp." none)
      | some parsed =>
          if parsed ≤ now then
            .error (.home .dueTimeInvalid "The reminder time must lie in the future." none)
          else if maxReminderAheadMs < parsed - now then
            .error (.home .dueTimeInvalid "The reminder time lies too far in the future." none)
          else .ok parsed.toNat

/-- Validate one zone name by asking the runtime to use it. -/
def validateTimeZone (s : HomeService) (value : Option String) : Except Failure String :=
  match value.filter fun text => text ≠ "" ∧ textLength text ≤ 64 with
  | none => .error (.home .timeZoneInvalid
      "A reminder needs the timezone that interpreted the choice." none)
  | some text =>
      if s.knownZone text then .ok text
      else .error (.home .timeZoneInvalid "The timezone is not a known IANA zone name." none)

/-- Check the revision that a change names: a positive safe integer. -/
def requireRevision (revision : ℤ) : Except Failure Unit :=
  if revision < 1 ∨ 2 ^ 53 ≤ revision then
    .error (.home .invalidRequest "The revision must be a positive integer." none)
  else .ok ()

/-- The refusal of a change that was made against another revision. -/
def staleError (currentRevision : ℕ) : Failure :=
  .home .workStale "This saved work changed on another device. Reload it and try again."
    (some currentRevision)

/-- Check that a change names the revision of the loaded record. -/
def requireCurrentRevision (record : HomeWork) (revision : ℤ) : Except Failure Unit :=
  if (record.revision : ℤ) ≠ revision then .error (staleError record.revision) else .ok ()

/-- Check a condition on the loaded record. -/
def requireWork (p : HomeWork → Bool) (message : String) (record : HomeWork) :
    Except Failure Unit :=
  if p record then .ok () else .error (.home .invalidRequest message none)

/-! ## Statements -/

/-- The columns of the unique index on open records. -/
def HomeWork.slot (work : HomeWork) : Uuid × HomeWorkKind × Uuid :=
  (work.accountId, work.kind, work.anchorMessageId)

/-- No two open records of an account and a kind share an anchor. -/
def OpenUnique (work : Table HomeWork) : Prop :=
  ∀ a ∈ work.rows, ∀ b ∈ work.rows, a.status = .open → b.status = .open →
    HomeWork.slot a = HomeWork.slot b → a = b

instance (work : Table HomeWork) : Decidable (OpenUnique work) :=
  inferInstanceAs (Decidable (∀ a ∈ work.rows, ∀ b ∈ work.rows, _))

/-- The unique index on open records. -/
def openIndex : String := "home_work_open_uidx"

/-- Write the rows of saved work, unless they break the index. -/
def storeWork (work : Table HomeWork) : Tx Unit := do
  if ¬ OpenUnique work then
    throw (.uniqueViolation openIndex)
  modify fun db => { db with homeWork := work }

/-- Insert an open record, or nothing where its anchor has one already. -/
def insertWork (row : HomeWork) : Tx (Option HomeWork) := do
  let db ← get
  if (db.accounts.find? row.accountId).isNone then
    throw (.constraintViolation "home_work_account_id_accounts_id_fk")
  if db.homeWork.rows.any fun other =>
      other.status == .open && HomeWork.slot other == HomeWork.slot row then
    return none
  let work ← Tx.inserted "home_work_pkey" db.homeWork row
  set { db with homeWork := work }
  return some row

/-- The record of an identifier, where it has a revision. -/
def recordAt (id : Uuid) (revision : ℕ) (db : Database) : Option HomeWork :=
  (db.homeWork.find? id).filter (·.revision == revision)

/-- Rewrite the record of an identifier, where it has a revision. -/
def updateWork (id : Uuid) (revision : ℕ) (f : HomeWork → HomeWork) (hf : ∀ w, (f w).id = w.id) :
    Tx (Option HomeWork) := do
  let db ← get
  match recordAt id revision db with
  | none => return none
  | some record =>
      storeWork (db.homeWork.update (fun w => w.id == id && w.revision == revision) f hf)
      return some (f record)

/-- Delete the record of an identifier, where it has a revision. -/
def deleteWork (id : Uuid) (revision : ℕ) : Tx (Option HomeWork) := do
  let db ← get
  match recordAt id revision db with
  | none => return none
  | some record =>
      set { db with
        homeWork := db.homeWork.delete fun w => w.id == id && w.revision == revision }
      return some record

/-- A rescheduled record. -/
def rescheduledRow (dueAt : Time) (timeZone : String) (now : Time) (w : HomeWork) : HomeWork :=
  { w with
    dueAt := some dueAt, timeZone := some timeZone, revision := w.revision + 1,
    updatedAt := now * 1000 }

/-- A completed record. -/
def completedRow (now : Time) (w : HomeWork) : HomeWork :=
  { w with
    status := .done, completedAt := some (now * 1000), revision := w.revision + 1,
    updatedAt := now * 1000 }

/-- A reopened record. -/
def reopenedRow (now : Time) (w : HomeWork) : HomeWork :=
  { w with
    status := .open, completedAt := none, revision := w.revision + 1, updatedAt := now * 1000 }

/-! ## Programs -/

/-- Run one statement that writes. -/
def execute {α : Type} (t : Tx α) : HomeProgram α :=
  Program.transaction (S := homeSignature) none t

/-- The recovery gate for one mutation. -/
def HomeService.gate (s : HomeService) (requestGeneration : Option Uuid) : HomeProgram Unit := do
  let gate ← query (gateMutation s.generation requestGeneration)
  let _ ← lift gate

/-- Record one event of the owner. -/
def recordEvent (type entityType : String) (entityId : Uuid) : HomeProgram Unit :=
  execute (Tx.recordEvent .user type entityType entityId)

/-- Reject a missing account. -/
def requireAccount (accountId : Uuid) : HomeProgram Unit := do
  let account ← query fun db => db.accounts.find? accountId
  if account.isNone then
    throw (.home .notFound "The account does not exist." none)

/-- Load the record that a change is about. -/
def loadWorkForMutation (id : Uuid) : HomeProgram HomeWork := do
  match ← query fun db => db.homeWork.find? id with
  | some record => return record
  | none => throw (.home .notFound "The saved work record does not exist." none)

/-- What one saved record asks for. -/
structure CreateWorkInput where
  accountId : Uuid
  anchorMessageId : Uuid
  kind : HomeWorkKind
  dueAt : Option String
  timeZone : Option String
  deriving DecidableEq, Repr

/-- The due time and the zone of a new record; only a reminder has them. -/
def createdTimes (s : HomeService) (input : CreateWorkInput) (now : Time) :
    Except Failure (Option Time × Option String) :=
  match input.kind with
  | .replyLater => .ok (none, none)
  | .reminder => do
      let dueAt ← validateDueAt s input.dueAt now
      let timeZone ← validateTimeZone s input.timeZone
      return (some dueAt, some timeZone)

/-- The record that answers a request to save: the inserted one, or the open one that its anchor
holds already. -/
def savedRecord (input : CreateWorkInput) : Option HomeWork → HomeProgram HomeWork
  | some record => do
      recordEvent "home.work.created" "home_work" record.id
      return record
  | none => do
      let existing ← query fun db => db.homeWork.rows.find? fun other =>
        HomeWork.slot other == (input.accountId, input.kind, input.anchorMessageId) &&
          other.status == .open
      match existing with
      | some record => return record
      | none => throw (.home .notFound "The saved work record disappeared." none)

/-- Save one work record; `id` is the identifier that the database makes up for its row. -/
def createWork (s : HomeService) (requestGeneration : Option Uuid) (input : CreateWorkInput)
    (id : Uuid) : HomeProgram HomeWorkRecordView := do
  s.gate requestGeneration
  let now ← ask .now
  let times ← lift (createdTimes s input now)
  requireAccount input.accountId
  let anchor ← query fun db =>
    (db.messages.find? input.anchorMessageId).filter (·.accountId == input.accountId)
  match anchor with
  | none => throw (.home .notFound "The anchor message does not exist in this account." none)
  | some anchor =>
      let start ← ask .transactionStart
      let inserted ← execute (insertWork ⟨id, input.accountId, input.anchorMessageId,
        anchor.threadId, input.kind, .open, times.1, times.2, 1, start, start, none⟩)
      let record ← savedRecord input inserted
      toWorkRecord record

/-- Load the record of a change: it passes a check and has the revision that the change names. -/
def loadCurrent (check : HomeWork → Except Failure Unit) (id : Uuid) (revision : ℤ) :
    HomeProgram HomeWork := do
  let record ← loadWorkForMutation id
  lift (check record)
  lift (requireCurrentRevision record revision)
  return record

/-- Write a change of a loaded record and record its event; a record that has changed in between
is stale. -/
def commitChange (record : HomeWork) (statement : Tx (Option HomeWork)) (type : String) :
    HomeProgram HomeWork := do
  match ← execute statement with
  | none => throw (staleError (record.revision + 1))
  | some row =>
      recordEvent type "home_work" record.id
      return row

/-- Reschedule one open reminder to a new instant and zone. -/
def rescheduleWork (s : HomeService) (requestGeneration : Option Uuid) (id : Uuid) (revision : ℤ)
    (dueAt timeZone : String) : HomeProgram HomeWorkRecordView := do
  s.gate requestGeneration
  lift (requireRevision revision)
  let now ← ask .now
  let due ← lift (validateDueAt s (some dueAt) now)
  let zone ← lift (validateTimeZone s (some timeZone))
  let record ← loadCurrent (requireWork (fun w => w.kind == .reminder && w.status == .open)
    "Only an open reminder reschedules.") id revision
  let now ← ask .now
  let row ← commitChange record
    (updateWork id record.revision (rescheduledRow due zone now) fun _ => rfl)
    "home.work.rescheduled"
  toWorkRecord row

/-- Complete one saved work item. -/
def completeWork (s : HomeService) (requestGeneration : Option Uuid) (id : Uuid) (revision : ℤ) :
    HomeProgram HomeWorkRecordView := do
  s.gate requestGeneration
  lift (requireRevision revision)
  let record ← loadCurrent (requireWork (·.status == .open) "Only open work completes.")
    id revision
  let now ← ask .now
  let row ← commitChange record (updateWork id record.revision (completedRow now) fun _ => rfl)
    "home.work.completed"
  toWorkRecord row

/-- Reopen one completed item; a competing open record refuses. -/
def reopenWork (s : HomeService) (requestGeneration : Option Uuid) (id : Uuid) (revision : ℤ) :
    HomeProgram HomeWorkRecordView := do
  s.gate requestGeneration
  lift (requireRevision revision)
  let record ← loadCurrent (requireWork (·.status == .done) "Only completed work reopens.")
    id revision
  try
    let now ← ask .now
    let row ← commitChange record (updateWork id record.revision (reopenedRow now) fun _ => rfl)
      "home.work.reopened"
    toWorkRecord row
  catch cause =>
    if cause.isUniqueViolation then
      throw (.home .invalidRequest ("Another open record already holds this message. " ++
        "Review it before reopening.") none)
    throw cause

/-- Cancel one open work record. Completed history stays reviewable. -/
def cancelWork (s : HomeService) (requestGeneration : Option Uuid) (id : Uuid) (revision : ℤ) :
    HomeProgram Unit := do
  s.gate requestGeneration
  lift (requireRevision revision)
  let record ← loadCurrent
    (requireWork (·.status == .open) "Only open work cancels; completed history stays.")
    id revision
  let _ ← commitChange record (deleteWork id record.revision) "home.work.cancelled"

/-! ## Dismissals -/

/-- Insert a dismissal, or nothing where the message of the account has one already. -/
def insertDismissal (row : HomeDismissal) : Tx Unit := do
  let db ← get
  if db.homeDismissals.rows.any fun other =>
      other.accountId == row.accountId && other.messageId == row.messageId then
    return ()
  let dismissals ← Tx.inserted "home_dismissals_pkey" db.homeDismissals row
  set { db with homeDismissals := dismissals }

/-- Delete the dismissal of a message, and say whether there was one. -/
def deleteDismissal (accountId messageId : Uuid) : Tx Bool := do
  let db ← get
  let stands := fun d : HomeDismissal => d.accountId == accountId && d.messageId == messageId
  set { db with homeDismissals := db.homeDismissals.delete stands }
  return db.homeDismissals.rows.any stands

/-- Dismiss the suggestion of one incoming message; `id` is the identifier that the database makes
up for its row. -/
def dismiss (s : HomeService) (requestGeneration : Option Uuid) (accountId messageId id : Uuid) :
    HomeProgram Unit := do
  s.gate requestGeneration
  let m ← query fun db => (db.messages.find? messageId).filter (·.accountId == accountId)
  if m.isNone then
    throw (.home .notFound "The message does not exist in this account." none)
  execute (insertDismissal ⟨id, accountId, messageId⟩)
  recordEvent "home.suggestion.dismissed" "message" messageId

/-- Undo one dismissal. -/
def undismiss (s : HomeService) (requestGeneration : Option Uuid) (accountId messageId : Uuid) :
    HomeProgram Unit := do
  s.gate requestGeneration
  let removed ← execute (deleteDismissal accountId messageId)
  if !removed then
    throw (.home .notFound "No dismissal stands for this message." none)
  recordEvent "home.suggestion.restored" "message" messageId

/-! ## What the statements do -/

variable {db db' : Database} {work work' : Table HomeWork} {id : Uuid}

/-- Of two tables, the second one has what a change of a record at a revision leaves: the record is
gone or has the next revision, and no other record is touched. -/
structure ChangesAt (id : Uuid) (revision : ℤ) (before after : Table HomeWork) : Prop where
  record : ∃ record ∈ before, record.id = id ∧ (record.revision : ℤ) = revision
  next : ∀ w ∈ after, w.id = id → (w.revision : ℤ) = revision + 1
  others : ∀ w, w.id ≠ id → (w ∈ after ↔ w ∈ before)

/-- No record that stays goes back to an earlier revision. -/
def Rises (before after : Table HomeWork) : Prop :=
  ∀ a ∈ before, ∀ b ∈ after, a.id = b.id → a.revision ≤ b.revision

theorem Rises.refl (work : Table HomeWork) : Rises work work := by
  intro a ha b hb hid
  rw [Table.eq_of_key_eq ha hb hid]

/-- A change raises the revision of its record. -/
theorem ChangesAt.rises {revision : ℤ} (h : ChangesAt id revision work work') :
    Rises work work' := by
  intro a ha b hb hid
  obtain ⟨record, hrecord, hrid, hrevision⟩ := h.record
  by_cases hb' : b.id = id
  · have hnext := h.next b hb hb'
    obtain rfl : a = record := Table.eq_of_key_eq ha hrecord ((hid.trans hb').trans hrid.symm)
    omega
  · have hold : b ∈ work := (h.others b hb').mp hb
    rw [Table.eq_of_key_eq ha hold hid]

/-- A change leaves other rows than before. -/
theorem ChangesAt.ne {revision : ℤ} (h : ChangesAt id revision work work') :
    work'.rows ≠ work.rows := by
  intro hrows
  obtain ⟨record, hrecord, hid, hrevision⟩ := h.record
  have hstays : record ∈ work' := by
    rw [Table.mem_iff, hrows]
    exact hrecord
  have hnext := h.next record hstays hid
  omega

/-- A statement that rewrites or deletes one record at a revision, or finds it no more. -/
structure ChangesOnce (id : Uuid) (revision : ℤ) (t : Tx (Option HomeWork)) : Prop where
  run : ∀ {db r db'}, OpenUnique db.homeWork → t.run db = .ok (r, db') →
    (r = none ∧ db' = db) ∨
      (OpenUnique db'.homeWork ∧ ChangesAt id revision db.homeWork db'.homeWork)

theorem mem_recordAt {revision : ℕ} {record : HomeWork}
    (h : recordAt id revision db = some record) :
    record ∈ db.homeWork ∧ record.id = id ∧ record.revision = revision := by
  obtain ⟨hfind, hrevision⟩ := Option.filter_eq_some_iff.mp h
  exact ⟨Table.mem_of_find? hfind, Table.key_of_find? hfind, by simpa using hrevision⟩

@[simp] theorem storeWork_ok {u : Unit} :
    (storeWork work).run db = .ok (u, db') ↔ OpenUnique work ∧ { db with homeWork := work } = db' := by
  unfold storeWork
  by_cases hunique : OpenUnique work <;> simp [hunique]

/-- Rewriting a record at a revision. -/
theorem changesOnce_updateWork {revision : ℕ} {f : HomeWork → HomeWork}
    {hf : ∀ w, (f w).id = w.id} (hnext : ∀ w, (f w).revision = w.revision + 1) :
    ChangesOnce id revision (updateWork id revision f hf) := by
  refine ⟨fun {db r db'} hunique hrun => ?_⟩
  unfold updateWork at hrun
  cases hrecord : recordAt id revision db with
  | none =>
      obtain ⟨rfl, rfl⟩ : none = r ∧ db = db' := by simpa [hrecord] using hrun
      exact .inl ⟨rfl, rfl⟩
  | some record =>
      obtain ⟨hmem, hid, hrevision⟩ := mem_recordAt hrecord
      obtain ⟨-, hstored, rfl⟩ : some (f record) = r ∧ OpenUnique _ ∧ _ = db' := by
        simpa [hrecord, and_assoc, and_comm] using hrun
      refine .inr ⟨hstored, ⟨record, hmem, hid, by rw [hrevision]⟩, fun w hw hwid => ?_,
        fun w hwid => ?_⟩
      · dsimp only at hw
        rw [Table.mem_update] at hw
        obtain ⟨w₀, hw₀, rfl⟩ := hw
        have hsame : w₀ = record := by
          refine Table.eq_of_key_eq hw₀ hmem ?_
          split at hwid
          · exact ((hf w₀).symm.trans hwid).trans hid.symm
          · exact hwid.trans hid.symm
        subst hsame
        have hmatch : (w₀.id == id && w₀.revision == revision) = true := by simp [hid, hrevision]
        rw [if_pos hmatch, hnext, hrevision]
        rfl
      · constructor
        · intro hw
          dsimp only at hw
          rw [Table.mem_update] at hw
          obtain ⟨w₀, hw₀, rfl⟩ := hw
          split at hwid
          next hmatch =>
            have hid₀ : w₀.id = id := by simpa using (Bool.and_eq_true_iff.mp hmatch).1
            exact absurd ((hf w₀).trans hid₀) hwid
          next hmatch =>
            rw [if_neg hmatch]
            exact hw₀
        · intro hw
          have hmatch : ¬ (w.id == id && w.revision == revision) = true := by simp [hwid]
          rw [Table.mem_update]
          exact ⟨w, hw, if_neg hmatch⟩

/-- Deleting a record at a revision. -/
theorem changesOnce_deleteWork {revision : ℕ} :
    ChangesOnce id revision (deleteWork id revision) := by
  refine ⟨fun {db r db'} hunique hrun => ?_⟩
  unfold deleteWork at hrun
  cases hrecord : recordAt id revision db with
  | none =>
      obtain ⟨rfl, rfl⟩ : none = r ∧ db = db' := by simpa [hrecord] using hrun
      exact .inl ⟨rfl, rfl⟩
  | some record =>
      obtain ⟨hmem, hid, hrevision⟩ := mem_recordAt hrecord
      obtain ⟨-, rfl⟩ : some record = r ∧ _ = db' := by simpa [hrecord] using hrun
      refine .inr ⟨fun a ha b hb => ?_, ⟨record, hmem, hid, by rw [hrevision]⟩,
        fun w hw hwid => ?_, fun w hwid => ?_⟩
      · exact hunique a (List.mem_of_mem_filter ha) b (List.mem_of_mem_filter hb)
      · obtain ⟨hold, hkept⟩ := Table.mem_delete.mp hw
        obtain rfl : w = record := Table.eq_of_key_eq hold hmem (hwid.trans hid.symm)
        simp [hid, hrevision] at hkept
      · rw [Table.mem_delete, and_iff_left]
        simp [hwid]

/-- Inserting an open record changes nothing, or takes a free identifier and a free anchor. -/
theorem run_insertWork {row : HomeWork} {r : Option HomeWork}
    (hunique : OpenUnique db.homeWork) (hrun : (insertWork row).run db = .ok (r, db')) :
    db' = db ∨ (OpenUnique db'.homeWork ∧ Rises db.homeWork db'.homeWork) := by
  have hcases : ¬ db.accounts.find? row.accountId = none ∧
      ((∃ a ∈ db.homeWork.rows, a.status = .open ∧ HomeWork.slot a = HomeWork.slot row) ∧
        none = r ∧ db = db' ∨
      (∀ a ∈ db.homeWork.rows, a.status = .open → HomeWork.slot a ≠ HomeWork.slot row) ∧
        ∃ work', db.homeWork.insert? row = some work' ∧ some row = r ∧
          { db with homeWork := work' } = db') := by
    simpa [insertWork] using hrun
  obtain ⟨-, ⟨-, -, rfl⟩ | ⟨hfree, work', hinsert, -, rfl⟩⟩ := hcases
  · exact .inl rfl
  · refine .inr ⟨fun a ha b hb hopen hopen' hslot => ?_, fun a ha b hb hid => ?_⟩
    · rcases (Table.mem_insert? hinsert).mp ha with hold | rfl
      · rcases (Table.mem_insert? hinsert).mp hb with hold' | rfl
        · exact hunique a hold b hold' hopen hopen' hslot
        · exact absurd hslot (hfree a hold hopen)
      · rcases (Table.mem_insert? hinsert).mp hb with hold' | rfl
        · exact absurd hslot.symm (hfree b hold' hopen')
        · rfl
    · rcases (Table.mem_insert? hinsert).mp hb with hold | rfl
      · rw [Table.eq_of_key_eq ha hold hid]
      · exact absurd hid (Table.find?_eq_none_iff.mp (Table.find?_of_insert? hinsert) a ha)

/-- Inserting a dismissal leaves saved work alone. -/
theorem insertDismissal_same {row : HomeDismissal} {u : Unit}
    (hrun : (insertDismissal row).run db = .ok (u, db')) : db'.homeWork = db.homeWork := by
  have hcases : (∃ d ∈ db.homeDismissals.rows,
        d.accountId = row.accountId ∧ d.messageId = row.messageId) ∧ db = db' ∨
      (∀ d ∈ db.homeDismissals.rows,
        d.accountId = row.accountId → ¬ d.messageId = row.messageId) ∧
        ∃ dismissals, db.homeDismissals.insert? row = some dismissals ∧
          { db with homeDismissals := dismissals } = db' := by
    simpa [insertDismissal] using hrun
  rcases hcases with ⟨-, rfl⟩ | ⟨-, dismissals, -, rfl⟩
  · rfl
  · rfl

end MailHub.Home
