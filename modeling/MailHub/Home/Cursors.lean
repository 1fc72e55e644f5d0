import MailHub.Relational.Numeric
import MailHub.Home.Service

/-!
# Cursors of Home

A page of a section, and a page of the saved work, ends with a cursor that names the place of its
last row. A cursor travels as text: the sort value of a section as a decimal number, every time in
whole milliseconds. The next page takes the rows that the database places behind the cursor.
-/

namespace MailHub.Home

open Relational Interleaving

open HomeProgram (lift query ask)

/-! ## Sections -/

/-- The name of a section in a request. -/
def HomeSectionId.name : HomeSectionId → String
  | dueNow => "due_now"
  | needsAttention => "needs_attention"
  | replyLater => "reply_later"
  | sinceVisit => "since_visit"
  | saved => "saved"

/-- The section that a name stands for. -/
def sectionNamed (name : String) : Option HomeSectionId :=
  sectionOrder.find? (·.name == name)

@[simp] theorem sectionNamed_name (id : HomeSectionId) : sectionNamed id.name = some id := by
  cases id <;> rfl

theorem eq_name_of_sectionNamed {name : String} {id : HomeSectionId}
    (h : sectionNamed name = some id) : name = id.name := by
  have hfound := List.find?_some h
  exact (eq_of_beq hfound).symm

/-- A section cursor as it travels: the record inside the encoded text. -/
structure SectionCursorText where
  «section» : String
  tier : ℤ
  /-- Decimal epoch seconds, signed for ascending or descending time order. -/
  sortValue : String
  id : Uuid
  boundary : Option Time
  deriving DecidableEq, Repr

def encodeCursor (cursor : HomeSectionCursor) : SectionCursorText :=
  ⟨cursor.section.name, cursor.tier, String.ofList (numericText cursor.sortValue), cursor.id,
    cursor.boundary.map (· / 1000)⟩

/-- Check a cursor that a request hands in. -/
def decodeCursor (cursor : SectionCursorText) : Except Failure SectionCursorText :=
  if sectionNamed cursor.section = none then
    .error (.home .invalidRequest "The section cursor is not valid." none)
  else if cursor.tier < 0 ∨ 1 < cursor.tier ∨ numericOf cursor.sortValue.toList = none ∨
      40 < cursor.sortValue.length then
    .error (.home .invalidRequest "The section cursor is not valid. Reload Home." none)
  else .ok cursor

/-- Whether the database places a row behind a cursor. -/
def SectionCursorText.before (cursor : SectionCursorText) (c : HomeCandidate) : Bool :=
  cursor.tier < c.tier || cursor.tier == c.tier &&
    (numericOf cursor.sortValue.toList).any fun value =>
      value < (c.sortValue : ℚ) / 1000000 ||
        value == (c.sortValue : ℚ) / 1000000 && cursor.id < c.sortId

/-- One section page with its cursor text. -/
structure HomeSectionResult where
  id : HomeSectionId
  total : ℕ
  items : List HomeItem
  nextCursor : Option SectionCursorText
  deriving DecidableEq, Repr

/-- A page with the text of its cursor. -/
def HomeSection.result (page : HomeSection) : HomeSectionResult :=
  ⟨page.id, page.total, page.items, page.nextCursor.map encodeCursor⟩

/-- Rank the conversations and read the page of a section behind a cursor text. -/
def sectionPage (lower : String → String) (id : HomeSectionId) (limit : ℕ)
    (cursor : Option SectionCursorText) (boundary : Option Instant) (now : Time)
    (db : Database) : HomeSectionResult :=
  let cs := candidates lower now boundary db
  let page := ((sectionLeaders id cs).filter fun c => cursor.all (·.before c)).take (limit + 1)
  { id, total := (sectionLeaders id cs).length
    items := (page.take limit).map (rankedEntry lower cs db)
    nextCursor :=
      if limit < page.length then
        page[limit - 1]?.map fun last =>
          encodeCursor ⟨id, last.tier, last.sortValue, last.sortId, boundary⟩
      else none }

/-- What one section page asks for. -/
structure HomeSectionInput where
  «section» : String
  /-- The cursor the previous page returned, for the next page. -/
  cursor : Option SectionCursorText
  limit : Option ℕ
  /-- The device whose visit boundary a first page uses. -/
  deviceId : Option String
  /-- Freeze the previous visit across section refreshes; `some none` means the first visit. -/
  visitBoundary : Option (Option Time)

/-- The cursor of a request, which must name the section that is read. -/
def requestCursor (input : HomeSectionInput) : Except Failure (Option SectionCursorText) :=
  match input.cursor with
  | none => .ok none
  | some text => do
      let cursor ← decodeCursor text
      if cursor.section ≠ input.section then
        .error (.home .invalidRequest "The cursor names a different section." none)
      else .ok (some cursor)

/-- The section of a request. -/
def requestSection (input : HomeSectionInput) : Except Failure HomeSectionId :=
  match sectionNamed input.section with
  | some id => .ok id
  | none => .error (.home .invalidRequest "Unknown section." none)

/-- The visit boundary of a first page. -/
def firstBoundary (input : HomeSectionInput) (id : HomeSectionId) : HomeProgram (Option Time) := do
  match input.visitBoundary with
  | some boundary => return boundary
  | none =>
      if input.deviceId.isSome ∨ id = .sinceVisit then
        let deviceId ← lift (requireDeviceId (input.deviceId.getD ""))
        let boundary ← query (visitBoundary deviceId)
        return boundary.map (· / 1000)
      else return none

/-- The visit boundary of a page: the one its cursor carries, or the one of a first page. -/
def sectionBoundary (input : HomeSectionInput) (id : HomeSectionId) :
    Option SectionCursorText → HomeProgram (Option Time)
  | some cursor => return cursor.boundary
  | none => firstBoundary input id

/-- Attach the occurrences of the representatives; an empty page needs none. -/
def attachOccurrences (page : HomeSectionResult) : HomeProgram HomeSectionResult :=
  if page.items = [] then return page
  else do
    let items ← query fun db => page.items.map (withOccurrences db)
    return { page with items }

/-- Read one section page, continuing from a cursor when one is given. -/
def readSection (lower : String → String) (input : HomeSectionInput) :
    HomeProgram HomeSectionResult := do
  let limit ← lift (pageLimit input.limit)
  let cursor ← lift (requestCursor input)
  let id ← lift (requestSection input)
  let boundary ← sectionBoundary input id cursor
  let now ← ask .now
  let page ← query (sectionPage lower id limit cursor (boundary.map (· * 1000)) now)
  attachOccurrences page

/-! ## Saved work -/

/-- How many work records the review lists return. -/
def workListLimit : ℕ := 200

/-- A due time in the order of the database: one that is missing comes last. -/
def duePlace (dueAt : Option Time) : Bool ×ₗ Time := toLex (dueAt.isNone, dueAt.getD 0)

/-- The order of the work list: open before done, reminders before replies, due soonest first. -/
def workPlace (w : HomeWork) : ℕ ×ₗ ℕ ×ₗ (Bool ×ₗ Time) ×ₗ Time ×ₗ Uuid :=
  toLex (if w.status = .open then 0 else 1, toLex (if w.kind = .reminder then 0 else 1,
    toLex (duePlace w.dueAt, toLex (w.createdAt / 1000, w.id))))

/-- A work cursor as it travels. -/
structure WorkCursor where
  status : ℕ
  kind : ℕ
  dueAt : Option Time
  createdAt : Time
  id : Uuid
  deriving DecidableEq, Repr

/-- The place that a work cursor continues behind. -/
def WorkCursor.place (c : WorkCursor) : ℕ ×ₗ ℕ ×ₗ (Bool ×ₗ Time) ×ₗ Time ×ₗ Uuid :=
  toLex (c.status, toLex (c.kind, toLex (duePlace c.dueAt, toLex (c.createdAt, c.id))))

/-- Check a work cursor that a request hands in. -/
def decodeWorkCursor (cursor : WorkCursor) : Except Failure WorkCursor :=
  if 1 < cursor.status ∨ 1 < cursor.kind then
    .error (.home .invalidRequest "The work cursor is not valid." none)
  else .ok cursor

/-- One work record with its anchor summary. -/
structure HomeWorkRecordView where
  id : Uuid
  kind : HomeWorkKind
  status : HomeWorkStatus
  dueAt : Option Time
  timeZone : Option String
  revision : ℕ
  anchorUnavailable : Bool
  accountId : Uuid
  anchorMessageId : Uuid
  anchor : Option HomeMessageSummary
  occurrences : List OccurrenceRef
  createdAt : Time
  updatedAt : Time
  completedAt : Option Time
  deriving DecidableEq, Repr

/-- The anchor of a work record. -/
def workAnchor (record : HomeWork) (db : Database) : Option Message :=
  (db.messages.find? record.anchorMessageId).filter fun m =>
    (db.accounts.find? m.accountId).isSome

/-- The occurrences of a message that are still on the server. -/
def loadOccurrences (messageId : Uuid) (db : Database) : List MessageOccurrence :=
  db.messageOccurrences.select fun o => o.messageId == messageId && o.isActive

/-- The view of one work record with its anchor and the occurrences of that. -/
def workView (record : HomeWork) (anchor : Option (Message × List MessageOccurrence)) :
    HomeWorkRecordView where
  id := record.id
  kind := record.kind
  status := record.status
  dueAt := record.dueAt
  timeZone := record.timeZone
  revision := record.revision
  anchorUnavailable := anchor.isNone
  accountId := record.accountId
  anchorMessageId := record.anchorMessageId
  anchor := anchor.map fun (m, active) =>
    { messageSummary m with
      unread := active.any (·.unread)
      flagged := active.any (·.flagged) }
  occurrences := (anchor.map fun (_, active) =>
    active.map fun o => ⟨o.id, o.folderId, o.revision, o.modseq⟩).getD []
  createdAt := record.createdAt / 1000
  updatedAt := record.updatedAt / 1000
  completedAt := record.completedAt.map (· / 1000)

/-- One work record with its anchor summary, for the list responses. -/
def toWorkRecord (record : HomeWork) : HomeProgram HomeWorkRecordView := do
  match ← query (workAnchor record) with
  | none => return workView record none
  | some m =>
      let active ← query (loadOccurrences m.id)
      return workView record (some (m, active))

/-- The work records of a page, one after the other. -/
def toWorkRecords : List HomeWork → HomeProgram (List HomeWorkRecordView)
  | [] => return []
  | record :: records => do
      let view ← toWorkRecord record
      let views ← toWorkRecords records
      return view :: views

/-- What one page of the work list asks for. -/
structure HomeWorkInput where
  status : Option HomeWorkStatus
  kind : Option HomeWorkKind
  cursor : Option WorkCursor
  limit : Option ℕ

/-- One page of the work list. -/
structure HomeWorkList where
  work : List HomeWorkRecordView
  nextCursor : Option WorkCursor
  deriving DecidableEq, Repr

/-- The work records that a request asks for, in the order of the list. -/
def workList (input : HomeWorkInput) (db : Database) : List HomeWork :=
  (db.homeWork.select fun w =>
    input.status.all (· == w.status) && input.kind.all (· == w.kind)).insertionSort
      fun a b => workPlace a ≤ workPlace b

/-- The cursor behind the last record of a page. -/
def HomeWorkRecordView.cursor (last : HomeWorkRecordView) : WorkCursor :=
  ⟨if last.status = .open then 0 else 1, if last.kind = .reminder then 0 else 1, last.dueAt,
    last.createdAt, last.id⟩

/-- The page size of a request for the work list. -/
def workLimit : Option ℕ → Except Failure ℕ
  | none => .ok workListLimit
  | some limit => pageLimit (some limit)

/-- The work cursor of a request. -/
def requestWorkCursor : Option WorkCursor → Except Failure (Option WorkCursor)
  | none => .ok none
  | some cursor => (decodeWorkCursor cursor).map some

/-- The records behind a cursor, one more than a page holds. -/
def workRows (input : HomeWorkInput) (limit : ℕ) (cursor : Option WorkCursor) (db : Database) :
    List HomeWork :=
  ((workList input db).filter fun w => cursor.all fun after => after.place < workPlace w).take
    (limit + 1)

/-- Page all saved work, including future reminders and completed records. -/
def listWorkPage (input : HomeWorkInput) : HomeProgram HomeWorkList := do
  let limit ← lift (workLimit input.limit)
  let cursor ← lift (requestWorkCursor input.cursor)
  let rows ← query (workRows input limit cursor)
  let work ← toWorkRecords (rows.take limit)
  return ⟨work, if limit < rows.length then work.getLast?.map (·.cursor) else none⟩

end MailHub.Home
