import Mathlib.Data.List.Dedup
import Mathlib.Data.List.Sort
import Mathlib.Data.Prod.Lex
import Mathlib.Data.Rat.Init
import MailHub.Schema

/-!
# Sections of Home

Home ranks conversations from stored choices, stored work and stored answers. Every message and
every open work record gives candidates for the five sections; the best candidate of a conversation
decides its section, and a section is read page by page in rank order.
-/

namespace MailHub.Home

open Relational

/-! ## Sections and reasons -/

/-- The sections of Home, in their order. -/
inductive HomeSectionId
  | dueNow | needsAttention | replyLater | sinceVisit | saved
  deriving DecidableEq, Repr

/-- The position of a section. -/
def HomeSectionId.index : HomeSectionId → ℕ
  | dueNow => 0
  | needsAttention => 1
  | replyLater => 2
  | sinceVisit => 3
  | saved => 4

/-- All sections, in their order. -/
def sectionOrder : List HomeSectionId :=
  [.dueNow, .needsAttention, .replyLater, .sinceVisit, .saved]

inductive HomeReasonCode
  | youPrioritizedSender | youPrioritizedThread | securityAlert | mayNeedAction | mayNeedReply
  | timeSensitive | reminderDue | replyPlanned | newArrival | youStarred
  deriving DecidableEq, Repr

inductive HomeReasonOrigin
  | choice | suggestion | notice
  deriving DecidableEq, Repr

/-- One reason a Home row shows, with its origin. -/
structure HomeReason where
  code : HomeReasonCode
  origin : HomeReasonOrigin
  deriving DecidableEq, Repr

/-! ## Signals -/

/-- The stored signals of one message. -/
structure HomeSignal where
  message : Message
  inInbox : Bool
  starred : Bool
  notDismissed : Bool
  prioritySender : Bool
  priorityThread : Bool
  classSource : Option String
  /-- The action confidence of the newest decision, when the model gave the answer. -/
  actionConfidence : Option Rat
  deriving DecidableEq, Repr

/-- The conversation of a message: its thread, or the message itself without one. -/
def HomeSignal.entryKey (s : HomeSignal) : Uuid := s.message.threadId.getD s.message.id

/-- The occurrences of a message that are still on the server, with their folders. -/
def activeOccurrences (db : Database) (messageId : Uuid) : List (MessageOccurrence × Folder) :=
  (db.messageOccurrences.select fun o => o.messageId == messageId && o.isActive).filterMap fun o =>
    (db.folders.find? o.folderId).map fun f => (o, f)

/-- An active occurrence in an inbox-role folder. -/
def inboxOccurrence (db : Database) (m : Message) : Bool :=
  (activeOccurrences db m.id).any fun o => o.2.role == some .inbox

/-- An active flagged occurrence outside junk, trash and drafts. -/
def starredOccurrence (db : Database) (m : Message) : Bool :=
  (activeOccurrences db m.id).any fun o => o.1.flagged &&
    !(o.2.role == some .junk || o.2.role == some .trash || o.2.role == some .drafts)

/-- No dismissal hides this message from Home. -/
def notDismissed (db : Database) (m : Message) : Bool :=
  !db.homeDismissals.rows.any fun d => d.accountId == m.accountId && d.messageId == m.id

/-- The decisions about a message, newest first. -/
def newestDecisions (db : Database) (m : Message) : List Decision :=
  (db.decisions.select (·.messageId == m.id)).insertionSort fun a b =>
    toLex (b.createdAt, b.id) ≤ toLex (a.createdAt, a.id)

/-- The signals of one message; `lower` is the lower case of the database. -/
def signalOf (lower : String → String) (db : Database) (m : Message) : HomeSignal where
  message := m
  inInbox := inboxOccurrence db m
  starred := starredOccurrence db m
  notDismissed := notDismissed db m
  prioritySender := db.homePriorities.rows.any fun p => p.accountId == m.accountId &&
    m.sender.any fun sender => p.target == .sender (lower sender.address)
  priorityThread := db.homePriorities.rows.any fun p => p.accountId == m.accountId &&
    m.threadId.any fun thread => p.target == .thread thread
  classSource := m.metadata.text "classSource"
  actionConfidence :=
    if m.metadata.text "classSource" = some "jev" then
      (newestDecisions db m).head?.bind (·.actionConfidence)
    else none

/-- The signals of every message. -/
def signals (lower : String → String) (db : Database) : List HomeSignal :=
  (db.messages.select fun m => (db.accounts.find? m.accountId).isSome).map (signalOf lower db)

/-- One open work record with its conversation. -/
structure HomeWorkEntry where
  record : HomeWork
  entryKey : Uuid
  anchorUnavailable : Bool
  deriving DecidableEq, Repr

/-- The open work records. -/
def workEntries (db : Database) : List HomeWorkEntry :=
  (db.homeWork.select fun w =>
    w.status == .open && (db.accounts.find? w.accountId).isSome).map fun w =>
      match db.messages.find? w.anchorMessageId with
      | some m => ⟨w, m.threadId.getD m.id, false⟩
      | none => ⟨w, w.threadId.getD w.anchorMessageId, true⟩

/-! ## Candidates -/

/-- The action breakout threshold. -/
def actionBreakoutConfidence : Rat := 3 / 4

/-- One candidate of a conversation for a section; sort values are in microseconds. -/
structure HomeCandidate where
  entryKey : Uuid
  messageId : Uuid
  sortId : Uuid
  «section» : HomeSectionId
  tier : ℕ
  sortValue : ℤ
  deriving DecidableEq, Repr

/-- Whether a message leads the attention section. -/
def HomeSignal.leads (s : HomeSignal) : Bool :=
  s.prioritySender || s.priorityThread || s.message.classHint == some .securityAlert ||
    (s.message.asksAction == some true &&
      s.actionConfidence.any fun confidence => actionBreakoutConfidence ≤ confidence)

/-- Whether a message asks for attention. -/
def HomeSignal.asksAttention (s : HomeSignal) : Bool :=
  s.prioritySender || s.priorityThread || s.message.classHint == some .securityAlert ||
    s.message.asksAction == some true || s.message.asksReply == some true ||
      s.message.timeSensitive == some true

/-- The send time of a message, or its arrival without one. -/
def effectiveTime (m : Message) : Instant := (m.sentAt.map (· * 1000)).getD m.ingestedAt

/-- Whether a message arrived after the visit boundary; before a first visit nothing did. -/
def arrivedSince (boundary : Option Instant) (m : Message) : Bool :=
  boundary.any fun b => b < m.ingestedAt

/-- The candidates that one message gives. -/
def HomeSignal.candidates (boundary : Option Instant) (s : HomeSignal) : List HomeCandidate :=
  let candidate := fun id tier time =>
    (⟨s.entryKey, s.message.id, s.message.id, id, tier, time⟩ : HomeCandidate)
  let shown := s.inInbox && s.notDismissed
  (if shown && s.asksAttention then
    [candidate .needsAttention (if s.leads then 0 else 1) (-(effectiveTime s.message : ℤ))]
    else []) ++
  (if shown && arrivedSince boundary s.message then
    [candidate .sinceVisit 0 (-(s.message.ingestedAt : ℤ))] else []) ++
  (if s.starred then [candidate .saved 0 (-(effectiveTime s.message : ℤ))] else [])

/-- The candidates that one work record gives. -/
def HomeWorkEntry.candidates (now : Time) (w : HomeWorkEntry) : List HomeCandidate :=
  match w.record.kind with
  | .reminder =>
      match w.record.dueAt with
      | some dueAt =>
          if dueAt ≤ now then
            [⟨w.entryKey, w.record.anchorMessageId, w.record.id, .dueNow, 0, dueAt * 1000⟩]
          else []
      | none => []
  | .replyLater =>
      [⟨w.entryKey, w.record.anchorMessageId, w.record.id, .replyLater, 0, w.record.createdAt⟩]

/-- All candidates. -/
def candidates (lower : String → String) (now : Time) (boundary : Option Instant)
    (db : Database) : List HomeCandidate :=
  (workEntries db).flatMap (·.candidates now) ++
    (signals lower db).flatMap (·.candidates boundary)

/-- The order of candidates inside a section. -/
def HomeCandidate.place (c : HomeCandidate) : ℕ ×ₗ ℤ ×ₗ Uuid :=
  toLex (c.tier, toLex (c.sortValue, c.sortId))

/-- The order of candidates over all sections. -/
def HomeCandidate.rank (c : HomeCandidate) : ℕ ×ₗ ℕ ×ₗ ℤ ×ₗ Uuid :=
  toLex (c.section.index, c.place)

/-- Candidates in rank order. -/
def ranked (cs : List HomeCandidate) : List HomeCandidate :=
  cs.insertionSort fun a b => a.rank ≤ b.rank

/-- The best candidate of each conversation. -/
def leaders (cs : List HomeCandidate) : List HomeCandidate :=
  (cs.map (·.entryKey)).dedup.filterMap fun key => (ranked (cs.filter (·.entryKey == key))).head?

variable {cs : List HomeCandidate} {c : HomeCandidate}

@[simp] theorem mem_ranked : c ∈ ranked cs ↔ c ∈ cs := List.mem_insertionSort _

/-- A leader is the best candidate of its conversation. -/
theorem mem_leaders :
    c ∈ leaders cs ↔ (ranked (cs.filter (·.entryKey == c.entryKey))).head? = some c := by
  unfold leaders
  rw [List.mem_filterMap]
  have hkey : ∀ key, (ranked (cs.filter (·.entryKey == key))).head? = some c →
      c ∈ cs ∧ c.entryKey = key := by
    intro key h
    have hmem := mem_ranked.mp (List.mem_of_mem_head? h)
    exact ⟨List.mem_of_mem_filter hmem, eq_of_beq (List.mem_filter.mp hmem).2⟩
  constructor
  · rintro ⟨key, -, h⟩
    obtain ⟨-, rfl⟩ := hkey key h
    exact h
  · intro h
    have hc := (hkey _ h).1
    exact ⟨c.entryKey, List.mem_dedup.mpr (List.mem_map.mpr ⟨c, hc, rfl⟩), h⟩

theorem mem_of_mem_leaders (h : c ∈ leaders cs) : c ∈ cs :=
  List.mem_of_mem_filter (mem_ranked.mp (List.mem_of_mem_head? (mem_leaders.mp h)))

/-! ## Entries -/

/-- The origin of a stored answer: one that the owner gave is a choice. -/
def suggestionOrigin (source : Option String) : HomeReasonOrigin :=
  if source = some "manual" ∨ source = some "override" then .choice else .suggestion

/-- The attention reasons one message carries, most important first. -/
def attentionReasons (s : HomeSignal) : List HomeReason :=
  let origin := suggestionOrigin s.classSource
  (if s.prioritySender then [⟨.youPrioritizedSender, .choice⟩] else []) ++
  (if s.priorityThread then [⟨.youPrioritizedThread, .choice⟩] else []) ++
  (if s.message.classHint = some .securityAlert then [⟨.securityAlert, origin⟩] else []) ++
  (if s.message.asksAction = some true then [⟨.mayNeedAction, origin⟩] else []) ++
  (if s.message.asksReply = some true then [⟨.mayNeedReply, origin⟩] else []) ++
  (if s.message.timeSensitive = some true then [⟨.timeSensitive, origin⟩] else [])

/-- The reasons of one candidate. -/
def HomeCandidate.reasons (members : List HomeSignal) (c : HomeCandidate) : List HomeReason :=
  match c.section with
  | .dueNow => [⟨.reminderDue, .choice⟩]
  | .needsAttention =>
      match members.find? (·.message.id == c.messageId) with
      | some member => attentionReasons member
      -- a candidate of this section always has its message among the members
      | none => [⟨.youStarred, .choice⟩]
  | .replyLater => [⟨.replyPlanned, .choice⟩]
  | .sinceVisit => [⟨.newArrival, .notice⟩]
  | .saved => [⟨.youStarred, .choice⟩]

/-- One message a Home row summarizes. -/
structure HomeMessageSummary where
  messageId : Uuid
  accountId : Uuid
  threadId : Option Uuid
  subject : Option String
  sender : Option EmailAddress
  sentAt : Option Time
  unread : Bool
  flagged : Bool
  hasAttachments : Bool
  deriving DecidableEq, Repr

/-- An occurrence as a mail action names it. -/
structure OccurrenceRef where
  occurrenceId : Uuid
  folderId : Uuid
  revision : ℕ
  modseq : Option ℕ
  deriving DecidableEq, Repr

/-- One entry of a section. -/
structure HomeItem where
  entryKey : Uuid
  message : HomeMessageSummary
  /-- Every message this entry covers; the representative comes first. -/
  messageIds : List Uuid
  reasons : List HomeReason
  work : List HomeWorkEntry
  occurrences : List OccurrenceRef
  noServerCopy : Bool
  deriving DecidableEq, Repr

/-- The summary of a representative message. -/
def messageSummary (m : Message) : HomeMessageSummary :=
  ⟨m.id, m.accountId, m.threadId, m.subject, m.sender, m.sentAt, false, false, m.hasAttachments⟩

/-- The summary of an anchor that is gone. -/
def unavailableSummary (messageId : Uuid) (work : List HomeWorkEntry) : HomeMessageSummary :=
  ⟨messageId, (work.head?.map (·.record.accountId)).getD 0, none, none, none, none, false, false,
    false⟩

/-- The order of the work records of a conversation: due soonest first. -/
def HomeWorkEntry.place (w : HomeWorkEntry) : Bool ×ₗ Time ×ₗ Instant ×ₗ Uuid :=
  toLex (w.record.dueAt.isNone,
    toLex (w.record.dueAt.getD 0, toLex (w.record.createdAt, w.record.id)))

/-- The entry of one leading candidate. -/
def rankedEntry (lower : String → String) (cs : List HomeCandidate) (db : Database)
    (c : HomeCandidate) : HomeItem :=
  let members := ((signals lower db).filter (·.entryKey == c.entryKey)).insertionSort
    fun a b => a.message.id ≤ b.message.id
  let work := ((workEntries db).filter (·.entryKey == c.entryKey)).insertionSort
    fun a b => a.place ≤ b.place
  let reasons := (ranked (cs.filter (·.entryKey == c.entryKey))).flatMap (·.reasons members)
  let message := match members.find? (·.message.id == c.messageId) with
    | some lead => messageSummary lead.message
    | none => unavailableSummary c.messageId work
  { entryKey := c.entryKey, message, reasons := reasons.reverse.dedup.reverse, work,
    messageIds := (c.messageId :: members.map (·.message.id) ++
      work.map (·.record.anchorMessageId)).reverse.dedup.reverse,
    occurrences := [], noServerCopy := false }

/-- The active occurrences of a representative message. -/
def withOccurrences (db : Database) (item : HomeItem) : HomeItem :=
  let active := db.messageOccurrences.select fun o =>
    o.messageId == item.message.messageId && o.isActive
  { item with
    message :=
      { item.message with
        unread := active.any (·.unread)
        flagged := active.any (·.flagged) }
    occurrences := active.map fun o => ⟨o.id, o.folderId, o.revision, o.modseq⟩
    noServerCopy := active.isEmpty }

/-! ## Pages -/

/-- A cursor preserves the order of the database and the visit boundary. -/
structure HomeSectionCursor where
  «section» : HomeSectionId
  tier : ℕ
  sortValue : ℤ
  id : Uuid
  boundary : Option Instant
  deriving DecidableEq, Repr

/-- The place that a cursor continues behind. -/
def HomeSectionCursor.place (c : HomeSectionCursor) : ℕ ×ₗ ℤ ×ₗ Uuid :=
  toLex (c.tier, toLex (c.sortValue, c.id))

/-- One section with its page and its total. -/
structure HomeSection where
  id : HomeSectionId
  total : ℕ
  items : List HomeItem
  nextCursor : Option HomeSectionCursor
  deriving DecidableEq, Repr

/-- The leaders of one section, in order. -/
def sectionLeaders (id : HomeSectionId) (cs : List HomeCandidate) : List HomeCandidate :=
  ((leaders cs).filter (·.section == id)).insertionSort fun a b => a.place ≤ b.place

theorem mem_sectionLeaders {id : HomeSectionId} :
    c ∈ sectionLeaders id cs ↔ c ∈ leaders cs ∧ c.section = id := by
  unfold sectionLeaders
  rw [List.mem_insertionSort, List.mem_filter, beq_iff_eq]

/-- The leaders of one page: at most `limit + 1`, so that a further page can be told. -/
def pageLeaders (id : HomeSectionId) (limit : ℕ) (cursor : Option HomeSectionCursor)
    (cs : List HomeCandidate) : List HomeCandidate :=
  ((sectionLeaders id cs).filter fun c => cursor.all fun after => after.place < c.place).take
    (limit + 1)

theorem mem_of_mem_pageLeaders {id : HomeSectionId} {limit : ℕ}
    {cursor : Option HomeSectionCursor} (h : c ∈ pageLeaders id limit cursor cs) :
    c ∈ sectionLeaders id cs :=
  List.mem_of_mem_filter (List.mem_of_mem_take h)

/-- Rank the conversations and read one page of a section. -/
def rankedSection (lower : String → String) (id : HomeSectionId) (limit : ℕ)
    (cursor : Option HomeSectionCursor) (boundary : Option Instant) (now : Time)
    (db : Database) : HomeSection :=
  let cs := candidates lower now boundary db
  let page := pageLeaders id limit cursor cs
  { id, total := (sectionLeaders id cs).length
    items := (page.take limit).map (rankedEntry lower cs db)
    nextCursor :=
      if limit < page.length then
        page[limit - 1]?.map fun last =>
          ⟨id, last.tier, last.sortValue, last.sortId, boundary⟩
      else none }

end MailHub.Home
