import MailHub.Interleaving.Outcome
import MailHub.Ordering.Pages
import MailHub.Home.Cursors
import MailHub.Home.Ranking

/-!
# Pages of Home

On a fixed database and a fixed clock, following the cursors of a section from its first page gives
the whole ranked list of the section: each conversation once, in order, in the highest section that
it has a candidate for, and with totals that count the list. The list of saved work is paged in the
same way.
-/

namespace MailHub.Home

open Relational Interleaving Ordering

variable {lower : String → String} {now : Time} {boundary : Option Instant} {db : Database}
variable {cs : List HomeCandidate} {c d : HomeCandidate} {id : HomeSectionId}

/-! ## Leaders -/

/-- A conversation has one leader. -/
theorem leaders_eq_of_entryKey (hc : c ∈ leaders cs) (hd : d ∈ leaders cs)
    (hkey : c.entryKey = d.entryKey) : c = d := by
  have hc := mem_leaders.mp hc
  have hd := mem_leaders.mp hd
  rw [hkey, hd] at hc
  exact (Option.some.inj hc).symm

/-- Every candidate stands behind the leader of its conversation. -/
theorem exists_leader (hc : c ∈ cs) :
    ∃ d ∈ leaders cs, d.entryKey = c.entryKey ∧ d.rank ≤ c.rank := by
  have hmem : c ∈ cs.filter (·.entryKey == c.entryKey) :=
    List.mem_filter.mpr ⟨hc, beq_self_eq_true _⟩
  obtain ⟨d, hd⟩ : ∃ d, (ranked (cs.filter (·.entryKey == c.entryKey))).head? = some d := by
    cases hranked : (ranked (cs.filter (·.entryKey == c.entryKey))) with
    | nil =>
        rw [← mem_ranked, hranked] at hmem
        cases hmem
    | cons d _ => exact ⟨d, rfl⟩
  have hkey : d.entryKey = c.entryKey :=
    eq_of_beq (List.mem_filter.mp (mem_ranked.mp (List.mem_of_mem_head? hd))).2
  exact ⟨d, mem_leaders.mpr (hkey ▸ hd), hkey, head?_insertionSort_le _ _ hd hmem⟩

/-- A better rank is in a section that does not come later. -/
theorem index_le_of_rank_le (h : c.rank ≤ d.rank) : c.section.index ≤ d.section.index :=
  Prod.Lex.monotone_fst _ _ h

theorem index_injective {id id' : HomeSectionId} (h : id.index = id'.index) : id = id' := by
  cases id <;> cases id' <;> first | rfl | cases h

theorem nodup_leaders : (leaders cs).Nodup := by
  unfold leaders
  refine (List.nodup_dedup _).filterMap ?_
  intro key key' c hc hc'
  have hkey : ∀ key, c ∈ (ranked (cs.filter (·.entryKey == key))).head? → c.entryKey = key :=
    fun key h => eq_of_beq (List.mem_filter.mp (mem_ranked.mp (List.mem_of_mem_head? h))).2
  rw [← hkey key hc, ← hkey key' hc']

/-! ## Candidates of one section -/

/-- The candidates are those of the open work and those of the stored messages. -/
theorem mem_candidates : c ∈ candidates lower now boundary db ↔
    (∃ w ∈ workEntries db, c ∈ w.candidates now) ∨
      ∃ s ∈ signals lower db, c ∈ s.candidates boundary := by
  unfold candidates
  rw [List.mem_append, List.mem_flatMap, List.mem_flatMap]

/-- The candidate that a work record can give. -/
def HomeWorkEntry.candidate (w : HomeWorkEntry) : HomeCandidate :=
  match w.record.kind with
  | .reminder =>
      ⟨w.entryKey, w.record.anchorMessageId, w.record.id, .dueNow, 0,
        ((w.record.dueAt.getD 0 * 1000 : ℕ) : ℤ)⟩
  | .replyLater =>
      ⟨w.entryKey, w.record.anchorMessageId, w.record.id, .replyLater, 0, w.record.createdAt⟩

/-- The candidate that a message can give for a section. -/
def HomeSignal.candidateIn (s : HomeSignal) (id : HomeSectionId) : HomeCandidate :=
  ⟨s.entryKey, s.message.id, s.message.id, id,
    if id = .needsAttention ∧ s.leads = false then 1 else 0,
    -((if id = .sinceVisit then s.message.ingestedAt else effectiveTime s.message : ℕ) : ℤ)⟩

theorem eq_of_mem_work {w : HomeWorkEntry} (h : c ∈ w.candidates now) : c = w.candidate := by
  unfold HomeWorkEntry.candidates at h
  unfold HomeWorkEntry.candidate
  cases hkind : w.record.kind with
  | reminder =>
      cases hdue : w.record.dueAt with
      | none =>
          simp only [hkind, hdue] at h
          cases h
      | some dueAt =>
          simp only [hkind, hdue] at h
          exact List.mem_singleton.mp (List.mem_ite_nil_right.mp h).2
  | replyLater =>
      simp only [hkind] at h
      exact List.mem_singleton.mp h

theorem eq_of_mem_signal {s : HomeSignal} (h : c ∈ s.candidates boundary) :
    c = s.candidateIn c.section ∧
      (c.section = .needsAttention ∨ c.section = .sinceVisit ∨ c.section = .saved) := by
  unfold HomeSignal.candidates at h
  unfold HomeSignal.candidateIn
  simp only [List.mem_append, List.mem_ite_nil_right, List.mem_singleton] at h
  rcases h with (⟨-, rfl⟩ | ⟨-, rfl⟩) | ⟨-, rfl⟩
  · cases s.leads <;> exact ⟨rfl, .inl rfl⟩
  · exact ⟨rfl, .inr (.inl rfl)⟩
  · exact ⟨rfl, .inr (.inr rfl)⟩

/-- A work record gives a candidate for the sections of work. -/
theorem section_candidate (w : HomeWorkEntry) :
    w.candidate.section = .dueNow ∨ w.candidate.section = .replyLater := by
  unfold HomeWorkEntry.candidate
  split
  · exact .inl rfl
  · exact .inr rfl

theorem sortId_candidate (w : HomeWorkEntry) : w.candidate.sortId = w.record.id := by
  unfold HomeWorkEntry.candidate
  split <;> rfl

/-- A work entry is known by the identifier of its record. -/
theorem workEntries_eq {w w' : HomeWorkEntry} (hw : w ∈ workEntries db) (hw' : w' ∈ workEntries db)
    (hid : w.record.id = w'.record.id) : w = w' := by
  unfold workEntries at hw hw'
  obtain ⟨r, hr, hentry⟩ := List.mem_map.mp hw
  obtain ⟨r', hr', hentry'⟩ := List.mem_map.mp hw'
  have hrecord : w.record = r := by
    rw [← hentry]
    split <;> rfl
  have hrecord' : w'.record = r' := by
    rw [← hentry']
    split <;> rfl
  rw [hrecord, hrecord'] at hid
  obtain rfl : r = r' :=
    Table.eq_of_key_eq (Table.mem_select.mp hr).1 (Table.mem_select.mp hr').1 hid
  exact hentry.symm.trans hentry'

/-- Work and messages give candidates for different sections. -/
theorem section_ne {w : HomeWorkEntry} {s : HomeSignal} (hc : c ∈ w.candidates now)
    (hd : d ∈ s.candidates boundary) : c.section ≠ d.section := by
  intro hsection
  have hwork := section_candidate w
  rw [← eq_of_mem_work hc, hsection] at hwork
  rcases (eq_of_mem_signal hd).2 with h | h | h <;> simp [h] at hwork

/-- In one section a candidate is known by its identifier. -/
theorem candidates_eq_of_sortId (hc : c ∈ candidates lower now boundary db)
    (hd : d ∈ candidates lower now boundary db) (hsection : c.section = d.section)
    (hid : c.sortId = d.sortId) : c = d := by
  rcases mem_candidates.mp hc with ⟨w, hw, hcw⟩ | ⟨s, hs, hcs⟩ <;>
    rcases mem_candidates.mp hd with ⟨w', hw', hdw⟩ | ⟨s', hs', hds⟩
  · rw [eq_of_mem_work hcw, eq_of_mem_work hdw, sortId_candidate, sortId_candidate] at hid
    rw [eq_of_mem_work hcw, eq_of_mem_work hdw, workEntries_eq hw hw' hid]
  · exact absurd hsection (section_ne hcw hds)
  · exact absurd hsection.symm (section_ne hdw hcs)
  · have hcs := (eq_of_mem_signal hcs).1
    have hds := (eq_of_mem_signal hds).1
    have hmessage : s.message.id = s'.message.id := by
      rw [hcs, hds] at hid
      exact hid
    obtain rfl := signals_eq hs hs' hmessage
    rw [hcs, hds, hsection]

/-- The list of a section is in strict order. -/
theorem pairwise_sectionLeaders :
    (sectionLeaders id (candidates lower now boundary db)).Pairwise
      fun c d => c.place < d.place := by
  unfold sectionLeaders
  refine pairwise_insertionSort_lt _ _ (nodup_leaders.filter _) ?_
  intro c hc d hd hplace
  obtain ⟨hc, hcsection⟩ := List.mem_filter.mp hc
  obtain ⟨hd, hdsection⟩ := List.mem_filter.mp hd
  have hsection : c.section = d.section :=
    (eq_of_beq hcsection).trans (eq_of_beq hdsection).symm
  have hid : c.sortId = d.sortId := by
    have hrest := congrArg (fun p => (ofLex (ofLex p).2).2) hplace
    exact hrest
  exact candidates_eq_of_sortId (mem_of_mem_leaders hc) (mem_of_mem_leaders hd) hsection hid

/-! ## Cursor texts -/

/-- The timestamps of the database are 64-bit counts of microseconds. -/
structure TimesFit (db : Database) : Prop where
  ingested : ∀ m ∈ db.messages, m.ingestedAt < 2 ^ 63
  sent : ∀ m ∈ db.messages, ∀ t ∈ m.sentAt, t * 1000 < 2 ^ 63
  due : ∀ w ∈ db.homeWork, ∀ t ∈ w.dueAt, t * 1000 < 2 ^ 63
  created : ∀ w ∈ db.homeWork, w.createdAt < 2 ^ 63

/-- The record of a work entry is stored. -/
theorem record_mem {w : HomeWorkEntry} (h : w ∈ workEntries db) : w.record ∈ db.homeWork := by
  unfold workEntries at h
  obtain ⟨r, hr, hentry⟩ := List.mem_map.mp h
  have hrecord : w.record = r := by
    rw [← hentry]
    split <;> rfl
  exact hrecord ▸ (Table.mem_select.mp hr).1

/-- A candidate has one of two tiers, and a sort value whose text is short. -/
theorem candidate_fits (hfit : TimesFit db) (h : c ∈ candidates lower now boundary db) :
    c.tier ≤ 1 ∧ c.sortValue.natAbs < 10 ^ 38 := by
  have hshort : 2 ^ 63 < 10 ^ 38 := by norm_num
  rcases mem_candidates.mp h with ⟨w, hw, hc⟩ | ⟨s, hs, hc⟩
  · have hcreated := hfit.created _ (record_mem hw)
    have hdue : w.record.dueAt.getD 0 * 1000 < 2 ^ 63 := by
      cases hd : w.record.dueAt with
      | none => decide
      | some t => exact hfit.due _ (record_mem hw) t hd
    rw [eq_of_mem_work hc]
    unfold HomeWorkEntry.candidate
    split
    · exact ⟨Nat.zero_le 1, Nat.lt_trans hdue hshort⟩
    · exact ⟨Nat.zero_le 1, Nat.lt_trans hcreated hshort⟩
  · have hingested := hfit.ingested _ (message_mem hs)
    have heffective : effectiveTime s.message < 2 ^ 63 := by
      unfold effectiveTime
      cases hsent : s.message.sentAt with
      | none => exact hingested
      | some t => exact hfit.sent _ (message_mem hs) t hsent
    rw [(eq_of_mem_signal hc).1]
    unfold HomeSignal.candidateIn
    refine ⟨by dsimp only; split <;> omega, ?_⟩
    rw [Int.natAbs_neg, Int.natAbs_natCast]
    split
    · exact Nat.lt_trans hingested hshort
    · exact Nat.lt_trans heffective hshort

/-- The sort value of a cursor is read back from its text. -/
theorem numericOf_encodeCursor (k : HomeSectionCursor) :
    numericOf (encodeCursor k).sortValue.toList = some ((k.sortValue : ℚ) / 1000000) := by
  unfold encodeCursor
  rw [String.toList_ofList, numericOf_numericText]

/-- A cursor that a page names is accepted with the next request. -/
theorem decodeCursor_encodeCursor {k : HomeSectionCursor} (htier : k.tier ≤ 1)
    (hvalue : k.sortValue.natAbs < 10 ^ 38) :
    decodeCursor (encodeCursor k) = .ok (encodeCursor k) := by
  have hlength : (encodeCursor k).sortValue.length ≤ 40 := by
    unfold encodeCursor
    rw [String.length_ofList]
    exact length_numericText hvalue
  have htiers : ¬ ((encodeCursor k).tier < 0) ∧ ¬ (1 < (encodeCursor k).tier) := by
    unfold encodeCursor
    dsimp only
    omega
  have hsection : sectionNamed (encodeCursor k).section = some k.section := sectionNamed_name _
  unfold decodeCursor
  rw [hsection, if_neg (Option.some_ne_none _), if_neg]
  rintro (h | h | h | h)
  · exact htiers.1 h
  · exact htiers.2 h
  · rw [numericOf_encodeCursor] at h
    cases h
  · omega

/-- The database places behind the text of a cursor what stands behind its place. -/
theorem before_encodeCursor {k : HomeSectionCursor} :
    (encodeCursor k).before c = decide (k.place < c.place) := by
  have hpos : (0 : ℚ) < 1000000 := by norm_num
  unfold SectionCursorText.before HomeSectionCursor.place HomeCandidate.place
  rw [numericOf_encodeCursor, Option.any_some, Bool.eq_iff_iff, decide_eq_true_iff, Prod.Lex.toLex_lt_toLex,
    Prod.Lex.toLex_lt_toLex]
  simp only [Bool.or_eq_true, Bool.and_eq_true, decide_eq_true_eq, beq_iff_eq,
    div_lt_div_iff_of_pos_right hpos, div_left_inj' hpos.ne', Int.cast_lt, Int.cast_inj]
  unfold encodeCursor
  simp only [Nat.cast_lt, Nat.cast_inj]

/-! ## Pages on a fixed database -/

open HomeProgram (lift query ask)

/-- Surroundings that leave the database alone and give one answer to the clock. -/
def fixedClock (now : Time) : Surroundings homeSignature where
  rely := fun s s' => s' = s
  takes := fun _ _ => True
  answers := fun c => match c with
    | .now => fun x => x = .ok now
    | .transactionStart | .readSettings | .readCircuit => fun _ => True
  fault := fun _ => False

variable {α : Type} {db' : Database}

/-- A sequence that returns went through both parts. -/
theorem outcome_seq {β : Type} {E : Surroundings homeSignature} {p : HomeProgram α}
    {f : α → HomeProgram β} {b : β} :
    (p >>= f).Outcome E db (.ok b) db' ↔
      ∃ a db₁, p.Outcome E db (.ok a) db₁ ∧ (f a).Outcome E db₁ (.ok b) db' :=
  Program.outcome_bind_ok

theorem outcome_return {E : Surroundings homeSignature} {a b : α} :
    (return a : HomeProgram α).Outcome E db (.ok b) db' ↔ db = db' ∧ b = a := by
  rw [Program.pure_eq, Program.outcome_pure, Except.ok.injEq, and_comm, eq_comm (a := db)]

theorem outcome_lift {E : Surroundings homeSignature} {x : Except Failure α} {a : α} :
    (lift x).Outcome E db (.ok a) db' ↔ db = db' ∧ x = .ok a := by
  unfold lift
  rw [Program.outcome_ofExcept, eq_comm, eq_comm (a := db), and_comm]

theorem outcome_query {f : Database → α} {a : α} :
    (query f).Outcome (fixedClock now) db (.ok a) db' ↔ db = db' ∧ a = f db := by
  unfold query
  rw [Program.outcome_read_ok]
  constructor
  · rintro ⟨rfl, -, rfl⟩
    exact ⟨rfl, rfl⟩
  · rintro ⟨rfl, rfl⟩
    exact ⟨rfl, trivial, rfl⟩

theorem outcome_now {t : Time} :
    (ask .now).Outcome (fixedClock now) db (.ok t) db' ↔ db = db' ∧ t = now := by
  refine Program.outcome_request_ok.trans ?_
  constructor
  · rintro ⟨rfl, h⟩
    exact ⟨rfl, Except.ok.inj h⟩
  · rintro ⟨rfl, rfl⟩
    exact ⟨rfl, rfl⟩

/-- The visit boundary that a page uses: that of its cursor, or that of a first page. -/
def pageBoundary (input : HomeSectionInput) (id : HomeSectionId) (db : Database) :
    Option SectionCursorText → Except Failure (Option Time)
  | some cursor => .ok cursor.boundary
  | none =>
      match input.visitBoundary with
      | some boundary => .ok boundary
      | none =>
          if input.deviceId.isSome ∨ id = .sinceVisit then
            (requireDeviceId (input.deviceId.getD "")).map fun deviceId =>
              (visitBoundary deviceId db).map (· / 1000)
          else .ok none

theorem outcome_sectionBoundary {input : HomeSectionInput} {cursor : Option SectionCursorText}
    {b : Option Time} :
    (sectionBoundary input id cursor).Outcome (fixedClock now) db (.ok b) db' ↔
      db = db' ∧ pageBoundary input id db cursor = .ok b := by
  have hreturn : ∀ a : Option Time, (return a : HomeProgram (Option Time)).Outcome
      (fixedClock now) db (.ok b) db' ↔ db = db' ∧ (Except.ok a : Except Failure _) = .ok b := by
    intro a
    rw [outcome_return, Except.ok.injEq, eq_comm (a := b)]
  unfold sectionBoundary pageBoundary
  cases cursor with
  | some cursor => exact hreturn _
  | none =>
      simp only
      unfold firstBoundary
      cases input.visitBoundary with
      | some boundary => exact hreturn _
      | none =>
          by_cases hdevice : input.deviceId.isSome ∨ id = .sinceVisit
          · simp only [if_pos hdevice]
            constructor
            · intro h
              obtain ⟨deviceId, _, hlift, hrest⟩ := outcome_seq.mp h
              obtain ⟨rfl, hdeviceId⟩ := outcome_lift.mp hlift
              obtain ⟨stored, _, hquery, hreturned⟩ := outcome_seq.mp hrest
              obtain ⟨rfl, rfl⟩ := outcome_query.mp hquery
              obtain ⟨rfl, rfl⟩ := outcome_return.mp hreturned
              exact ⟨rfl, except_map_eq_ok.mpr ⟨deviceId, hdeviceId, rfl⟩⟩
            · rintro ⟨rfl, h⟩
              obtain ⟨deviceId, hdeviceId, rfl⟩ := except_map_eq_ok.mp h
              exact outcome_seq.mpr ⟨deviceId, _, outcome_lift.mpr ⟨rfl, hdeviceId⟩,
                outcome_seq.mpr ⟨_, _, outcome_query.mpr ⟨rfl, rfl⟩,
                  outcome_return.mpr ⟨rfl, rfl⟩⟩⟩
          · simp only [if_neg hdevice]
            exact hreturn _

theorem outcome_attachOccurrences {page page' : HomeSectionResult} :
    (attachOccurrences page).Outcome (fixedClock now) db (.ok page') db' ↔
      db = db' ∧ page' = { page with items := page.items.map (withOccurrences db) } := by
  unfold attachOccurrences
  by_cases hempty : page.items = []
  · rw [if_pos hempty, outcome_return, hempty, List.map_nil, ← hempty]
  · rw [if_neg hempty]
    constructor
    · intro h
      obtain ⟨items, _, hquery, hreturned⟩ := outcome_seq.mp h
      obtain ⟨rfl, rfl⟩ := outcome_query.mp hquery
      exact outcome_return.mp hreturned
    · rintro ⟨rfl, rfl⟩
      exact outcome_seq.mpr ⟨_, _, outcome_query.mpr ⟨rfl, rfl⟩, outcome_return.mpr ⟨rfl, rfl⟩⟩

/-- A page with the occurrences of its representatives. -/
def fullPage (lower : String → String) (id : HomeSectionId) (limit : ℕ)
    (cursor : Option SectionCursorText) (boundary : Option Instant) (now : Time)
    (db : Database) : HomeSectionResult :=
  let page := sectionPage lower id limit cursor boundary now db
  { page with items := page.items.map (withOccurrences db) }

/-- What a request for a section page answers on a fixed database. -/
theorem outcome_readSection {input : HomeSectionInput} {page : HomeSectionResult} :
    (readSection lower input).Outcome (fixedClock now) db (.ok page) db' ↔
      db = db' ∧ ∃ limit cursor id boundary, pageLimit input.limit = .ok limit ∧
        requestCursor input = .ok cursor ∧ requestSection input = .ok id ∧
        pageBoundary input id db cursor = .ok boundary ∧
        page = fullPage lower id limit cursor (boundary.map (· * 1000)) now db := by
  unfold readSection
  constructor
  · intro h
    obtain ⟨limit, _, hlift, h₁⟩ := outcome_seq.mp h
    obtain ⟨rfl, hlimit⟩ := outcome_lift.mp hlift
    obtain ⟨cursor, _, hlift, h₂⟩ := outcome_seq.mp h₁
    obtain ⟨rfl, hcursor⟩ := outcome_lift.mp hlift
    obtain ⟨id, _, hlift, h₃⟩ := outcome_seq.mp h₂
    obtain ⟨rfl, hid⟩ := outcome_lift.mp hlift
    obtain ⟨boundary, _, hread, h₄⟩ := outcome_seq.mp h₃
    obtain ⟨rfl, hboundary⟩ := outcome_sectionBoundary.mp hread
    obtain ⟨time, _, hask, h₅⟩ := outcome_seq.mp h₄
    obtain ⟨rfl, rfl⟩ := outcome_now.mp hask
    obtain ⟨page, _, hquery, h₆⟩ := outcome_seq.mp h₅
    obtain ⟨rfl, rfl⟩ := outcome_query.mp hquery
    obtain ⟨rfl, rfl⟩ := outcome_attachOccurrences.mp h₆
    exact ⟨rfl, limit, cursor, id, boundary, hlimit, hcursor, hid, hboundary, rfl⟩
  · rintro ⟨rfl, limit, cursor, id, boundary, hlimit, hcursor, hid, hboundary, rfl⟩
    exact outcome_seq.mpr ⟨limit, _, outcome_lift.mpr ⟨rfl, hlimit⟩,
      outcome_seq.mpr ⟨cursor, _, outcome_lift.mpr ⟨rfl, hcursor⟩,
        outcome_seq.mpr ⟨id, _, outcome_lift.mpr ⟨rfl, hid⟩,
          outcome_seq.mpr ⟨boundary, _, outcome_sectionBoundary.mpr ⟨rfl, hboundary⟩,
            outcome_seq.mpr ⟨now, _, outcome_now.mpr ⟨rfl, rfl⟩,
              outcome_seq.mpr ⟨_, _, outcome_query.mpr ⟨rfl, rfl⟩,
                outcome_attachOccurrences.mpr ⟨rfl, rfl⟩⟩⟩⟩⟩⟩⟩

/-! ## Following the cursors of a section -/

/-- The entries of a section, in order. -/
def sectionList (lower : String → String) (id : HomeSectionId) (boundary : Option Instant)
    (now : Time) (db : Database) : List HomeItem :=
  let cs := candidates lower now boundary db
  (sectionLeaders id cs).map fun c => withOccurrences db (rankedEntry lower cs db c)

/-- A request reads a page on a fixed database. -/
def ReadsSection (lower : String → String) (now : Time) (db : Database) (input : HomeSectionInput)
    (cursor : Option SectionCursorText) (page : HomeSectionResult) : Prop :=
  ∃ db', (readSection lower { input with cursor }).Outcome (fixedClock now) db (.ok page) db'

/-- The cursor behind a row. -/
def rowCursor (id : HomeSectionId) (boundary : Option Instant) (c : HomeCandidate) :
    SectionCursorText :=
  encodeCursor ⟨id, c.tier, c.sortValue, c.sortId, boundary⟩

/-- The page behind the cursor of a row holds the rows behind it. -/
theorem fullPage_rows (lower : String → String) (now : Time) (db : Database) (id : HomeSectionId)
    (boundary : Option Instant) (limit : ℕ) (last : Option HomeCandidate)
    {rows : List HomeCandidate}
    (hrows : rows = rowsAfter HomeCandidate.place (last.map HomeCandidate.place)
      (sectionLeaders id (candidates lower now boundary db))) :
    (fullPage lower id limit (last.map (rowCursor id boundary)) boundary now db).items =
      (rows.take limit).map (fun c =>
        withOccurrences db (rankedEntry lower (candidates lower now boundary db) db c)) ∧
    (fullPage lower id limit (last.map (rowCursor id boundary)) boundary now db).nextCursor =
      if limit < rows.length then rows[limit - 1]?.map (rowCursor id boundary) else none := by
  have hfilter : ((sectionLeaders id (candidates lower now boundary db)).filter
      fun c => (last.map (rowCursor id boundary)).all (·.before c)) = rows := by
    rw [hrows]
    refine List.filter_congr fun c _ => ?_
    cases last with
    | none => rfl
    | some a => exact before_encodeCursor
  have htake : (rows.take (limit + 1)).take limit = rows.take limit := by
    rw [List.take_take, Nat.min_eq_left (Nat.le_succ limit)]
  have hlength : limit < (rows.take (limit + 1)).length ↔ limit < rows.length := by
    rw [List.length_take]
    omega
  have hget : (rows.take (limit + 1))[limit - 1]? = rows[limit - 1]? :=
    List.getElem?_take_of_lt (by omega)
  unfold fullPage sectionPage
  simp only [hfilter, htake, hlength, hget, List.map_map]
  exact ⟨rfl, rfl⟩

theorem pageLimit_pos {limit : ℕ} {requested : Option ℕ} (h : pageLimit requested = .ok limit) :
    0 < limit := by
  unfold pageLimit at h
  split at h
  · obtain rfl := Except.ok.inj h
    decide
  · split at h
    · cases h
    · obtain rfl := Except.ok.inj h
      omega

/-- A request that goes on behind a row is accepted, and reads the page behind it. -/
theorem readsSection_iff {input : HomeSectionInput} {limit : ℕ} {start : Option Time}
    (hfit : TimesFit db) (hlimit : pageLimit input.limit = .ok limit)
    (hid : sectionNamed input.section = some id)
    (hstart : pageBoundary input id db none = .ok start) {last : Option HomeCandidate}
    (hlast : ∀ c ∈ last, c ∈ candidates lower now (start.map (· * 1000)) db)
    {page : HomeSectionResult} :
    ReadsSection lower now db input (last.map (rowCursor id (start.map (· * 1000)))) page ↔
      page = fullPage lower id limit (last.map (rowCursor id (start.map (· * 1000))))
        (start.map (· * 1000)) now db := by
  have hname := eq_name_of_sectionNamed hid
  have hsection : requestSection input = .ok id := by
    unfold requestSection
    rw [hid]
  have hback : (start.map (· * 1000)).map (· / 1000) = start := by
    rw [Option.map_map]
    have hms : (fun t : Time => t / 1000) ∘ (fun t : Time => t * 1000) = fun t => t :=
      funext fun t => Nat.mul_div_cancel t (by decide)
    exact (congrArg (Option.map · start) hms).trans (Option.map_id' ..)
  have hcursor : requestCursor { input with
      cursor := last.map (rowCursor id (start.map (· * 1000))) } =
        .ok (last.map (rowCursor id (start.map (· * 1000)))) := by
    cases last with
    | none => rfl
    | some c =>
        obtain ⟨htier, hvalue⟩ := candidate_fits hfit (hlast c rfl)
        have hdecode : decodeCursor (rowCursor id (start.map (· * 1000)) c) = .ok _ :=
          decodeCursor_encodeCursor htier hvalue
        unfold requestCursor
        simp only [Option.map_some, hdecode]
        exact if_neg (not_not.mpr hname.symm)
  have hboundary : pageBoundary { input with
      cursor := last.map (rowCursor id (start.map (· * 1000))) } id db
        (last.map (rowCursor id (start.map (· * 1000)))) = .ok start := by
    cases last with
    | none => exact hstart
    | some c => exact congrArg Except.ok hback
  constructor
  · rintro ⟨db', h⟩
    obtain ⟨rfl, limit', cursor, id', boundary, hlimit', hcursor', hid', hboundary', rfl⟩ :=
      outcome_readSection.mp h
    obtain rfl := Except.ok.inj (hlimit.symm.trans hlimit')
    obtain rfl := Except.ok.inj (hcursor.symm.trans hcursor')
    obtain rfl := Except.ok.inj (hsection.symm.trans hid')
    obtain rfl := Except.ok.inj (hboundary.symm.trans hboundary')
    rfl
  · rintro rfl
    exact ⟨db, outcome_readSection.mpr
      ⟨rfl, limit, _, id, start, hlimit, hcursor, hsection, hboundary, rfl⟩⟩

/-- The cursors of a section page through its list. -/
theorem section_paging (lower : String → String) (now : Time) {input : HomeSectionInput}
    {limit : ℕ} {start : Option Time} (hfit : TimesFit db) (hlimit : pageLimit input.limit = .ok limit)
    (hid : sectionNamed input.section = some id)
    (hstart : pageBoundary input id db none = .ok start) :
    Paging HomeCandidate.place
      (sectionLeaders id (candidates lower now (start.map (· * 1000)) db)) limit
      (rowCursor id (start.map (· * 1000)))
      (fun c => withOccurrences db
        (rankedEntry lower (candidates lower now (start.map (· * 1000)) db) db c))
      (ReadsSection lower now db input) HomeSectionResult.nextCursor HomeSectionResult.items where
  sorted := pairwise_sectionLeaders
  limit_pos := pageLimit_pos hlimit
  reads := by
    intro last hlast
    obtain ⟨hitems, hnext⟩ :=
      fullPage_rows lower now db id (start.map (· * 1000)) limit last rfl
    exact ⟨_, fun page => readsSection_iff hfit hlimit hid hstart fun c hc =>
      mem_of_mem_leaders (mem_sectionLeaders.mp (hlast c hc)).1, hitems, hnext⟩

/-! ## Following the cursors of the work list -/

/-- The view of a work record on a fixed database. -/
def workRecordView (db : Database) (record : HomeWork) : HomeWorkRecordView :=
  workView record ((workAnchor record db).map fun m => (m, loadOccurrences m.id db))

theorem outcome_toWorkRecord {record : HomeWork} {view : HomeWorkRecordView} :
    (toWorkRecord record).Outcome (fixedClock now) db (.ok view) db' ↔
      db = db' ∧ view = workRecordView db record := by
  unfold toWorkRecord workRecordView
  constructor
  · intro h
    obtain ⟨anchor, _, hquery, h₁⟩ := outcome_seq.mp h
    obtain ⟨rfl, rfl⟩ := outcome_query.mp hquery
    cases hanchor : workAnchor record db with
    | none =>
        rw [hanchor] at h₁
        exact outcome_return.mp h₁
    | some m =>
        rw [hanchor] at h₁
        obtain ⟨active, _, hquery, h₂⟩ := outcome_seq.mp h₁
        obtain ⟨rfl, rfl⟩ := outcome_query.mp hquery
        exact outcome_return.mp h₂
  · rintro ⟨rfl, rfl⟩
    refine outcome_seq.mpr ⟨_, _, outcome_query.mpr ⟨rfl, rfl⟩, ?_⟩
    cases workAnchor record db with
    | none => exact outcome_return.mpr ⟨rfl, rfl⟩
    | some m =>
        exact outcome_seq.mpr ⟨_, _, outcome_query.mpr ⟨rfl, rfl⟩, outcome_return.mpr ⟨rfl, rfl⟩⟩

theorem outcome_toWorkRecords {records : List HomeWork} {views : List HomeWorkRecordView} :
    (toWorkRecords records).Outcome (fixedClock now) db (.ok views) db' ↔
      db = db' ∧ views = records.map (workRecordView db) := by
  induction records generalizing views db' with
  | nil => exact outcome_return
  | cons record records ih =>
      constructor
      · intro h
        obtain ⟨view, _, hview, h₁⟩ := outcome_seq.mp h
        obtain ⟨rfl, rfl⟩ := outcome_toWorkRecord.mp hview
        obtain ⟨rest, _, hrest, h₂⟩ := outcome_seq.mp h₁
        obtain ⟨rfl, rfl⟩ := ih.mp hrest
        exact outcome_return.mp h₂
      · rintro ⟨rfl, rfl⟩
        exact outcome_seq.mpr ⟨_, _, outcome_toWorkRecord.mpr ⟨rfl, rfl⟩,
          outcome_seq.mpr ⟨_, _, ih.mpr ⟨rfl, rfl⟩, outcome_return.mpr ⟨rfl, rfl⟩⟩⟩

/-- A page of the work list on a fixed database. -/
def workListPage (input : HomeWorkInput) (limit : ℕ) (cursor : Option WorkCursor)
    (db : Database) : HomeWorkList :=
  let rows := workRows input limit cursor db
  let work := (rows.take limit).map (workRecordView db)
  ⟨work, if limit < rows.length then work.getLast?.map (·.cursor) else none⟩

/-- What a request for the work list answers on a fixed database. -/
theorem outcome_listWorkPage {input : HomeWorkInput} {page : HomeWorkList} :
    (listWorkPage input).Outcome (fixedClock now) db (.ok page) db' ↔
      db = db' ∧ ∃ limit cursor, workLimit input.limit = .ok limit ∧
        requestWorkCursor input.cursor = .ok cursor ∧
        page = workListPage input limit cursor db := by
  unfold listWorkPage
  constructor
  · intro h
    obtain ⟨limit, _, hlift, h₁⟩ := outcome_seq.mp h
    obtain ⟨rfl, hlimit⟩ := outcome_lift.mp hlift
    obtain ⟨cursor, _, hlift, h₂⟩ := outcome_seq.mp h₁
    obtain ⟨rfl, hcursor⟩ := outcome_lift.mp hlift
    obtain ⟨rows, _, hquery, h₃⟩ := outcome_seq.mp h₂
    obtain ⟨rfl, rfl⟩ := outcome_query.mp hquery
    obtain ⟨work, _, hwork, h₄⟩ := outcome_seq.mp h₃
    obtain ⟨rfl, rfl⟩ := outcome_toWorkRecords.mp hwork
    obtain ⟨rfl, rfl⟩ := outcome_return.mp h₄
    exact ⟨rfl, limit, cursor, hlimit, hcursor, rfl⟩
  · rintro ⟨rfl, limit, cursor, hlimit, hcursor, rfl⟩
    exact outcome_seq.mpr ⟨limit, _, outcome_lift.mpr ⟨rfl, hlimit⟩,
      outcome_seq.mpr ⟨cursor, _, outcome_lift.mpr ⟨rfl, hcursor⟩,
        outcome_seq.mpr ⟨_, _, outcome_query.mpr ⟨rfl, rfl⟩,
          outcome_seq.mpr ⟨_, _, outcome_toWorkRecords.mpr ⟨rfl, rfl⟩,
            outcome_return.mpr ⟨rfl, rfl⟩⟩⟩⟩⟩

/-- A request reads a page of the work list on a fixed database. -/
def ReadsWork (now : Time) (db : Database) (input : HomeWorkInput) (cursor : Option WorkCursor)
    (page : HomeWorkList) : Prop :=
  ∃ db', (listWorkPage { input with cursor }).Outcome (fixedClock now) db (.ok page) db'

/-- The cursor behind a work record names its place. -/
theorem place_cursor (w : HomeWork) : (workRecordView db w).cursor.place = workPlace w := rfl

/-- A cursor that a page names is accepted with the next request. -/
theorem decodeWorkCursor_cursor (view : HomeWorkRecordView) :
    decodeWorkCursor view.cursor = .ok view.cursor := by
  have hstatus : ¬ 1 < view.cursor.status := by
    unfold HomeWorkRecordView.cursor
    dsimp only
    split <;> decide
  have hkind : ¬ 1 < view.cursor.kind := by
    unfold HomeWorkRecordView.cursor
    dsimp only
    split <;> decide
  unfold decodeWorkCursor
  rw [if_neg (not_or.mpr ⟨hstatus, hkind⟩)]

/-- The work list is in strict order. -/
theorem pairwise_workList (input : HomeWorkInput) :
    (workList input db).Pairwise fun a b => workPlace a < workPlace b := by
  unfold workList
  refine pairwise_insertionSort_lt _ _ (db.homeWork.nodup.of_map.filter _) ?_
  intro a ha b hb hplace
  have hid : a.id = b.id := by
    have hrest := congrArg (fun p => (ofLex (ofLex (ofLex (ofLex p).2).2).2).2) hplace
    exact hrest
  exact Table.eq_of_key_eq (Table.mem_select.mp ha).1 (Table.mem_select.mp hb).1 hid

/-- The page behind the cursor of a record holds the records behind it. -/
theorem workListPage_rows (input : HomeWorkInput) {limit : ℕ} (hlimit : 0 < limit)
    (last : Option HomeWork) {rows : List HomeWork}
    (hrows : rows = rowsAfter workPlace (last.map workPlace) (workList input db)) :
    (workListPage input limit (last.map fun w => (workRecordView db w).cursor) db).work =
      (rows.take limit).map (workRecordView db) ∧
    (workListPage input limit (last.map fun w => (workRecordView db w).cursor) db).nextCursor =
      if limit < rows.length then rows[limit - 1]?.map fun w => (workRecordView db w).cursor
      else none := by
  have hfilter : ((workList input db).filter fun w =>
      (last.map fun w => (workRecordView db w).cursor).all fun after =>
        after.place < workPlace w) = rows := by
    rw [hrows]
    refine List.filter_congr fun w _ => ?_
    cases last <;> rfl
  have htake : (rows.take (limit + 1)).take limit = rows.take limit := by
    rw [List.take_take, Nat.min_eq_left (Nat.le_succ limit)]
  have hlength : limit < (rows.take (limit + 1)).length ↔ limit < rows.length := by
    rw [List.length_take]
    omega
  unfold workListPage workRows
  simp only [hfilter, htake, hlength]
  refine ⟨trivial, ?_⟩
  by_cases hlt : limit < rows.length
  · have hlast : (rows.take limit).getLast? = rows[limit - 1]? := by
      rw [List.getLast?_eq_getElem?, List.length_take, Nat.min_eq_left (le_of_lt hlt)]
      exact List.getElem?_take_of_lt (by omega)
    rw [if_pos hlt, if_pos hlt, List.getLast?_map, hlast, Option.map_map]
    rfl
  · rw [if_neg hlt, if_neg hlt]

/-- A request that goes on behind a record is accepted, and reads the page behind it. -/
theorem readsWork_iff {input : HomeWorkInput} {limit : ℕ}
    (hlimit : workLimit input.limit = .ok limit) (last : Option HomeWork) {page : HomeWorkList} :
    ReadsWork now db input (last.map fun w => (workRecordView db w).cursor) page ↔
      page = workListPage input limit (last.map fun w => (workRecordView db w).cursor) db := by
  have hcursor : requestWorkCursor (last.map fun w => (workRecordView db w).cursor) =
      .ok (last.map fun w => (workRecordView db w).cursor) := by
    cases last with
    | none => rfl
    | some w =>
        unfold requestWorkCursor
        simp only [Option.map_some, decodeWorkCursor_cursor]
        rfl
  constructor
  · rintro ⟨db', h⟩
    obtain ⟨rfl, limit', cursor, hlimit', hcursor', rfl⟩ := outcome_listWorkPage.mp h
    obtain rfl := Except.ok.inj (hlimit.symm.trans hlimit')
    obtain rfl := Except.ok.inj (hcursor.symm.trans hcursor')
    rfl
  · rintro rfl
    exact ⟨db, outcome_listWorkPage.mpr ⟨rfl, limit, _, hlimit, hcursor, rfl⟩⟩

theorem workLimit_pos {limit : ℕ} {requested : Option ℕ} (h : workLimit requested = .ok limit) :
    0 < limit := by
  unfold workLimit at h
  split at h
  · obtain rfl := Except.ok.inj h
    decide
  · exact pageLimit_pos h

/-- The cursors of the work list page through it. -/
theorem work_paging (now : Time) (db : Database) {input : HomeWorkInput} {limit : ℕ}
    (hlimit : workLimit input.limit = .ok limit) :
    Paging workPlace (workList input db) limit (fun w => (workRecordView db w).cursor)
      (workRecordView db) (ReadsWork now db input) HomeWorkList.nextCursor HomeWorkList.work where
  sorted := pairwise_workList input
  limit_pos := workLimit_pos hlimit
  reads := by
    intro last _
    obtain ⟨hwork, hnext⟩ := workListPage_rows input (workLimit_pos hlimit) last rfl
    exact ⟨_, fun page => readsWork_iff hlimit last, hwork, hnext⟩

/-! ## The property -/

/-- Following the cursors from a first page comes to an end, and the pages together are a list. -/
def PagesThrough {γ π β : Type} (Reads : Option γ → π → Prop) (next : π → Option γ)
    (items : π → List β) (l : List β) : Prop :=
  (∃ ps, Pages Reads next none ps) ∧ ∀ ps, Pages Reads next none ps → ps.flatMap items = l

/-- The pages of Home on a fixed database and a fixed clock. -/
structure HomePaged (lower : String → String) (now : Time) (db : Database) : Prop where
  /-- From a first page that is read, the cursors lead through the list of the section, and every
  page states its length. -/
  pages : ∀ input first, ReadsSection lower now db input none first →
    ∃ id start, sectionNamed input.section = some id ∧
      pageBoundary input id db none = .ok start ∧
      PagesThrough (ReadsSection lower now db input) HomeSectionResult.nextCursor
        HomeSectionResult.items (sectionList lower id (start.map (· * 1000)) now db) ∧
      ∀ ps, Pages (ReadsSection lower now db input) HomeSectionResult.nextCursor none ps →
        ∀ p ∈ ps, p.total = (sectionList lower id (start.map (· * 1000)) now db).length
  /-- The list of a section is in strict order. -/
  ordered : ∀ id boundary,
    (sectionLeaders id (candidates lower now boundary db)).Pairwise fun c d => c.place < d.place
  /-- A section lists a conversation once. -/
  once : ∀ id boundary, ((sectionList lower id boundary now db).map (·.entryKey)).Nodup
  /-- A conversation is listed in the highest section that it has a candidate for, and in no
  other. -/
  highest : ∀ boundary, ∀ c ∈ candidates lower now boundary db,
    ∃ id, (∀ id', c.entryKey ∈ (sectionList lower id' boundary now db).map (·.entryKey) ↔
        id' = id) ∧
      (∃ d ∈ candidates lower now boundary db, d.entryKey = c.entryKey ∧ d.section = id) ∧
      ∀ d ∈ candidates lower now boundary db, d.entryKey = c.entryKey →
        id.index ≤ d.section.index
  /-- From a first page that is read, the cursors lead through the list of the saved work. -/
  work : ∀ input first, ReadsWork now db input none first →
    PagesThrough (ReadsWork now db input) HomeWorkList.nextCursor HomeWorkList.work
      ((workList input db).map (workRecordView db))
  /-- The list of the saved work is in strict order. -/
  workOrdered : ∀ input, (workList input db).Pairwise fun a b => workPlace a < workPlace b

/-- The conversations of a section are those of its leaders. -/
theorem entryKey_sectionList :
    (sectionList lower id boundary now db).map (·.entryKey) =
      (sectionLeaders id (candidates lower now boundary db)).map (·.entryKey) := by
  unfold sectionList
  rw [List.map_map]
  rfl

/-- A conversation is listed in the section of its leader only. -/
theorem mem_sectionList_iff {id : HomeSectionId}
    (hd : d ∈ leaders (candidates lower now boundary db)) :
    d.entryKey ∈ (sectionList lower id boundary now db).map (·.entryKey) ↔ id = d.section := by
  rw [entryKey_sectionList, List.mem_map]
  constructor
  · rintro ⟨e, he, hkey⟩
    obtain ⟨hleader, hsection⟩ := mem_sectionLeaders.mp he
    rw [← leaders_eq_of_entryKey hleader hd hkey, hsection]
  · rintro rfl
    exact ⟨d, mem_sectionLeaders.mpr ⟨hd, rfl⟩, rfl⟩

/-- A section lists a conversation once. -/
theorem nodup_sectionList : ((sectionList lower id boundary now db).map (·.entryKey)).Nodup := by
  rw [entryKey_sectionList]
  have hnodup : (sectionLeaders id (candidates lower now boundary db)).Nodup :=
    (List.perm_insertionSort _ _).nodup_iff.mpr (nodup_leaders.filter _)
  refine hnodup.map_on fun c hc d hd hkey => ?_
  exact leaders_eq_of_entryKey (mem_sectionLeaders.mp hc).1 (mem_sectionLeaders.mp hd).1 hkey

/-- Home is paged without loss or repetition. -/
theorem home_paged (lower : String → String) (now : Time) (db : Database) (hfit : TimesFit db) :
    HomePaged lower now db where
  pages := by
    intro input first hfirst
    obtain ⟨db', h⟩ := hfirst
    obtain ⟨rfl, limit, cursor, id, start, hlimit, hcursor, hid, hstart, -⟩ :=
      outcome_readSection.mp h
    have hsection : sectionNamed input.section = some id := by
      unfold requestSection at hid
      split at hid
      next heq => exact heq.trans (congrArg some (Except.ok.inj hid))
      next => cases hid
    obtain rfl : none = cursor := Except.ok.inj hcursor
    have hpaging := section_paging lower now hfit hlimit hsection hstart
    refine ⟨id, start, hsection, hstart, ⟨hpaging.exists_pages, fun ps hps => ?_⟩,
      fun ps hps p hp => ?_⟩
    · exact hpaging.flatMap_items hps
    · have hnone : ∀ c ∈ (none : Option HomeCandidate),
          c ∈ sectionLeaders id (candidates lower now (start.map (· * 1000)) db) :=
        fun _ hc => absurd hc (Option.not_mem_none _)
      obtain ⟨last, hlast, hread⟩ := hpaging.exists_last hps rfl hnone p hp
      have hpage := (readsSection_iff hfit hlimit hsection hstart fun c hc =>
        mem_of_mem_leaders (mem_sectionLeaders.mp (hlast c hc)).1).mp hread
      rw [hpage]
      exact (List.length_map _).symm
  ordered := fun _ _ => pairwise_sectionLeaders
  once := fun _ _ => nodup_sectionList
  highest := by
    intro boundary c hc
    obtain ⟨d, hd, hkey, -⟩ := exists_leader hc
    refine ⟨d.section, fun id => ?_, ⟨d, mem_of_mem_leaders hd, hkey, rfl⟩, fun e he hekey => ?_⟩
    · rw [← hkey]
      exact mem_sectionList_iff hd
    · obtain ⟨d', hd', hkey', hrank⟩ := exists_leader he
      obtain rfl := leaders_eq_of_entryKey hd' hd (hkey'.trans (hekey.trans hkey.symm))
      exact index_le_of_rank_le hrank
  work := by
    intro input first hfirst
    obtain ⟨db', h⟩ := hfirst
    obtain ⟨rfl, limit, cursor, hlimit, -, -⟩ := outcome_listWorkPage.mp h
    have hpaging := work_paging now db hlimit
    exact ⟨hpaging.exists_pages, fun ps hps => hpaging.flatMap_items hps⟩
  workOrdered := pairwise_workList

/-- Two messages of one ingestion time, and what holds of their pages. -/
theorem home_paged_sample :
    TimesFit (inboxOf [undated 1 1000300, undated 2 1000300]) ∧
      HomePaged (fun text => text) 0 (inboxOf [undated 1 1000300, undated 2 1000300]) := by
  have hmessages : ∀ m ∈ (inboxOf [undated 1 1000300, undated 2 1000300]).messages,
      m = undated 1 1000300 ∨ m = undated 2 1000300 := by
    intro m hm
    rcases List.mem_cons.mp hm with rfl | hm
    · exact .inl rfl
    · exact .inr (List.mem_singleton.mp hm)
  have hfit : TimesFit (inboxOf [undated 1 1000300, undated 2 1000300]) := by
    refine ⟨fun m hm => ?_, fun m hm => ?_, fun w hw => absurd hw List.not_mem_nil,
      fun w hw => absurd hw List.not_mem_nil⟩
    · rcases hmessages m hm with rfl | rfl <;> decide
    · rcases hmessages m hm with rfl | rfl <;> exact fun t ht => absurd ht (Option.not_mem_none t)
  exact ⟨hfit, home_paged _ _ _ hfit⟩

end MailHub.Home
