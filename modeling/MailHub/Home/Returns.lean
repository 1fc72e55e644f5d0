import MailHub.Home.Paging
import MailHub.Home.Visits

/-!
# Messages that come back

A Home read stores the newest ingestion time as its boundary, and the next one lists what arrived
after it. The time goes through a date of the process on its way, which cuts it to whole
milliseconds: a message of the last, begun millisecond stays behind no boundary and is listed again.
A message that is listed does not come back, whatever happens in between, exactly when its ingestion
time is not after the newest one in whole milliseconds.
-/

namespace MailHub.Home

open Relational Interleaving

open HomeProgram (lift query queryAs ask)

variable {lower : String → String} {deviceId : String} {id : Uuid} {db db' : Database} {α : Type}

/-! ## What happens in between -/

/-- What may happen around a message that is not ingested again: the boundary of the device does
not move back, and the message keeps its ingestion time while it is stored. -/
structure Stays (deviceId : String) (id : Uuid) (db db' : Database) : Prop where
  boundary : ∀ b, visitBoundary deviceId db = some b →
    ∃ b', visitBoundary deviceId db' = some b' ∧ b ≤ b'
  message : ∀ m' ∈ db'.messages, m'.id = id →
    ∃ m ∈ db.messages, m.id = id ∧ m.ingestedAt = m'.ingestedAt

theorem Stays.refl (db : Database) : Stays deviceId id db db :=
  ⟨fun b hb => ⟨b, hb, le_rfl⟩, fun m hm hid => ⟨m, hm, hid, rfl⟩⟩

theorem Stays.trans {db'' : Database} (h : Stays deviceId id db db')
    (h' : Stays deviceId id db' db'') : Stays deviceId id db db'' := by
  refine ⟨fun b hb => ?_, fun m hm hid => ?_⟩
  · obtain ⟨b', hb', hle⟩ := h.boundary b hb
    obtain ⟨b'', hb'', hle'⟩ := h'.boundary b' hb'
    exact ⟨b'', hb'', le_trans hle hle'⟩
  · obtain ⟨m', hm', hid', htime'⟩ := h'.message m hm hid
    obtain ⟨m'', hm'', hid'', htime''⟩ := h.message m' hm' hid'
    exact ⟨m'', hm'', hid'', htime''.trans htime'⟩

/-- The boundary that a Home read stores, of this device or of another one, is such a step. -/
theorem stays_storeBoundary {device : String} {next : Instant} {u : Unit}
    (hrun : (storeBoundary device next).run db = .ok (u, db')) : Stays deviceId id db db' := by
  obtain ⟨hstored, hmessages⟩ := visitBoundary_store hrun
  refine ⟨fun b hb => ?_, fun m hm hid => ⟨m, hmessages ▸ hm, hid, rfl⟩⟩
  by_cases hdevice : device = deviceId
  · subst hdevice
    refine ⟨_, hstored, ?_⟩
    rw [hb]
    exact le_max_left b next
  · obtain rfl : { db with
        homeVisits := db.homeVisits.put
          ⟨device, max ((visitBoundary device db).getD next) next⟩ } = db' := by
      simpa [storeBoundary] using hrun
    have hfind : (db.homeVisits.put
        ⟨device, max ((visitBoundary device db).getD next) next⟩).find? deviceId =
          db.homeVisits.find? deviceId := Table.find?_put.trans (if_neg hdevice)
    exact ⟨b, (congrArg (Option.map HomeVisit.boundary) hfind).trans hb, le_rfl⟩

/-- The surroundings of a Home read: others leave the message in this way, and a named statement
runs where the condition lets it. -/
def visitSurroundings (deviceId : String) (id : Uuid)
    (takes : Option HomeTag → Database → Prop) : Surroundings homeSignature where
  rely := Stays deviceId id
  takes := takes
  answers := fun _ _ => True
  fault := fun e => e.isDatabaseFault = true

/-! ## What a read does -/

section Read

variable {E : Surroundings homeSignature}

theorem rely_query {f : Database → α} {a : α} (h : (query f).Outcome E db (.ok a) db') :
    E.rely db db' ∧ a = f db' := by
  obtain ⟨hrely, -, ha⟩ := Program.outcome_read_ok.mp h
  exact ⟨hrely, ha⟩

theorem rely_queryAs {tag : HomeTag} {f : Database → α} {a : α}
    (h : (queryAs tag f).Outcome E db (.ok a) db') :
    E.rely db db' ∧ E.takes (some tag) db' ∧ a = f db' := by
  obtain ⟨db₁, hrely, htakes, hread⟩ := Program.outcome_transaction_ok.mp h
  obtain ⟨rfl, rfl⟩ := Prod.mk.inj (Except.ok.inj hread)
  exact ⟨hrely, htakes, rfl⟩

theorem rely_ask {c : HomeCall} {x : c.Answer} (h : (ask c).Outcome E db (.ok x) db') :
    E.rely db db' :=
  (Program.outcome_request_ok.mp h).1

/-- The messages that a page shows. -/
def HomeSection.shown (page : HomeSection) : List Uuid := page.items.map (·.message.messageId)

/-- Reading a section shows what the section held where its query ran. -/
theorem outcome_readRankedSection (htrans : ∀ {a b c}, E.rely a b → E.rely b c → E.rely a c)
    {read : (Database → HomeSection) → HomeProgram HomeSection} {section' : HomeSectionId}
    {limit : ℕ} {boundary : Option Instant} {page : HomeSection}
    (hread : ∀ {f a db db'}, (read f).Outcome E db (.ok a) db' → E.rely db db' ∧ a = f db')
    (h : (readRankedSection lower read section' limit none boundary).Outcome E db (.ok page) db') :
    E.rely db db' ∧ ∃ now db₁, E.rely db db₁ ∧ page.id = section' ∧
      page.shown = (rankedSection lower section' limit none boundary now db₁).shown := by
  unfold readRankedSection at h
  obtain ⟨now, db₁, hask, h₁⟩ := outcome_seq.mp h
  obtain ⟨read, db₂, hquery, h₂⟩ := outcome_seq.mp h₁
  obtain ⟨hrely, rfl⟩ := hread hquery
  have hrely := htrans (rely_ask hask) hrely
  split at h₂
  · obtain ⟨rfl, rfl⟩ := outcome_return.mp h₂
    exact ⟨hrely, now, db₂, hrely, rfl, rfl⟩
  · obtain ⟨items, db₃, hitems, h₃⟩ := outcome_seq.mp h₂
    obtain ⟨hrely', rfl⟩ := rely_query hitems
    obtain ⟨rfl, rfl⟩ := outcome_return.mp h₃
    refine ⟨htrans hrely hrely', now, db₂, hrely, rfl, ?_⟩
    unfold HomeSection.shown
    rw [List.map_map]
    rfl

/-- Reading the sections shows in each of them what it held where its query ran. -/
theorem outcome_readSections (hrefl : ∀ a, E.rely a a)
    (htrans : ∀ {a b c}, E.rely a b → E.rely b c → E.rely a c)
    {limit : ℕ} {boundary : Option Instant} {ids : List HomeSectionId} {pages : List HomeSection}
    (h : (readSections lower deviceId limit boundary ids).Outcome E db (.ok pages) db') :
    E.rely db db' ∧ ∀ page ∈ pages, ∃ now db₁, E.rely db db₁ ∧
      page.shown = (rankedSection lower page.id limit none boundary now db₁).shown := by
  induction ids generalizing db pages with
  | nil =>
      obtain ⟨rfl, rfl⟩ := outcome_return.mp h
      exact ⟨hrefl db, fun page hpage => absurd hpage List.not_mem_nil⟩
  | cons section' ids ih =>
      obtain ⟨page, db₁, hpage, h₁⟩ := outcome_seq.mp h
      obtain ⟨rest, db₂, hrest, h₂⟩ := outcome_seq.mp h₁
      obtain ⟨rfl, rfl⟩ := outcome_return.mp h₂
      have hread : ∀ {f : Database → HomeSection} {a db db'},
          (sectionQuery deviceId section' f).Outcome E db (.ok a) db' →
            E.rely db db' ∧ a = f db' := by
        intro f a db db' hquery
        unfold sectionQuery at hquery
        split at hquery
        · obtain ⟨hrely, -, ha⟩ := rely_queryAs hquery
          exact ⟨hrely, ha⟩
        · exact rely_query hquery
      obtain ⟨hrely, now, db₃, hrely₃, rfl, hshown⟩ :=
        outcome_readRankedSection htrans hread hpage
      obtain ⟨hrely', hrest⟩ := ih hrest
      refine ⟨htrans hrely hrely', fun q hq => ?_⟩
      rcases List.mem_cons.mp hq with rfl | hq
      · exact ⟨now, db₃, hrely₃, hshown⟩
      · obtain ⟨now', db₄, hrely₄, hshown'⟩ := hrest q hq
        exact ⟨now', db₄, htrans hrely hrely₄, hshown'⟩

theorem rely_readCoverage (htrans : ∀ {a b c}, E.rely a b → E.rely b c → E.rely a c)
    {coverage : HomeCoverage} (h : readCoverage.Outcome E db (.ok coverage) db') :
    E.rely db db' := by
  obtain ⟨enabled, db₁, hsettings, h₁⟩ := outcome_seq.mp h
  obtain ⟨circuit, db₂, hcircuit, h₂⟩ := outcome_seq.mp h₁
  obtain ⟨covered, db₃, hcovered, h₃⟩ := outcome_seq.mp h₂
  obtain ⟨newest, db₄, hnewest, h₄⟩ := outcome_seq.mp h₃
  obtain ⟨rfl, -⟩ := outcome_return.mp h₄
  have hanswers := htrans (rely_ask hsettings) (rely_ask hcircuit)
  have hqueries := htrans (rely_query hcovered).1 (rely_query hnewest).1
  exact htrans hanswers hqueries

/-- A Home read takes its boundary, shows what arrived after it, and then stores the newest time
that it finds. -/
structure VisitShape (E : Surroundings homeSignature) (lower : String → String) (deviceId : String)
    (r : HomeReadResult) (db db' : Database) : Prop where
  shape : ∃ start newest, E.rely db start ∧ r.visitBoundary = visitBoundary deviceId start ∧
    (∀ page ∈ r.sections, ∃ limit now read, E.rely start read ∧
      page.shown = (rankedSection lower page.id limit none r.visitBoundary now read).shown) ∧
    E.rely start newest ∧ E.takes (some (.readNewest deviceId)) newest ∧
    ((newestIngestion newest = none ∧ db' = newest) ∨
      ∃ next last, newestIngestion newest = some next ∧ E.rely newest last ∧
        (storeBoundary deviceId next).run last = .ok ((), db'))

theorem outcome_readHome (hrefl : ∀ a, E.rely a a)
    (htrans : ∀ {a b c}, E.rely a b → E.rely b c → E.rely a c) {input : HomeReadInput}
    {r : HomeReadResult} (h : (readHome lower input).Outcome E db (.ok r) db') :
    VisitShape E lower input.deviceId r db db' := by
  obtain ⟨device, _, hlift, h₁⟩ := outcome_seq.mp h
  obtain ⟨rfl, hdevice⟩ := outcome_lift.mp hlift
  obtain rfl : input.deviceId = device := by
    unfold requireDeviceId at hdevice
    split at hdevice
    · cases hdevice
    · exact Except.ok.inj hdevice
  obtain ⟨limit, _, hlift, h₂⟩ := outcome_seq.mp h₁
  obtain ⟨rfl, -⟩ := outcome_lift.mp hlift
  obtain ⟨boundary, start, hboundary, h₃⟩ := outcome_seq.mp h₂
  obtain ⟨hstart, rfl⟩ := rely_query hboundary
  obtain ⟨generatedAt, db₁, hnow, h₄⟩ := outcome_seq.mp h₃
  obtain ⟨sections, db₂, hsections, h₅⟩ := outcome_seq.mp h₄
  obtain ⟨hread, hshown⟩ := outcome_readSections hrefl htrans hsections
  obtain ⟨coverage, db₃, hcoverage, h₆⟩ := outcome_seq.mp h₅
  obtain ⟨u, db₄, hadvance, h₇⟩ := outcome_seq.mp h₆
  obtain ⟨rfl, rfl⟩ := outcome_return.mp h₇
  obtain ⟨found, newest, hnewest, h₈⟩ := outcome_seq.mp hadvance
  obtain ⟨hrely, htakes, rfl⟩ := rely_queryAs hnewest
  have hreading := htrans (rely_ask hnow) hread
  refine ⟨start, newest, hstart, rfl, fun page hpage => ?_,
    htrans hreading (htrans (rely_readCoverage htrans hcoverage) hrely), htakes, ?_⟩
  · obtain ⟨now, read, hrely, hpage⟩ := hshown page hpage
    exact ⟨limit, now, read, htrans (rely_ask hnow) hrely, hpage⟩
  · cases hfound : newestIngestion newest with
    | none =>
        rw [hfound] at h₈
        obtain ⟨rfl, -⟩ := outcome_return.mp h₈
        exact .inl ⟨rfl, rfl⟩
    | some next =>
        rw [hfound] at h₈
        obtain ⟨last, hlast, -, hstore⟩ := Program.outcome_transaction_ok.mp h₈
        exact .inr ⟨next, last, rfl, hlast, hstore⟩

end Read

/-! ## Listed messages -/

/-- An answer lists a message as new: an entry of the section of arrivals shows it. -/
def HomeReadResult.lists (r : HomeReadResult) (id : Uuid) : Prop :=
  ∃ page ∈ r.sections, page.id = .sinceVisit ∧ id ∈ page.shown

/-- A candidate for the section of arrivals arrived after the boundary. -/
theorem arrived_of_candidate {now : Time} {boundary : Option Instant} {c : HomeCandidate}
    (h : c ∈ candidates lower now boundary db) (hsection : c.section = .sinceVisit) :
    ∃ s ∈ signals lower db, c = s.candidateIn .sinceVisit ∧
      arrivedSince boundary s.message = true := by
  rcases mem_candidates.mp h with ⟨w, hw, hc⟩ | ⟨s, hs, hc⟩
  · have hwork := section_candidate w
    rw [← eq_of_mem_work hc, hsection] at hwork
    rcases hwork with hwork | hwork <;> cases hwork
  · refine ⟨s, hs, hsection ▸ (eq_of_mem_signal hc).1, ?_⟩
    unfold HomeSignal.candidates at hc
    simp only [List.mem_append, List.mem_ite_nil_right, List.mem_singleton,
      Bool.and_eq_true] at hc
    rcases hc with (⟨-, rfl⟩ | ⟨⟨-, harrived⟩, -⟩) | ⟨-, rfl⟩
    · cases hsection
    · exact harrived
    · cases hsection

/-- A message that the section of arrivals shows arrived after the boundary. -/
theorem arrived_of_shown {limit : ℕ} {boundary : Option Instant} {now : Time}
    (h : id ∈ (rankedSection lower .sinceVisit limit none boundary now db).shown) :
    ∃ m ∈ db.messages, m.id = id ∧ arrivedSince boundary m = true := by
  obtain ⟨item, hitem, rfl⟩ := List.mem_map.mp h
  obtain ⟨c, hc, rfl⟩ := List.mem_map.mp hitem
  obtain ⟨hleader, hsection⟩ :=
    mem_sectionLeaders.mp (mem_of_mem_pageLeaders (List.mem_of_mem_take hc))
  obtain ⟨s, hs, rfl, harrived⟩ := arrived_of_candidate (mem_of_mem_leaders hleader) hsection
  exact ⟨s.message, message_mem hs, (rankedEntry_messageId hs rfl rfl).symm, harrived⟩

/-! ## The property and its condition -/

/-- The stored boundary is at least as large as the ingestion time of a message. -/
def BoundaryCovers (deviceId : String) (id : Uuid) (db : Database) : Prop :=
  ∀ m ∈ db.messages, m.id = id →
    ∃ boundary, visitBoundary deviceId db = some boundary ∧ m.ingestedAt ≤ boundary

/-- A message that a read listed does not come back after it: the stored boundary covers it, and no
later read of the device lists it, unless it is ingested again. -/
structure NeverReturns (lower : String → String) (deviceId : String) (id : Uuid) (db : Database) :
    Prop where
  covered : BoundaryCovers deviceId id db
  notAgain : ∀ db₁ db₂ r, ∀ input : HomeReadInput, input.deviceId = deviceId →
    Stays deviceId id db db₁ →
    (readHome lower input).Outcome (visitSurroundings deviceId id fun _ _ => True) db₁ (.ok r) db₂ →
    ¬ r.lists id

/-- The ingestion time of a message is not after the newest one in whole milliseconds. -/
def BeforeNewest (id : Uuid) (db : Database) : Prop :=
  ∀ m ∈ db.messages, m.id = id →
    ∀ newest, newestIngestion db = some newest → m.ingestedAt ≤ newest

/-- A read finds the newest time while it is not cut below the time of the message. -/
def readsCovering (deviceId : String) (id : Uuid) (tag : Option HomeTag) (db : Database) : Prop :=
  tag = some (.readNewest deviceId) → BeforeNewest id db

/-- Surroundings that leave the database alone. -/
def fixedDatabase : Surroundings homeSignature where
  rely := fun db db' => db' = db
  takes := fun _ _ => True
  answers := fun _ _ => True
  fault := fun _ => False

/-! ## The result -/

/-- What a boundary covers is not listed again. -/
theorem neverReturns_of_covers (h : BoundaryCovers deviceId id db) :
    NeverReturns lower deviceId id db := by
  refine ⟨h, fun db₁ db₂ r input hdevice hbetween hread hlists => ?_⟩
  subst hdevice
  obtain ⟨start, newest, hstart, hboundary, hshown, -⟩ :=
    (outcome_readHome Stays.refl Stays.trans hread).shape
  obtain ⟨page, hpage, hsection, hid⟩ := hlists
  obtain ⟨limit, now, read, hrely, hpageShown⟩ := hshown page hpage
  rw [hpageShown, hsection] at hid
  obtain ⟨m, hm, hmid, harrived⟩ := arrived_of_shown hid
  obtain ⟨m₀, hm₀, hmid₀, htime⟩ := ((hbetween.trans hstart).trans hrely).message m hm hmid
  obtain ⟨b, hb, hle⟩ := h m₀ hm₀ hmid₀
  obtain ⟨b', hb', hle'⟩ := (hbetween.trans hstart).boundary b hb
  rw [hboundary, hb'] at harrived
  have hlt : b' < m.ingestedAt := of_decide_eq_true harrived
  rw [← htime] at hlt
  exact absurd (le_trans hle hle') (not_le_of_gt hlt)

/-- Without a newest time there is no message. -/
theorem messages_of_newestIngestion (h : newestIngestion db = none) : db.messages.rows = [] := by
  unfold newestIngestion at h
  rw [Option.map_eq_none_iff, List.max?_eq_none_iff] at h
  exact List.map_eq_nil_iff.mp h

/-- A stored boundary covers a message that was not after the newest time when that was read. -/
theorem covers_of_beforeNewest {newest last : Database} {next : Instant}
    (h : BeforeNewest id newest) (hnext : newestIngestion newest = some next)
    (hlast : Stays deviceId id newest last)
    (hstore : (storeBoundary deviceId next).run last = .ok ((), db)) :
    BoundaryCovers deviceId id db := by
  obtain ⟨hboundary, hmessages⟩ := visitBoundary_store hstore
  intro m hm hmid
  have hm : m ∈ last.messages := hmessages ▸ hm
  obtain ⟨m₀, hm₀, hmid₀, htime⟩ := hlast.message m hm hmid
  refine ⟨_, hboundary, ?_⟩
  rw [← htime]
  exact le_trans (h m₀ hm₀ hmid₀ next hnext) (le_max_right _ _)

/-- A read that finds the newest time while it covers a message leaves the message behind. -/
theorem neverReturns_of_readsCovering {input : HomeReadInput} {r : HomeReadResult}
    (h : (readHome lower input).Outcome
      (visitSurroundings input.deviceId id (readsCovering input.deviceId id)) db (.ok r) db') :
    NeverReturns lower input.deviceId id db' := by
  obtain ⟨start, newest, -, -, -, -, htakes, hend⟩ :=
    (outcome_readHome Stays.refl Stays.trans h).shape
  apply neverReturns_of_covers
  rcases hend with ⟨hnone, rfl⟩ | ⟨next, last, hnext, hlast, hstore⟩
  · intro m hm
    have hrows := messages_of_newestIngestion hnone
    rw [Table.mem_iff, hrows] at hm
    cases hm
  · exact covers_of_beforeNewest (htakes rfl) hnext hlast hstore

/-- On a fixed database, what a read lists never returns exactly when it was not after the newest
time in whole milliseconds. -/
theorem neverReturns_iff {input : HomeReadInput} {r : HomeReadResult}
    (h : (readHome lower input).Outcome fixedDatabase db (.ok r) db') (hlists : r.lists id) :
    NeverReturns lower input.deviceId id db' ↔ BeforeNewest id db := by
  have htrans : ∀ {a b c : Database}, fixedDatabase.rely a b → fixedDatabase.rely b c →
      fixedDatabase.rely a c := fun hab hbc => hbc.trans hab
  obtain ⟨start, newest, hstart, hboundary, hshown, hnewest, -, hend⟩ :=
    (outcome_readHome (fun _ => rfl) htrans h).shape
  obtain rfl : start = db := hstart
  obtain rfl : newest = start := hnewest
  obtain ⟨page, hpage, hsection, hid⟩ := hlists
  obtain ⟨limit, now, read, hread, hpageShown⟩ := hshown page hpage
  obtain rfl : read = newest := hread
  rw [hpageShown, hsection] at hid
  obtain ⟨m, hm, hmid, harrived⟩ := arrived_of_shown hid
  rcases hend with ⟨hnone, -⟩ | ⟨next, last, hnext, hlast, hstore⟩
  · have hrows := messages_of_newestIngestion hnone
    rw [Table.mem_iff, hrows] at hm
    cases hm
  · obtain rfl : last = read := hlast
    obtain ⟨hstored, hmessages⟩ := visitBoundary_store hstore
    constructor
    · intro hreturns m' hm' hmid' next' hnext'
      obtain rfl : next = next' := Option.some.inj (hnext.symm.trans hnext')
      obtain rfl : m' = m := Table.eq_of_key_eq hm' hm (hmid'.trans hmid.symm)
      have hstays : m' ∈ db'.messages := hmessages ▸ hm
      obtain ⟨b, hb, hle⟩ := hreturns.covered m' hstays hmid'
      obtain rfl := Option.some.inj (hb.symm.trans hstored)
      rw [hboundary] at harrived
      cases hold : visitBoundary input.deviceId last with
      | none =>
          rw [hold] at harrived
          cases harrived
      | some b₀ =>
          rw [hold] at harrived hle
          have hlt : b₀ < m'.ingestedAt := of_decide_eq_true harrived
          rcases le_max_iff.mp hle with hle | hle
          · exact absurd hle (not_le_of_gt hlt)
          · exact hle
    · intro hbefore
      exact neverReturns_of_covers (covers_of_beforeNewest hbefore hnext (Stays.refl _) hstore)

/-- A message that a Home read lists never returns in every run in which the read finds the newest
time while it covers the message; on a fixed database it never returns in no other case. -/
theorem visits_final (lower : String → String) :
    (∀ input db db' r id,
      (readHome lower input).Outcome
        (visitSurroundings input.deviceId id (readsCovering input.deviceId id)) db (.ok r) db' →
      r.lists id → NeverReturns lower input.deviceId id db') ∧
    ∀ input db db' r id, (readHome lower input).Outcome fixedDatabase db (.ok r) db' →
      r.lists id → (NeverReturns lower input.deviceId id db' ↔ BeforeNewest id db) :=
  ⟨fun _ _ _ _ _ h _ => neverReturns_of_readsCovering h,
    fun _ _ _ _ _ h hlists => neverReturns_iff h hlists⟩

/-! ## A sample -/

/-- The messages that an answer lists as new. -/
def HomeReadResult.listed (r : HomeReadResult) : List Uuid :=
  (r.sections.filter (·.id == .sinceVisit)).flatMap (·.shown)

theorem mem_listed {r : HomeReadResult} : id ∈ r.listed ↔ r.lists id := by
  unfold HomeReadResult.listed HomeReadResult.lists
  simp only [List.mem_flatMap, List.mem_filter, beq_iff_eq, and_assoc]

/-- An inbox with one message, and a device that visited before it arrived. -/
def arrivedAt (ingestedAt : Instant) : Database :=
  { inboxOf [.bare 1 1 ingestedAt] with homeVisits := Table.empty.put ⟨"device-1", 0⟩ }

/-- Two visits of the device, one after the other. -/
def twoVisits : HomeProgram (HomeReadResult × HomeReadResult) := do
  let first ← readHome (fun text => text) ⟨"device-1", none⟩
  let second ← readHome (fun text => text) ⟨"device-1", none⟩
  return (first, second)

/-- What two visits list, when no one else is around. -/
def listedTwice (db : Database) : Option (List Uuid × List Uuid) :=
  (twoVisits.evaluate (sampleHomeReply 0) db).bind fun x =>
    x.1.toOption.map fun r => (r.1.listed, r.2.listed)

/-- The visits behind what two visits list. -/
theorem visits_of_listedTwice {first second : List Uuid}
    (h : listedTwice db = some (first, second)) : ∃ r r' db₁ db₂,
      (readHome (fun text => text) ⟨"device-1", none⟩).Outcome fixedDatabase db (.ok r) db₁ ∧
      (readHome (fun text => text) ⟨"device-1", none⟩).Outcome fixedDatabase db₁ (.ok r') db₂ ∧
      r.listed = first ∧ r'.listed = second := by
  obtain ⟨⟨x, db₂⟩, hrun, hlisted⟩ := Option.bind_eq_some_iff.mp h
  obtain ⟨⟨r, r'⟩, hx, hlists⟩ := Option.map_eq_some_iff.mp hlisted
  obtain rfl : x = .ok (r, r') := by
    cases x with
    | error e => cases hx
    | ok a => exact congrArg Except.ok (Option.some.inj hx)
  have houtcome : twoVisits.Outcome fixedDatabase db (.ok (r, r')) db₂ :=
    Program.outcome_of_evaluate (fun _ => rfl) (fun _ _ => trivial) (fun _ => trivial) hrun
  obtain ⟨first, db₁, hfirst, h₁⟩ := outcome_seq.mp houtcome
  obtain ⟨second, db₃, hsecond, h₂⟩ := outcome_seq.mp h₁
  obtain ⟨rfl, hpair⟩ := outcome_return.mp h₂
  obtain ⟨rfl, rfl⟩ := Prod.mk.inj hpair
  obtain ⟨hlistedFirst, hlistedSecond⟩ := Prod.mk.inj hlists
  exact ⟨_, _, db₁, _, hfirst, hsecond, hlistedFirst, hlistedSecond⟩

/-- A message that arrived inside a millisecond is listed by one visit and by the next one, although
nothing happened to it in between. -/
theorem message_returns : ∃ r r' db₁ db₂,
    (readHome (fun text => text) ⟨"device-1", none⟩).Outcome fixedDatabase (arrivedAt 1000300)
      (.ok r) db₁ ∧
    (readHome (fun text => text) ⟨"device-1", none⟩).Outcome fixedDatabase db₁ (.ok r') db₂ ∧
    r.lists 1 ∧ r'.lists 1 := by
  have h : listedTwice (arrivedAt 1000300) = some ([1], [1]) := by decide +kernel
  obtain ⟨r, r', db₁, db₂, hfirst, hsecond, hr, hr'⟩ := visits_of_listedTwice h
  refine ⟨r, r', db₁, db₂, hfirst, hsecond, mem_listed.mp ?_, mem_listed.mp ?_⟩
  · rw [hr]
    exact List.mem_singleton.mpr rfl
  · rw [hr']
    exact List.mem_singleton.mpr rfl

/-- A message that arrived at a whole millisecond is listed once. -/
theorem message_stays : ∃ r db₁,
    (readHome (fun text => text) ⟨"device-1", none⟩).Outcome fixedDatabase (arrivedAt 1000000)
      (.ok r) db₁ ∧ r.lists 1 ∧ NeverReturns (fun text => text) "device-1" 1 db₁ := by
  have h : listedTwice (arrivedAt 1000000) = some ([1], []) := by decide +kernel
  obtain ⟨r, r', db₁, db₂, hfirst, -, hr, -⟩ := visits_of_listedTwice h
  have hlists : r.lists 1 := mem_listed.mp (by rw [hr]; exact List.mem_singleton.mpr rfl)
  refine ⟨r, db₁, hfirst, hlists, ((visits_final _).2 _ _ _ _ _ hfirst hlists).mpr ?_⟩
  intro m hm _ newest hnewest
  obtain rfl := List.mem_singleton.mp hm
  obtain rfl := Option.some.inj hnewest
  decide

end MailHub.Home
