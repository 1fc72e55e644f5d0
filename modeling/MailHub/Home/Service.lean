import MailHub.Errors
import MailHub.Text
import MailHub.Home.Sections

/-!
# Reading Home

A Home read takes the visit boundary of its device, reads the sections one by one, and only then
advances the boundary to the newest ingestion time that the server knows. Each section, the newest
time and the new boundary are statements of their own.
-/

namespace MailHub.Home

open Relational Interleaving

/-! ## Requests -/

/-- The classification circuit, as the health report states it. -/
inductive CircuitState
  | closed | «open» | notConfigured | unknown
  deriving DecidableEq, Repr

/-- One request of Home to the clock or to another service. -/
inductive HomeCall
  | now
  /-- The time at which a transaction starts, as the database stamps its rows. -/
  | transactionStart
  /-- Whether classification is enabled. -/
  | readSettings
  /-- The circuit with its description. -/
  | readCircuit
  deriving DecidableEq, Repr

/-- The type of the answer to each request. -/
def HomeCall.Answer : HomeCall → Type
  | now => Time
  | transactionStart => Instant
  | readSettings => Bool
  | readCircuit => CircuitState × String

/-- The statements of Home that a specification names. -/
inductive HomeTag
  /-- A Home read of a device reads the section of arrivals since the last visit. -/
  | readSince (deviceId : String)
  /-- A Home read of a device reads the newest ingestion time. -/
  | readNewest (deviceId : String)
  /-- A Home read of a device stores the next boundary. -/
  | advance (deviceId : String)
  deriving DecidableEq, Repr

/-- Home, as programs on the database. -/
abbrev homeSignature : Signature where
  Store := Database
  Failure := Failure
  Tag := HomeTag
  Call := HomeCall
  Answer := HomeCall.Answer

/-- An operation of Home. -/
abbrev HomeProgram := Program homeSignature

namespace HomeProgram

variable {α : Type}

/-- A computation that may fail. -/
def lift (r : Except Failure α) : HomeProgram α := Program.ofExcept r

/-- Read the database in one statement. -/
def query (f : Database → α) : HomeProgram α := Program.read f

/-- Read the database in one statement with a name. -/
def queryAs (tag : HomeTag) (f : Database → α) : HomeProgram α :=
  Program.transaction (S := homeSignature) (some tag) (Tx.read f)

/-- Send one request and wait for its answer. -/
def ask (c : HomeCall) : HomeProgram c.Answer := Program.request (S := homeSignature) c

end HomeProgram

open HomeProgram (lift query queryAs ask)

/-! ## Validation -/

/-- How many entries one section page returns by default. -/
def defaultSectionLimit : ℕ := 8

/-- The most entries one section page may return. -/
def maxSectionLimit : ℕ := 50

/-- The coverage window: the newest inbox messages coverage examines. -/
def coverageWindow : ℕ := 200

/-- The longest device identifier accepted. -/
def maxDeviceIdChars : ℕ := 100

/-- Check the identifier of a device. -/
def requireDeviceId (deviceId : String) : Except Failure String :=
  if textLength deviceId < 8 ∨ maxDeviceIdChars < textLength deviceId then
    .error (.home .invalidRequest "The device identifier must be 8 to 100 characters." none)
  else .ok deviceId

/-- The page size of a request. -/
def pageLimit : Option ℕ → Except Failure ℕ
  | none => .ok defaultSectionLimit
  | some limit =>
      if limit < 1 ∨ maxSectionLimit < limit then
        .error (.home .invalidRequest s!"The section limit must be 1 to {maxSectionLimit}." none)
      else .ok limit

/-! ## Coverage and visits -/

/-- Classification coverage behind the suggestions. -/
structure HomeCoverage where
  state : String
  description : String
  considered : ℕ
  answered : ℕ
  newestAnswerAt : Option Instant
  deriving DecidableEq, Repr

/-- The newest inbox messages, up to the coverage window. -/
def coveredMessages (db : Database) : List Message :=
  ((db.messages.select (inboxOccurrence db)).insertionSort fun a b =>
    effectiveTime b ≤ effectiveTime a).take coverageWindow

/-- Whether anything answered for a message. -/
def hasAnswer (m : Message) : Bool :=
  m.classHint.isSome || (m.metadata.text "classSource").isSome

/-- Classification coverage behind the suggestions. -/
def readCoverage : HomeProgram HomeCoverage := do
  let enabled ← ask .readSettings
  let circuit ← ask .readCircuit
  let state := match (enabled : Bool), (circuit : CircuitState × String).1 with
    | false, _ => "disabled"
    | true, .closed => "active"
    | true, .open => "paused"
    | true, _ => "not_configured"
  let covered ← query coveredMessages
  let newest ← query fun db => (db.decisions.rows.map (·.createdAt)).max?
  return ⟨state, (circuit : CircuitState × String).2, covered.length,
    (covered.filter hasAnswer).length, newest⟩

/-- The stored visit boundary of a device; it holds whole milliseconds, so that a date keeps it. -/
def visitBoundary (deviceId : String) (db : Database) : Option Instant :=
  (db.homeVisits.find? deviceId).map (·.boundary)

/-- A time of the database as the process holds it: whole milliseconds. -/
def dateOf (t : Instant) : Instant := t / 1000 * 1000

/-- The newest ingestion time. -/
def newestIngestion (db : Database) : Option Instant :=
  ((db.messages.rows.map (·.ingestedAt)).max?).map dateOf

/-- Store the boundary of a device; it never moves backwards. -/
def storeBoundary (deviceId : String) (next : Instant) : Tx Unit :=
  modify fun db =>
    { db with
      homeVisits := db.homeVisits.put
        ⟨deviceId, max ((visitBoundary deviceId db).getD next) next⟩ }

/-- Record the next boundary after a successful load: the newest ingestion time. -/
def advanceVisitBoundary (deviceId : String) : HomeProgram Unit := do
  match ← queryAs (.readNewest deviceId) newestIngestion with
  | none => return ()
  | some next =>
      Program.transaction (S := homeSignature) (some (.advance deviceId))
        (storeBoundary deviceId next)

/-! ## Sections -/

/-- Read one page of a section with the occurrences of its representatives. -/
def readRankedSection (lower : String → String) (read : (Database → HomeSection) →
    HomeProgram HomeSection) (id : HomeSectionId) (limit : ℕ)
    (cursor : Option HomeSectionCursor) (boundary : Option Instant) :
    HomeProgram HomeSection := do
  let now ← ask .now
  let page ← read (rankedSection lower id limit cursor boundary now)
  if page.items = [] then
    return page
  let items ← query fun db => page.items.map (withOccurrences db)
  return { page with items }

/-- What one Home read asks for. -/
structure HomeReadInput where
  deviceId : String
  limit : Option ℕ

/-- One full Home answer. -/
structure HomeReadResult where
  generatedAt : Time
  sections : List HomeSection
  classification : HomeCoverage
  visitBoundary : Option Instant
  deriving DecidableEq, Repr

/-- How a Home read of a device reads a section. -/
def sectionQuery (deviceId : String) (id : HomeSectionId) :
    (Database → HomeSection) → HomeProgram HomeSection :=
  if id = .sinceVisit then queryAs (.readSince deviceId) else query

/-- Read the sections of a Home answer, one after the other. -/
def readSections (lower : String → String) (deviceId : String) (limit : ℕ)
    (boundary : Option Instant) : List HomeSectionId → HomeProgram (List HomeSection)
  | [] => return []
  | id :: ids => do
      let page ← readRankedSection lower (sectionQuery deviceId id) id limit none boundary
      let pages ← readSections lower deviceId limit boundary ids
      return page :: pages

/-- Assemble the whole Home answer; the boundary advances after every section was read. -/
def readHome (lower : String → String) (input : HomeReadInput) : HomeProgram HomeReadResult := do
  let deviceId ← lift (requireDeviceId input.deviceId)
  let limit ← lift (pageLimit input.limit)
  let boundary ← query (visitBoundary deviceId)
  let generatedAt ← ask .now
  let sections ← readSections lower deviceId limit boundary sectionOrder
  let classification ← readCoverage
  advanceVisitBoundary deviceId
  return ⟨generatedAt, sections, classification, boundary⟩

end MailHub.Home
