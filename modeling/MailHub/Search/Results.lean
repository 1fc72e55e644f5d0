import MailHub.Ordering.Merging
import MailHub.Search.Service
import Mathlib.Data.Rat.Init
import Mathlib.Data.Prod.Lex
import Mathlib.Algebra.Order.Ring.Rat

/-!
# Search results

One search answers with a page of hits in the order of the server: by rank where the query has
text, then by the effective send time, then by message. The text search of the database is a
parameter.
-/

namespace MailHub.Search

open MailHub Relational Ordering

/-! ## Requests -/

def maxQueryChars : ℕ := 2000

/-- One page of results. -/
def defaultSearchLimit : ℕ := 50

def maxSearchLimit : ℕ := 100

def maxSearchOffset : ℕ := 10000

def maxAccountFilters : ℕ := 20

def maxDomainFilters : ℕ := 10

/-- One search request: the query text and the scope the client selected. -/
structure SearchInput where
  query : String
  /-- Account filter chips; none searches every account. -/
  accountIds : Option (List Uuid) := none
  /-- One folder scope; none keeps every folder. -/
  folderId : Option Uuid := none
  domains : Option (List String) := none
  /-- Only records without active occurrences. -/
  localOnly : Bool := false
  limit : Option ℕ := none
  offset : Option ℕ := none
  deriving DecidableEq, Repr

/-- Query text as the box sent it, bounded in length. -/
def readQueryText (query : String) : Except SearchError String :=
  if maxQueryChars < textLength query then
    .error ⟨.invalidRequest, s!"The query is longer than {maxQueryChars} characters."⟩
  else .ok (trim query)

/-- Account chips, deduplicated, or `none` for every account. -/
def readAccountFilters (accountIds : Option (List Uuid)) : Except SearchError (Option (List Uuid)) :=
  match accountIds with
  | none => .ok none
  | some [] => .ok none
  | some ids =>
      if maxAccountFilters < ids.length then
        .error ⟨.invalidRequest, s!"At most {maxAccountFilters} account filters are allowed."⟩
      else .ok (some ids.eraseDups)

/-- Domain chips, validated like the values of `domain:`. -/
def readDomainFilters (u : Unicode) (domains : Option (List String)) :
    Except SearchError (List String) :=
  let domains := domains.getD []
  if maxDomainFilters < domains.length then
    .error ⟨.invalidRequest, s!"At most {maxDomainFilters} domain filters are allowed."⟩
  else domains.mapM fun domain =>
    match normalizeDomainValue u domain with
    | .ok value => .ok value
    | .error _ => .error ⟨.invalidRequest, s!"Invalid domain filter \"{domain}\"."⟩

def readLimit (limit : Option ℕ) : Except SearchError ℕ :=
  match limit with
  | none => .ok defaultSearchLimit
  | some limit =>
      if limit < 1 ∨ maxSearchLimit < limit then
        .error ⟨.invalidRequest, s!"Limit must be an integer between 1 and {maxSearchLimit}."⟩
      else .ok limit

def readOffset (offset : Option ℕ) : Except SearchError ℕ :=
  match offset with
  | none => .ok 0
  | some offset =>
      if maxSearchOffset < offset then
        .error ⟨.invalidRequest, s!"Offset must be an integer between 0 and {maxSearchOffset}."⟩
      else .ok offset

/-! ## Hits -/

inductive HighlightSource
  | subject | body
  deriving DecidableEq, Repr

/-- The text search of the database, over the index of a message and a query text. -/
structure TextSearch where
  matchesText : Message → String → Bool
  rank : Message → String → Rat
  highlightSource : Message → String → Option HighlightSource
  highlight : Message → String → Option String

/-- An active occurrence a hit summarizes, frozen for mail actions. -/
structure SearchOccurrenceRef where
  occurrenceId : Uuid
  folderId : Uuid
  revision : ℕ
  modseq : Option ℕ
  deriving DecidableEq, Repr

/-- One result row. -/
structure SearchHit where
  messageId : Uuid
  accountId : Uuid
  threadId : Option Uuid
  subject : Option String
  sender : Option EmailAddress
  /-- The effective send time. -/
  sentAt : Option Time
  fetchedBody : Bool
  hasAttachments : Bool
  unread : Bool
  flagged : Bool
  activeOccurrences : ℕ
  occurrences : List SearchOccurrenceRef
  noServerCopy : Bool
  /-- Absent when the query had no free text. -/
  rank : Option Rat
  highlight : Option String
  highlightSource : Option HighlightSource
  deriving DecidableEq, Repr

/-- The order of the server: rank first with absent ranks last, then the effective send time with
absent times last, then the message. -/
def SearchHit.place (h : SearchHit) : (Bool ×ₗ Ratᵒᵈ) ×ₗ (Bool ×ₗ ℕᵒᵈ) ×ₗ Uuid :=
  toLex (toLex (h.rank.isNone, OrderDual.toDual (h.rank.getD 0)),
    toLex (toLex (h.sentAt.isNone, OrderDual.toDual (h.sentAt.getD 0)), h.messageId))

/-- The active occurrences of a message inside the scope. -/
def scopeOccurrences (folderId : Option Uuid) (db : Database) (m : Message) :
    List MessageOccurrence :=
  db.messageOccurrences.select fun o =>
    o.messageId == m.id && o.isActive && folderId.all (o.folderId == ·)

/-- The hit of one message. -/
def toHit (t : TextSearch) (parsed : ParsedSearchQuery) (folderId : Option Uuid) (db : Database)
    (m : Message) : SearchHit :=
  let occurrences := scopeOccurrences folderId db m
  let hasText := parsed.text != ""
  { messageId := m.id
    accountId := m.accountId
    threadId := m.threadId
    subject := m.subject
    sender := m.sender
    sentAt := effectiveAt db m
    fetchedBody := m.fetchedBody
    hasAttachments := m.hasAttachments
    unread := occurrences.any (·.unread)
    flagged := occurrences.any (·.flagged)
    activeOccurrences := occurrences.length
    occurrences := (occurrences.insertionSort fun a b => a.uid ≤ b.uid).map fun o =>
      ⟨o.id, o.folderId, o.revision, o.modseq⟩
    noServerCopy := occurrences.isEmpty
    rank := if hasText then some (t.rank m parsed.text) else none
    highlight := if hasText then t.highlight m parsed.text else none
    highlightSource := if hasText then t.highlightSource m parsed.text else none }

/-! ## One search -/

/-- The scope of a search. -/
structure SearchScope where
  accountIds : Option (List Uuid)
  folderId : Option Uuid
  domains : List String
  localOnly : Bool
  deriving DecidableEq, Repr

/-- The conditions of a search: those of the query, with the flags read inside the scope, and those
of the scope. -/
def selects (u : Unicode) (t : TextSearch) (parsed : ParsedSearchQuery) (scope : SearchScope)
    (db : Database) (m : Message) : Bool :=
  (db.accounts.find? m.accountId).isSome &&
    whereClause u t.matchesText { parsed with
      domains := parsed.domains ++ scope.domains, unread := false, flagged := false } db m &&
    (!parsed.unread || (scopeOccurrences scope.folderId db m).any (·.unread)) &&
    (!parsed.flagged || (scopeOccurrences scope.folderId db m).any (·.flagged)) &&
    (scope.accountIds.all fun ids => m.accountId ∈ ids) &&
    (scope.folderId.isNone || !(scopeOccurrences scope.folderId db m).isEmpty) &&
    (!scope.localOnly || (scopeOccurrences none db m).isEmpty)

/-- The hits of a search, in no order. -/
def hits (u : Unicode) (t : TextSearch) (parsed : ParsedSearchQuery) (scope : SearchScope)
    (db : Database) : List SearchHit :=
  (db.messages.select (selects u t parsed scope db)).map (toHit t parsed scope.folderId db)

/-- How many messages exist and how many have their body text indexed. -/
structure IndexingProgress where
  messages : ℕ
  bodies : ℕ
  deriving DecidableEq, Repr

def bodyIndexingProgress (accountIds : Option (List Uuid)) (db : Database) : IndexingProgress :=
  let messages := db.messages.select fun m => accountIds.all fun ids => m.accountId ∈ ids
  ⟨messages.length, (messages.filter (·.fetchedBody)).length⟩

/-- One complete search answer. -/
structure SearchResult where
  results : List SearchHit
  /-- Total rows the query matches, past the returned page. -/
  total : ℕ
  indexing : IndexingProgress
  deriving DecidableEq, Repr

/-- Run one search across every account in scope. -/
def search (u : Unicode) (t : TextSearch) (input : SearchInput) (db : Database) :
    Except SearchError SearchResult := do
  let text ← readQueryText input.query
  let parsed ← parseSearchQuery u text
  let accountIds ← readAccountFilters input.accountIds
  let domains ← readDomainFilters u input.domains
  let limit ← readLimit input.limit
  let offset ← readOffset input.offset
  let rows := sortBy SearchHit.place
    (hits u t parsed ⟨accountIds, input.folderId, domains, input.localOnly⟩ db)
  return ⟨(rows.drop offset).take limit, rows.length, bodyIndexingProgress accountIds db⟩

end MailHub.Search
