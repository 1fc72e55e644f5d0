import MailHub.Relational.Like
import MailHub.Search.Tokens

/-!
# Search

The where clause of one search across every account: each operator adds a condition on the index
columns, the flags or the date of a message. The full text search itself is a parameter.
-/

namespace MailHub.Search

open MailHub Relational

/-! ## Index columns -/

/-- The columns `sender_text`, `recipients_text` and `addresses_text`, as ingestion fills them. -/
def senderText (u : Unicode) (m : Message) : String :=
  normalizeIndexText u (senderIndexText m.sender)

def recipientsText (u : Unicode) (m : Message) : String :=
  normalizeIndexText u (recipientsIndexText m.recipients)

def addressesText (u : Unicode) (m : Message) : String :=
  normalizeIndexText u (addressesIndexText m.sender m.recipients)

/-! ## Conditions -/

/-- `domain:` matches an address domain at the end of the text or in front of a blank. -/
def domainCondition (column domain : String) : Bool :=
  like ('%' :: '@' :: domain.toList) column.toList ||
    like ('%' :: '@' :: (domain.toList ++ [' ', '%'])) column.toList

/-- `from:` and `to:` match a suffix of the text, a fragment in front of an at sign, and a full
address in front of a blank. -/
def addressCondition (column value : String) : Bool :=
  let escaped := escapeLikeWildcards value.toList
  let patterns := ['%' :: escaped, '%' :: (escaped ++ ['@', '%'])] ++
    if '@' ∈ value.toList then ['%' :: (escaped ++ [' '])] else []
  patterns.any fun pattern => like pattern column.toList

/-- One flag predicate over the active occurrences of a message. -/
def flagCondition (flag : MessageOccurrence → Bool) (db : Database) (m : Message) : Bool :=
  db.messageOccurrences.rows.any fun o => o.messageId == m.id && o.isActive && flag o

/-- When a message counts as sent: its date, or the first arrival of a copy. -/
def effectiveAt (db : Database) (m : Message) : Option Time :=
  m.sentAt.or ((db.messageOccurrences.select (·.messageId == m.id)).map (·.internalDate)).min?

/-- The number of days of the years before a year. -/
def daysBeforeYear (year : ℕ) : ℕ :=
  365 * (year - 1) + (year - 1) / 4 - (year - 1) / 100 + (year - 1) / 400

/-- The midnight that starts a day, in milliseconds of Unix time. -/
def CalendarDay.midnight (date : CalendarDay) : ℤ :=
  let months := (List.range (date.month - 1)).map fun month => daysInMonth date.year (month + 1)
  86400000 * ((daysBeforeYear date.year + months.sum + (date.day - 1) : ℕ) - 719162)

example : (CalendarDay.mk 2026 9 1).midnight = 1788220800000 := by decide

/-- The where clause of a search: every condition of the parsed query. -/
def whereClause (u : Unicode) (matchesText : Message → String → Bool) (parsed : ParsedSearchQuery)
    (db : Database) (m : Message) : Bool :=
  (parsed.text = "" || matchesText m parsed.text) &&
    parsed.«from».all (fun value => addressCondition (senderText u m) value) &&
    parsed.«to».all (fun value => addressCondition (recipientsText u m) value) &&
    parsed.domains.all (fun domain => domainCondition (addressesText u m) domain) &&
    (parsed.types = [] || m.classHint.any (· ∈ parsed.types)) &&
    (!parsed.action || m.asksAction == some true) &&
    (!parsed.hasAttachment || m.hasAttachments) &&
    (!parsed.unread || flagCondition (·.unread) db m) &&
    (!parsed.flagged || flagCondition (·.flagged) db m) &&
    (parsed.before.all fun date => (effectiveAt db m).any fun t => (t : ℤ) < date.midnight) &&
    (parsed.after.all fun date => (effectiveAt db m).any fun t => date.midnight < (t : ℤ))

/-- A query is accepted and matches a message. -/
def Finds (u : Unicode) (matchesText : Message → String → Bool) (db : Database) (query : String)
    (m : Message) : Prop :=
  ∃ parsed, parseSearchQuery u query = .ok parsed ∧ whereClause u matchesText parsed db m = true

/-! ## Queries of one operator -/

section

variable {u : Unicode} {matchesText : Message → String → Bool} {db : Database} {m : Message}

/-- An empty text is empty under every normalization. -/
theorem normalizeIndexText_empty (hu : u.Standard) : normalizeIndexText u "" = "" := by
  unfold normalizeIndexText
  rw [String.toList_empty, hu.fold_nil]
  rfl

/-- A text without white space is trimmed. -/
theorem trim_of_word {value : String} (h : ∀ c ∈ value.toList, isSpace c = false) :
    trim value = value := by
  have hdrop : ∀ cs : List Char, (∀ c ∈ cs, isSpace c = false) → cs.dropWhile isSpace = cs := by
    intro cs hcs
    cases cs with
    | nil => rfl
    | cons c cs => rw [List.dropWhile_cons_of_neg (by simp [hcs c List.mem_cons_self])]
  unfold trim
  rw [hdrop _ h, hdrop _ (by simpa using h), List.reverse_reverse, String.ofList_toList]

/-- The characters of a value that needs no quotes. -/
structure PlainValue (value : String) : Prop where
  ne_nil : value.toList ≠ []
  char : ∀ c ∈ value.toList, isBreak c = false

theorem plainValue_of_all {value : String} (hne : value.toList ≠ [])
    (h : value.toList.all (fun c => !isBreak c) = true) : PlainValue value :=
  ⟨hne, fun c hc => by simpa using List.all_eq_true.mp h c hc⟩

theorem PlainValue.isSpace {value : String} (h : PlainValue value) :
    ∀ c ∈ value.toList, isSpace c = false := by
  intro c hc
  have hplain := h.char c hc
  unfold isBreak at hplain
  simp only [Bool.or_eq_false_iff] at hplain
  exact hplain.1

theorem PlainValue.requireValue {value : String} (h : PlainValue value) (operator : String) :
    requireValue operator value = .ok value := by
  have hne : value ≠ "" := by
    rintro rfl
    exact h.ne_nil rfl
  unfold Search.requireValue
  simp only [trim_of_word h.isSpace, if_neg hne]

/-- One operator with a plain value is one token. -/
theorem matchAll_operator {operator value : List Char} (hne : operator ≠ [])
    (hletters : ∀ c ∈ operator, isLetter c = true) (hvalue : ∀ c ∈ value, isBreak c = false) :
    matchAll 0 0 (operator ++ ':' :: value) = [⟨0, .plainOperator operator value⟩] := by
  have hplain : ∀ c ∈ value, isSpace c = false := by
    intro c hc
    have hchar := hvalue c hc
    unfold isBreak at hchar
    simp only [Bool.or_eq_false_iff] at hchar
    exact hchar.1
  have hhead : value.head? ≠ some '"' := by
    intro hhead
    have hchar := hvalue '"' (List.mem_of_head? hhead)
    exact absurd hchar (by decide)
  have hat : tokenAt (operator ++ ':' :: (value ++ [])) = some (.plainOperator operator value) :=
    tokenAt_plainOperator hne hletters hhead hplain (by simp [AtBoundary])
  rw [List.append_nil] at hat
  have hscan := scan_matchAll 0 (operator ++ ':' :: value)
  generalize matchAll 0 0 (operator ++ ':' :: value) = found at hscan
  generalize hcs : operator ++ ':' :: value = cs at hscan hat
  cases hscan with
  | nil => simp at hcs
  | token hat' hsplit hreads hrest =>
      obtain rfl := Option.some.inj (hat.symm.trans hat')
      have hchars : (Token.plainOperator operator value).chars = cs := hcs
      rw [hchars] at hsplit
      obtain rfl := List.self_eq_append_right.mp hsplit
      rw [hrest.of_nil]
  | skip hskip hrest =>
      obtain ⟨c, operator, rfl⟩ := List.exists_cons_of_ne_nil hne
      obtain ⟨rfl, -⟩ := List.cons.inj hcs
      have hletter := isLetter_not_break (hletters c List.mem_cons_self)
      rcases hskip with hspace | ⟨rfl, -⟩
      · simp [isBreak, hspace] at hletter
      · exact absurd hletter (by decide)

/-- A query of one operator with a plain value applies that operator. -/
theorem parse_operator (hu : u.Standard) {operator value : String} (hne : operator.toList ≠ [])
    (hletters : operator.toList.all isLetter = true) (hvalue : PlainValue value)
    {parsed : ParsedSearchQuery}
    (happly : applyOperator u emptyQuery (toLowerCase operator) value = .ok parsed) :
    parseSearchQuery u (operator ++ ":" ++ value) = .ok { parsed with text := "" } := by
  have hchars : (operator ++ ":" ++ value).toList = operator.toList ++ ':' :: value.toList := by
    simp
  have hcount : EvenQuotes (operator.toList ++ ':' :: value.toList) := by
    refine (evenQuotes_operator (List.all_eq_true.mp hletters)).mpr
      (evenQuotes_of_not_mem fun hmem => ?_)
    exact absurd (hvalue.char '"' hmem) (by decide)
  have hodd : ¬ (operator ++ ":" ++ value).toList.count '"' % 2 = 1 := by
    rw [hchars]
    unfold EvenQuotes at hcount
    omega
  have hread : readTokens u (emptyQuery, []) [⟨0, .plainOperator operator.toList value.toList⟩] =
      .ok (parsed, []) := by
    unfold readTokens readToken
    simp only [String.ofList_toList, happly]
    rfl
  unfold parseSearchQuery
  rw [if_neg hodd, hchars, matchAll_operator hne (List.all_eq_true.mp hletters) hvalue.char,
    hread]
  show Except.ok { parsed with text := normalizeIndexText u (" ".intercalate []) } = _
  rw [show " ".intercalate [] = "" from rfl, normalizeIndexText_empty hu]

end

end MailHub.Search
