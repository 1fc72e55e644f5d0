import MailHub.Search.Text

/-!
# The search query language

One query is free text plus operators. A pattern cuts the query into tokens: an operator with its
value, a phrase in double quotes, or a word. Operators set filters; unknown operators, empty values
and dates that are not real calendar dates reject, and so does a quote without its closing quote.
-/

namespace MailHub.Search

open MailHub

/-! ## Rejections -/

inductive SearchErrorCode
  | invalidRequest | invalidQuery | notFound | nameConflict
  deriving DecidableEq, Repr

/-- A search rejection. -/
structure SearchError where
  code : SearchErrorCode
  message : String
  deriving DecidableEq, Repr

def invalidQuery (message : String) : SearchError := ⟨.invalidQuery, message⟩

/-! ## Parsed queries -/

/-- One day of the calendar, as a boundary at its midnight. -/
structure CalendarDay where
  year : ℕ
  month : ℕ
  day : ℕ
  deriving DecidableEq, Repr

/-- One parsed search query: the free text and every operator filter. -/
structure ParsedSearchQuery where
  /-- Remaining free text, normalized like index text. -/
  text : String
  /-- Sender match values, normalized. -/
  «from» : List String
  /-- Recipient match values, normalized. -/
  «to» : List String
  /-- Address domains, validated. -/
  domains : List String
  types : List MessageClass
  unread : Bool
  flagged : Bool
  action : Bool
  hasAttachment : Bool
  before : Option CalendarDay
  after : Option CalendarDay
  deriving DecidableEq, Repr

/-- The empty query: no text and no operator. -/
def emptyQuery : ParsedSearchQuery where
  text := ""
  «from» := []
  «to» := []
  domains := []
  types := []
  unread := false
  flagged := false
  action := false
  hasAttachment := false
  before := none
  after := none

/-! ## Tokens -/

/-- One query token: an operator with its value, or free text. -/
inductive Token
  | quotedOperator (operator value : List Char)
  | plainOperator (operator value : List Char)
  | quotedText (text : List Char)
  | plainText (text : List Char)
  deriving DecidableEq, Repr

/-- The characters that a token takes up, its quotes and its colon included. -/
def Token.chars : Token → List Char
  | quotedOperator operator value => operator ++ ':' :: '"' :: value ++ ['"']
  | plainOperator operator value => operator ++ ':' :: value
  | quotedText text => '"' :: text ++ ['"']
  | plainText text => text

/-- The characters of an operator name: `[a-zA-Z]`. -/
def isLetter (c : Char) : Bool := ('a' ≤ c && c ≤ 'z') || ('A' ≤ c && c ≤ 'Z')

/-- `"([^"]*)"` at the start of a text: what stands between the quotes. -/
def quotedAt : List Char → Option (List Char)
  | '"' :: rest =>
      if '"' ∈ rest then some (rest.takeWhile (· ≠ '"')) else none
  | _ => none

/-- `([a-zA-Z]+):` at the start of a text: the operator name, and what follows the colon. A shorter
run of letters is never followed by a colon. -/
def operatorAt (cs : List Char) : Option (List Char × List Char) :=
  match cs.takeWhile isLetter, cs.dropWhile isLetter with
  | [], _ => none
  | operator, ':' :: rest => some (operator, rest)
  | _, _ => none

/-- The token that the pattern matches at the start of a text, if any. -/
def tokenAt (cs : List Char) : Option Token :=
  match operatorAt cs with
  | some (operator, rest) => match quotedAt rest with
    | some value => some (.quotedOperator operator value)
    | none => some (.plainOperator operator (rest.takeWhile fun c => !isSpace c))
  | none => match quotedAt cs with
    | some text => some (.quotedText text)
    | none => match cs.takeWhile fun c => !isSpace c && c ≠ '"' with
      | [] => none
      | text => some (.plainText text)

/-- One match of the pattern: where it starts, and its token. -/
structure TokenMatch where
  index : ℕ
  token : Token
  deriving DecidableEq, Repr

/-- All matches of the pattern from left to right; `skip` characters belong to the last match. -/
def matchAll (skip index : ℕ) : List Char → List TokenMatch
  | [] => []
  | c :: cs => match skip with
    | skip + 1 => matchAll skip (index + 1) cs
    | 0 => match tokenAt (c :: cs) with
      | some token => ⟨index, token⟩ :: matchAll (token.chars.length - 1) (index + 1) cs
      | none => matchAll 0 (index + 1) cs

/-! ## Values -/

/-- Add one value to a list, keeping the first position of a repeated value. -/
def pushValue {α : Type} [DecidableEq α] (list : List α) (value : α) : List α :=
  if value ∈ list then list else list ++ [value]

def requireValue (operator value : String) : Except SearchError String :=
  let trimmed := trim value
  if trimmed = "" then .error (invalidQuery s!"Operator \"{operator}:\" needs a value.")
  else .ok trimmed

/-- One label of a domain: `[a-z0-9]([a-z0-9-]*[a-z0-9])?`. -/
def isLabel (label : List Char) : Bool :=
  let isAlnum (c : Char) := ('a' ≤ c && c ≤ 'z') || ('0' ≤ c && c ≤ '9')
  label.all (fun c => isAlnum c || c == '-') && label.head?.any isAlnum && label.getLast?.any isAlnum

/-- One address domain: folded and validated. -/
def normalizeDomainValue (u : Unicode) (value : String) : Except SearchError String :=
  let normalized := normalizeIndexText u value
  if textLength normalized = 0 ∨ 253 < textLength normalized then
    .error (invalidQuery s!"Invalid domain \"{value}\".")
  else if (splitList '.' normalized.toList).all isLabel then .ok normalized
  else .error (invalidQuery s!"Invalid domain \"{value}\".")

/-- The classes that a `type:` operator may select, under the names that it selects them by. -/
def jevClasses : List (String × MessageClass) :=
  [("correspondence", .correspondence), ("receipt", .receipt), ("newsletter", .newsletter),
    ("notification", .notification), ("marketing", .marketing),
    ("security_alert", .securityAlert), ("bounce", .bounce), ("other", .other)]

/-- One Jev class, normalized; unknown classes reject. -/
def parseJevClass (u : Unicode) (value : String) : Except SearchError MessageClass :=
  match jevClasses.lookup (normalizeIndexText u value) with
  | some jevClass => .ok jevClass
  | none =>
      let names := ", ".intercalate (jevClasses.map (·.1))
      .error (invalidQuery s!"Unknown type \"{value}\". Choose one of: {names}.")

/-- The number that decimal digits write. -/
def decimal (cs : List Char) : Option ℕ :=
  if cs.all fun c => '0' ≤ c && c ≤ '9' then
    some (cs.foldl (fun n c => 10 * n + (c.toNat - '0'.toNat)) 0)
  else none

/-- The number of days in a month. -/
def daysInMonth (year month : ℕ) : ℕ :=
  if month = 2 then
    if year % 4 = 0 ∧ (year % 100 ≠ 0 ∨ year % 400 = 0) then 29 else 28
  else if month ∈ [4, 6, 9, 11] then 30 else 31

/-- Whether a date is read back from the point in time it is turned into; the years before 100 are
taken for years of the twentieth century. -/
def CalendarDay.isReal (date : CalendarDay) : Bool :=
  100 ≤ date.year && 1 ≤ date.month && date.month ≤ 12 && 1 ≤ date.day &&
    date.day ≤ daysInMonth date.year date.month

/-- One UTC date boundary from a `YYYY-MM-DD` value. -/
def parseDateBoundary (value : String) : Except SearchError CalendarDay :=
  let shape := invalidQuery s!"Invalid date \"{value}\". Use YYYY-MM-DD."
  match splitList '-' value.toList with
  | [year, month, day] =>
      if year.length = 4 ∧ month.length = 2 ∧ day.length = 2 then
        match decimal year, decimal month, decimal day with
        | some year, some month, some day =>
            if CalendarDay.isReal ⟨year, month, day⟩ then .ok ⟨year, month, day⟩
            else .error (invalidQuery
              s!"Invalid date \"{value}\". The calendar has no such day.")
        | _, _, _ => .error shape
      else .error shape
  | _ => .error shape

/-! ## Operators -/

/-- The closed `is:` operator set: unread, flagged, and action. -/
def applyIsOperator (parsed : ParsedSearchQuery) (value : String) :
    Except SearchError ParsedSearchQuery :=
  match toLowerCase value with
  | "unread" => .ok { parsed with unread := true }
  | "flagged" => .ok { parsed with flagged := true }
  | "action" => .ok { parsed with action := true }
  | _ => .error (invalidQuery (s!"Unknown operator \"is:{value}\". This version defines " ++
      "is:unread, is:flagged, and is:action."))

/-- Apply one operator token, rejecting anything this version does not define. -/
def applyOperator (u : Unicode) (parsed : ParsedSearchQuery) (operator value : String) :
    Except SearchError ParsedSearchQuery :=
  match operator with
  | "from" => do
      let value ← requireValue "from" value
      return { parsed with «from» := pushValue parsed.«from» (normalizeIndexText u value) }
  | "to" => do
      let value ← requireValue "to" value
      return { parsed with «to» := pushValue parsed.«to» (normalizeIndexText u value) }
  | "domain" => do
      let domain ← normalizeDomainValue u (← requireValue "domain" value)
      return { parsed with domains := pushValue parsed.domains domain }
  | "type" => do
      let jevClass ← parseJevClass u (← requireValue "type" value)
      return { parsed with types := pushValue parsed.types jevClass }
  | "before" => do
      let date ← parseDateBoundary (← requireValue "before" value)
      return { parsed with before := some date }
  | "after" => do
      let date ← parseDateBoundary (← requireValue "after" value)
      return { parsed with after := some date }
  | "is" => do
      let value ← requireValue "is" value
      applyIsOperator parsed value
  | "has" => do
      let required ← requireValue "has" value
      if toLowerCase required ≠ "attachment" then
        throw (invalidQuery (s!"Unknown operator \"has:{value}\". This version defines " ++
          "has:attachment only."))
      return { parsed with hasAttachment := true }
  | _ => .error (invalidQuery
      s!"Unknown operator \"{operator}:\". Quote the text to search for it literally.")

/-- Read one token: apply an operator, or add to the free text. A quoted span keeps its quotes. -/
def readToken (u : Unicode) (read : ParsedSearchQuery × List String) (found : TokenMatch) :
    Except SearchError (ParsedSearchQuery × List String) :=
  let apply (operator value : List Char) := do
    let parsed ← applyOperator u read.1 (toLowerCase (String.ofList operator)) (String.ofList value)
    return (parsed, read.2)
  match found.token with
  | .quotedOperator operator value => apply operator value
  | .plainOperator operator value => apply operator value
  | .quotedText text =>
      if text = [] then .ok read
      else
        let phrase := normalizeIndexText u (String.ofList text)
        .ok (read.1, read.2 ++ [s!"\"{phrase}\""])
  | .plainText text => .ok (read.1, read.2 ++ [normalizeIndexText u (String.ofList text)])

/-- Read tokens one after the other. -/
def readTokens (u : Unicode) : ParsedSearchQuery × List String → List TokenMatch →
    Except SearchError (ParsedSearchQuery × List String)
  | read, [] => .ok read
  | read, found :: rest => do readTokens u (← readToken u read found) rest

/-- Parse one query string. -/
def parseSearchQuery (u : Unicode) (raw : String) : Except SearchError ParsedSearchQuery := do
  if raw.toList.count '"' % 2 = 1 then
    throw (invalidQuery "A double quote is missing its closing quote.")
  let (parsed, freeText) ← readTokens u (emptyQuery, []) (matchAll 0 0 raw.toList)
  return { parsed with text := normalizeIndexText u (" ".intercalate freeText) }

end MailHub.Search
