import Mathlib.Algebra.GroupWithZero.Nat
import Mathlib.Data.List.Dedup
import Mathlib.Data.List.Basic

/-!
# Text

The string operations of the code's own language that the services use, on the characters of a
string, and the extraction of message identifiers from a raw header value.
-/

namespace MailHub

/-! ## Strings -/

/-- White space as `trim` and the pattern class `\s` know it. -/
def isSpace (c : Char) : Bool :=
  (0x09 ≤ c.val && c.val ≤ 0x0D) || c.val == 0x20 || c.val == 0xA0 || c.val == 0x1680 ||
    (0x2000 ≤ c.val && c.val ≤ 0x200A) || c.val == 0x2028 || c.val == 0x2029 ||
    c.val == 0x202F || c.val == 0x205F || c.val == 0x3000 || c.val == 0xFEFF

/-- Control characters: `[\x00-\x1f\x7f-\x9f]`. -/
def isControl (c : Char) : Bool := c.val ≤ 0x1F || (0x7F ≤ c.val && c.val ≤ 0x9F)

/-- The string without white space at both ends. -/
def trim (s : String) : String :=
  String.ofList ((s.toList.dropWhile isSpace).reverse.dropWhile isSpace).reverse

/-- The characters of a trimmed text. -/
def trimChars (cs : List Char) : List Char :=
  ((cs.dropWhile isSpace).reverse.dropWhile isSpace).reverse

theorem trim_ofList (cs : List Char) : trim (String.ofList cs) = String.ofList (trimChars cs) := by
  unfold trim trimChars
  rw [String.toList_ofList]

/-- Trimming keeps characters of the text only. -/
theorem mem_of_mem_trimChars {c : Char} {cs : List Char} (h : c ∈ trimChars cs) : c ∈ cs := by
  unfold trimChars at h
  have hrev : c ∈ (cs.dropWhile isSpace).reverse :=
    (List.dropWhile_sublist isSpace).subset (List.mem_reverse.mp h)
  exact (List.dropWhile_sublist isSpace).subset (List.mem_reverse.mp hrev)

/-- The length in UTF-16 code units. -/
def textLength (s : String) : ℕ :=
  (s.toList.map fun c => if c.val < 0x10000 then 1 else 2).sum

/-- Lower case of the characters whose lower case is a single ASCII character: the ASCII capitals
and the Kelvin sign. -/
def lowerChar (c : Char) : Char := if c.val == 0x212A then 'k' else c.toLower

/-- Lower case, as far as a pattern of ASCII characters can tell. -/
def toLowerCase (s : String) : String := String.ofList (s.toList.map lowerChar)

/-- The pieces of a list between the separators. -/
def splitList (sep : Char) : List Char → List (List Char)
  | [] => [[]]
  | c :: cs =>
      if c = sep then [] :: splitList sep cs
      else match splitList sep cs with
        | [] => [[c]]
        | piece :: rest => (c :: piece) :: rest

theorem splitList_ne_nil (sep : Char) (cs : List Char) : splitList sep cs ≠ [] := by
  cases cs with
  | nil => simp [splitList]
  | cons c cs =>
      rw [splitList]
      split
      · simp
      · split <;> simp

/-- A text of one piece is that piece. -/
theorem eq_of_splitList_single {sep : Char} {cs piece : List Char}
    (h : splitList sep cs = [piece]) : cs = piece := by
  induction cs generalizing piece with
  | nil => simpa [splitList] using h
  | cons c cs ih =>
      rw [splitList] at h
      split at h
      next => simp [splitList_ne_nil] at h
      next =>
        split at h
        next hnil => exact absurd hnil (splitList_ne_nil sep cs)
        next first rest hsplit =>
          obtain ⟨rfl, rfl⟩ := List.cons.inj h
          rw [ih hsplit]

/-- A text of two pieces has the separator between them. -/
theorem eq_of_splitList_pair {sep : Char} {cs front back : List Char}
    (h : splitList sep cs = [front, back]) : cs = front ++ sep :: back := by
  induction cs generalizing front with
  | nil => simp [splitList] at h
  | cons c cs ih =>
      rw [splitList] at h
      split at h
      next hc =>
        obtain ⟨rfl, hback⟩ := List.cons.inj h
        rw [hc, eq_of_splitList_single hback, List.nil_append]
      next =>
        split at h
        next hnil => exact absurd hnil (splitList_ne_nil sep cs)
        next first rest hsplit =>
          obtain ⟨rfl, rfl⟩ := List.cons.inj h
          rw [ih hsplit, List.cons_append]

/-- A character of a split list is the separator or stands in a piece. -/
theorem mem_of_splitList (sep : Char) {c : Char} {cs : List Char} (h : c ∈ cs) :
    c = sep ∨ ∃ piece ∈ splitList sep cs, c ∈ piece := by
  induction cs with
  | nil => simp at h
  | cons d cs ih =>
      rw [splitList]
      by_cases hsep : d = sep
      · rw [if_pos hsep]
        rcases List.mem_cons.mp h with rfl | hmem
        · exact .inl hsep
        · rcases ih hmem with hc | ⟨piece, hpiece, hc⟩
          · exact .inl hc
          · exact .inr ⟨piece, List.mem_cons_of_mem _ hpiece, hc⟩
      · rw [if_neg hsep]
        split
        next hnil =>
          rw [hnil] at ih
          rcases List.mem_cons.mp h with rfl | hmem
          · exact .inr ⟨[c], List.mem_cons_self, List.mem_cons_self⟩
          · rcases ih hmem with hc | ⟨piece, hpiece, -⟩
            · exact .inl hc
            · simp at hpiece
        next piece rest hpieces =>
          rw [hpieces] at ih
          rcases List.mem_cons.mp h with rfl | hmem
          · exact .inr ⟨c :: piece, List.mem_cons_self, List.mem_cons_self⟩
          · rcases ih hmem with hc | ⟨piece', hpiece, hc⟩
            · exact .inl hc
            · rcases List.mem_cons.mp hpiece with rfl | hrest
              · exact .inr ⟨d :: piece', List.mem_cons_self, List.mem_cons_of_mem _ hc⟩
              · exact .inr ⟨piece', List.mem_cons_of_mem _ hrest, hc⟩

/-- The pieces of a string between the separators. -/
def split (sep : Char) (s : String) : List String := (splitList sep s.toList).map String.ofList

/-- The bytes of a string. -/
def utf8 (s : String) : List UInt8 := s.toList.flatMap String.utf8EncodeChar

/-! ## Message identifiers -/

/-- The characters between the brackets of a message identifier: `[^\s<>]`. -/
def isIdentifierChar (c : Char) : Bool := !isSpace c && c ≠ '<' && c ≠ '>'

/-- The identifier that an opening bracket in front of these characters starts, if any. -/
def identifierAfterBracket (cs : List Char) : Option String :=
  let run := cs.takeWhile isIdentifierChar
  if run ≠ [] ∧ (cs.dropWhile isIdentifierChar).head? = some '>' then
    some (String.ofList ('<' :: run ++ ['>']))
  else none

/-- All matches of `<[^\s<>]+>`, in order. Two matches cannot overlap, because no bracket stands
inside one. -/
def identifierMatches : List Char → List String
  | [] => []
  | c :: cs =>
      if c = '<' then (identifierAfterBracket cs).toList ++ identifierMatches cs
      else identifierMatches cs

/-- The first occurrences of a list, in order. -/
def firstOccurrences (ids : List String) : List String :=
  ids.foldl (fun seen id => if id ∈ seen then seen else seen ++ [id]) []

/-- The identifiers of one raw header value, in order, deduplicated. -/
def extractMessageIds : Option String → List String
  | none => []
  | some raw => firstOccurrences (identifierMatches raw.toList)

example : extractMessageIds (some "<(note) <a@x>> <a@x><b>") = ["<a@x>", "<b>"] := by decide

/-- A bracketed run of identifier characters: the texts that `<[^\s<>]+>` matches as a whole. -/
def IsIdentifier (cs : List Char) : Prop :=
  ∃ run, run ≠ [] ∧ (∀ c ∈ run, isIdentifierChar c = true) ∧ cs = '<' :: (run ++ ['>'])

/-- An identifier is found after a bracket exactly when the text goes on with its run and the
closing bracket. -/
theorem identifierAfterBracket_eq_some_iff {cs : List Char} {identifier : String} :
    identifierAfterBracket cs = some identifier ↔
      IsIdentifier identifier.toList ∧ identifier.toList <+: '<' :: cs := by
  constructor
  · intro h
    unfold identifierAfterBracket at h
    dsimp only at h
    split at h
    next hrun =>
      obtain ⟨rest, hrest⟩ := List.head?_eq_some_iff.mp hrun.2
      have hcs : cs.takeWhile isIdentifierChar ++ '>' :: rest = cs := by
        rw [← hrest, List.takeWhile_append_dropWhile]
      obtain rfl := Option.some.inj h
      rw [String.toList_ofList]
      refine ⟨⟨_, hrun.1, List.all_eq_true.mp List.all_takeWhile, rfl⟩, rest, ?_⟩
      conv_rhs => rw [← hcs]
      simp
    next => cases h
  · rintro ⟨⟨run, hne, hall, hidentifier⟩, rest, hprefix⟩
    have hcs : cs = run ++ '>' :: rest := by
      rw [hidentifier] at hprefix
      simpa using hprefix.symm
    have hstop : isIdentifierChar '>' = false := by decide
    have htake : cs.takeWhile isIdentifierChar = run := by
      rw [hcs, List.takeWhile_append_of_pos hall, List.takeWhile_cons, hstop]
      simp
    have hdrop : cs.dropWhile isIdentifierChar = '>' :: rest := by
      rw [hcs, List.dropWhile_append_of_pos hall, List.dropWhile_cons, hstop]
      simp
    unfold identifierAfterBracket
    dsimp only
    rw [htake, hdrop, if_pos ⟨hne, rfl⟩, List.cons_append, ← hidentifier, String.ofList_toList]

/-- The scan finds exactly the identifiers that stand somewhere in the text. -/
theorem mem_identifierMatches_iff {cs : List Char} {identifier : String} :
    identifier ∈ identifierMatches cs ↔
      IsIdentifier identifier.toList ∧ identifier.toList <:+: cs := by
  induction cs with
  | nil =>
      constructor
      · intro h
        cases h
      · rintro ⟨⟨run, -, -, hidentifier⟩, hinfix⟩
        rw [hidentifier] at hinfix
        exact absurd (List.infix_nil.mp hinfix) nofun
  | cons c cs ih =>
      rw [identifierMatches, List.infix_cons_iff]
      by_cases hc : c = '<'
      · subst hc
        rw [if_pos rfl, List.mem_append, Option.mem_toList, ih,
          identifierAfterBracket_eq_some_iff, ← and_or_left]
      · rw [if_neg hc, ih]
        constructor
        · rintro ⟨hbracketed, hinfix⟩
          exact ⟨hbracketed, .inr hinfix⟩
        · rintro ⟨⟨run, hne, hall, hidentifier⟩, hprefix | hinfix⟩
          · rw [hidentifier] at hprefix
            exact absurd (List.cons_prefix_cons.mp hprefix).1.symm hc
          · exact ⟨⟨run, hne, hall, hidentifier⟩, hinfix⟩

/-- Removing repetitions neither adds nor loses an element. -/
theorem mem_firstOccurrences {ids : List String} {id : String} :
    id ∈ firstOccurrences ids ↔ id ∈ ids := by
  have hfold : ∀ seen,
      id ∈ ids.foldl (fun seen id => if id ∈ seen then seen else seen ++ [id]) seen ↔
        id ∈ seen ∨ id ∈ ids := by
    induction ids with
    | nil => simp
    | cons first rest ih =>
        intro seen
        rw [List.foldl_cons, ih]
        by_cases hfirst : first ∈ seen
        · rw [if_pos hfirst, List.mem_cons]
          constructor
          · rintro (hseen | hrest)
            · exact .inl hseen
            · exact .inr (.inr hrest)
          · rintro (hseen | rfl | hrest)
            · exact .inl hseen
            · exact .inl hfirst
            · exact .inr hrest
        · rw [if_neg hfirst, List.mem_append, List.mem_singleton, List.mem_cons, or_assoc]
  have hids := hfold []
  simp only [List.not_mem_nil, false_or] at hids
  exact hids

/-- A raw value names exactly the identifiers that stand in it. -/
theorem mem_extractMessageIds_iff {raw : String} {identifier : String} :
    identifier ∈ extractMessageIds (some raw) ↔
      IsIdentifier identifier.toList ∧ identifier.toList <:+: raw.toList :=
  mem_firstOccurrences.trans mem_identifierMatches_iff

/-- An identifier has its brackets, so it is not empty. -/
theorem IsIdentifier.ne_empty {identifier : String} (h : IsIdentifier identifier.toList) :
    identifier ≠ "" := by
  rintro rfl
  obtain ⟨run, -, -, hrun⟩ := h
  exact absurd hrun nofun

end MailHub
