import Mathlib.Data.List.Basic
import Mathlib.Data.List.Infix

/-!
# The LIKE operator

Pattern matching of SQL on lists of characters: `%` stands for any text, `_` for one character, and
a backslash takes the next character literally. The main results are that the patterns `%word%` and
`%word` with the wildcards of the word escaped match exactly the texts that contain the word, and
that end with it.
-/

namespace Relational

/-- Whether a text matches a pattern; a pattern that ends in a backslash matches nothing. -/
def like : List Char → List Char → Bool
  | [], text => text.isEmpty
  | '%' :: pattern, text => text.tails.any fun rest => like pattern rest
  | '_' :: _, [] => false
  | '_' :: pattern, _ :: text => like pattern text
  | '\\' :: [], _ => false
  | '\\' :: _ :: _, [] => false
  | '\\' :: c :: pattern, d :: text => c == d && like pattern text
  | _ :: _, [] => false
  | c :: pattern, d :: text => c == d && like pattern text

/-- Whether a character means something to the operator. -/
def isWildcard (c : Char) : Bool := c == '\\' || c == '%' || c == '_'

/-- Keep the wildcards of a word literal. -/
def escapeLikeWildcards (word : List Char) : List Char :=
  word.flatMap fun c => if isWildcard c then ['\\', c] else [c]

/-- A word in front of a pattern matches when the text starts with it and the rest matches. -/
theorem like_escape_append {word pattern text : List Char} :
    like (escapeLikeWildcards word ++ pattern) text = true ↔
      ∃ rest, text = word ++ rest ∧ like pattern rest = true := by
  induction word generalizing text with
  | nil => simp [escapeLikeWildcards]
  | cons c word ih =>
      have hstep : ∀ d rest, like (escapeLikeWildcards (c :: word) ++ pattern) (d :: rest) =
          (c == d && like (escapeLikeWildcards word ++ pattern) rest) := by
        intro d rest
        by_cases hc : isWildcard c
        · simp [escapeLikeWildcards, hc, like]
        · simp only [isWildcard, Bool.or_eq_true, beq_iff_eq, not_or] at hc
          simp [escapeLikeWildcards, isWildcard, hc, like]
      cases text with
      | nil =>
          by_cases hc : isWildcard c
          · simp [escapeLikeWildcards, hc, like]
          · simp only [isWildcard, Bool.or_eq_true, beq_iff_eq, not_or] at hc
            simp [escapeLikeWildcards, isWildcard, hc, like]
      | cons d rest =>
          rw [hstep, Bool.and_eq_true, beq_iff_eq, ih]
          constructor
          · rintro ⟨rfl, tail, rfl, h⟩
            exact ⟨tail, rfl, h⟩
          · rintro ⟨tail, ht, h⟩
            obtain ⟨rfl, rfl⟩ := List.cons.inj ht
            exact ⟨rfl, tail, rfl, h⟩

/-- A final `%` matches any text. -/
theorem like_percent (text : List Char) : like ['%'] text = true := by
  simp only [like, List.any_eq_true, List.mem_tails]
  exact ⟨[], List.nil_suffix, rfl⟩

/-- The pattern `%word%` with escaped wildcards matches the texts that contain the word. -/
theorem like_contains {word text : List Char} :
    like ('%' :: (escapeLikeWildcards word ++ ['%'])) text = true ↔ word <:+: text := by
  rw [like, List.any_eq_true]
  constructor
  · rintro ⟨rest, hrest, h⟩
    obtain ⟨tail, rfl, -⟩ := like_escape_append.mp h
    obtain ⟨front, rfl⟩ := (List.mem_tails _ _).mp hrest
    exact ⟨front, tail, by simp⟩
  · rintro ⟨front, tail, rfl⟩
    exact ⟨word ++ tail, (List.mem_tails _ _).mpr ⟨front, by simp⟩,
      like_escape_append.mpr ⟨tail, rfl, like_percent tail⟩⟩

/-- The pattern `%word` with escaped wildcards matches the texts that end with the word. -/
theorem like_suffix {word text : List Char} :
    like ('%' :: escapeLikeWildcards word) text = true ↔ word <:+ text := by
  have hempty : ∀ rest, like [] rest = true ↔ rest = [] := by
    intro rest
    cases rest <;> simp [like]
  have hword : ∀ rest, like (escapeLikeWildcards word) rest = true ↔ rest = word := by
    intro rest
    have happend : like (escapeLikeWildcards word ++ []) rest = true ↔
        ∃ tail, rest = word ++ tail ∧ like [] tail = true := like_escape_append
    simp only [List.append_nil, hempty] at happend
    rw [happend]
    constructor
    · rintro ⟨tail, rfl, rfl⟩
      exact List.append_nil word
    · rintro rfl
      exact ⟨[], (List.append_nil _).symm, rfl⟩
  rw [like, List.any_eq_true]
  constructor
  · rintro ⟨rest, hrest, h⟩
    obtain rfl := (hword rest).mp h
    exact (List.mem_tails _ _).mp hrest
  · intro h
    exact ⟨word, (List.mem_tails _ _).mpr h, (hword word).mpr rfl⟩

/-- Escaping goes piece by piece. -/
theorem escapeLikeWildcards_append (word rest : List Char) :
    escapeLikeWildcards (word ++ rest) = escapeLikeWildcards word ++ escapeLikeWildcards rest := by
  unfold escapeLikeWildcards
  rw [List.flatMap_append]

/-- A word without wildcards is its own escape. -/
theorem escapeLikeWildcards_plain {word : List Char} (h : ∀ c ∈ word, isWildcard c = false) :
    escapeLikeWildcards word = word := by
  induction word with
  | nil => rfl
  | cons c word ih =>
      have hc : isWildcard c = false := h c List.mem_cons_self
      have hword := ih fun d hd => h d (List.mem_cons_of_mem c hd)
      unfold escapeLikeWildcards at hword ⊢
      rw [List.flatMap_cons, hword]
      simp [hc]

end Relational
