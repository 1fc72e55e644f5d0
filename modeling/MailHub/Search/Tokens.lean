import MailHub.Search.Query
import Mathlib.Data.List.TakeWhile

/-!
# Tokens and quotes

Acceptance of a query counts its quotes, while the pattern cuts it into tokens. Both views of the
quotes agree exactly when no plain operator value swallows an odd number of them: then every
character outside white space lies in one token, and every quoted span lies inside a token.
-/

namespace MailHub.Search

/-! ## Positions -/

/-- A token takes up a position of the query. -/
def TokenMatch.Covers (found : TokenMatch) (i : ℕ) : Prop :=
  found.index ≤ i ∧ i < found.index + found.token.chars.length

/-- The number of quotes is even. -/
def EvenQuotes (cs : List Char) : Prop := cs.count '"' % 2 = 0

/-- Pairing the quotes from left to right, position `i` opens a span that position `j` closes. -/
def QuotedSpan (cs : List Char) (i j : ℕ) : Prop :=
  ∃ front text rest, cs = front ++ '"' :: (text ++ '"' :: rest) ∧ EvenQuotes front ∧
    '"' ∉ text ∧ i = front.length ∧ j = front.length + text.length + 1

/-- Every character outside white space belongs to exactly one token, and every quoted span lies
inside a single token. -/
structure ReadsFaithfully (raw : String) : Prop where
  covered : ∀ i c, raw.toList[i]? = some c → isSpace c = false →
    ∃! found, found ∈ matchAll 0 0 raw.toList ∧ found.Covers i
  quoted : ∀ i j, QuotedSpan raw.toList i j →
    ∃ found ∈ matchAll 0 0 raw.toList, ∀ k, i ≤ k → k ≤ j → found.Covers k

/-- The characters that a token can follow directly: white space and quotes. -/
def isBreak (c : Char) : Bool := isSpace c || c == '"'

/-- Outside the quoted spans, no operator stands at the start of the query, after white space or
after a closing quote whose value starts with another character than a quote and holds an odd number
of quotes up to the next white space. -/
def OperatorsCloseQuotes (cs : List Char) : Prop :=
  ∀ front operator value rest : List Char, cs = front ++ operator ++ ':' :: value ++ rest →
    EvenQuotes front → (∀ c ∈ front.getLast?, isBreak c = true) →
    operator ≠ [] → (∀ c ∈ operator, isLetter c = true) →
    value.head? ≠ some '"' → (∀ c ∈ value, isSpace c = false) → AtBoundary rest → EvenQuotes value

/-! ## What one token reads -/

/-- What the pattern says of a token and of the text behind it. -/
def Token.Reads (rest : List Char) : Token → Prop
  | quotedOperator operator value =>
      operator ≠ [] ∧ (∀ c ∈ operator, isLetter c = true) ∧ '"' ∉ value
  | plainOperator operator value =>
      operator ≠ [] ∧ (∀ c ∈ operator, isLetter c = true) ∧ (∀ c ∈ value, isSpace c = false) ∧
        AtBoundary rest ∧ quotedAt (value ++ rest) = none
  | quotedText text => '"' ∉ text
  | plainText text =>
      text ≠ [] ∧ (∀ c ∈ text, isBreak c = false) ∧ ∀ c ∈ rest.head?, isBreak c = true

theorem isLetter_not_break {c : Char} (h : isLetter c = true) : isBreak c = false := by
  have hall : ∀ n < 128, isLetter (Char.ofNat n) = true → isBreak (Char.ofNat n) = false := by
    decide +kernel
  have hascii : c.toNat < 128 := by
    unfold isLetter at h
    simp only [Bool.or_eq_true, Bool.and_eq_true, decide_eq_true_eq, Char.le_def,
      UInt32.le_iff_toNat_le] at h
    have hz : 'z'.val.toNat < 128 := by decide
    have hZ : 'Z'.val.toNat < 128 := by decide
    have hval : c.toNat = c.val.toNat := rfl
    omega
  have hc := hall c.toNat hascii
  rw [Char.ofNat_toNat] at hc
  exact hc h

/-- A quoted span at the start of a text. -/
theorem quotedAt_eq_some {cs text : List Char} (h : quotedAt cs = some text) :
    ∃ rest, cs = '"' :: text ++ '"' :: rest ∧ '"' ∉ text := by
  unfold quotedAt at h
  split at h
  next tail =>
    split at h
    next hmem =>
      obtain rfl : tail.takeWhile (· ≠ '"') = text := Option.some.inj h
      have hsplit := List.takeWhile_append_dropWhile (p := fun c => decide (c ≠ '"')) (l := tail)
      cases hdrop : tail.dropWhile (· ≠ '"') with
      | nil =>
          have hall := List.dropWhile_eq_nil_iff.mp hdrop '"' hmem
          simp at hall
      | cons d rest =>
          have hd := List.head?_dropWhile_not (fun c => decide (c ≠ '"')) tail
          rw [hdrop] at hd hsplit
          obtain rfl : d = '"' := by simpa using hd
          refine ⟨rest, by rw [List.cons_append, hsplit], fun hin => ?_⟩
          have := List.all_eq_true.mp List.all_takeWhile '"' hin
          simp at this
    next => simp at h
  next => simp at h

theorem quotedAt_eq_none {cs : List Char} (h : quotedAt ('"' :: cs) = none) : '"' ∉ cs := by
  intro hmem
  simp [quotedAt, hmem] at h

/-- An operator name stands in front of its colon, and conversely. -/
theorem operatorAt_eq_some {cs operator rest : List Char} :
    operatorAt cs = some (operator, rest) ↔
      cs = operator ++ ':' :: rest ∧ operator ≠ [] ∧ ∀ c ∈ operator, isLetter c = true := by
  constructor
  · intro h
    have hsplit := List.takeWhile_append_dropWhile (p := isLetter) (l := cs)
    have hletters : ∀ c ∈ cs.takeWhile isLetter, isLetter c = true :=
      List.all_eq_true.mp List.all_takeWhile
    unfold operatorAt at h
    split at h
    next => simp at h
    next tail hdrop hne =>
      obtain ⟨rfl, rfl⟩ : cs.takeWhile isLetter = operator ∧ tail = rest := by simpa using h
      rw [hdrop] at hsplit
      exact ⟨hsplit.symm, hne, hletters⟩
    next => simp at h
  · rintro ⟨rfl, hne, hletters⟩
    have htake : (operator ++ ':' :: rest).takeWhile isLetter = operator := by
      rw [List.takeWhile_append_of_pos hletters, List.takeWhile_cons_of_neg (by decide),
        List.append_nil]
    have hdrop : (operator ++ ':' :: rest).dropWhile isLetter = ':' :: rest := by
      rw [List.dropWhile_append_of_pos hletters, List.dropWhile_cons_of_neg (by decide)]
    unfold operatorAt
    rw [htake, hdrop]
    cases operator with
    | nil => exact absurd rfl hne
    | cons c operator => rfl

/-- What a run of matching characters leaves behind starts with another character. -/
theorem head_of_dropWhile {p : Char → Bool} (cs : List Char) :
    ∀ c ∈ (cs.dropWhile p).head?, p c = false := by
  intro c hc
  have hnot := List.head?_dropWhile_not p cs
  rw [Option.mem_def.mp hc] at hnot
  simpa using hnot

/-- The pattern takes a token from the start of the text. -/
theorem tokenAt_eq_some {cs : List Char} {token : Token} (h : tokenAt cs = some token) :
    ∃ rest, cs = token.chars ++ rest ∧ token.Reads rest := by
  unfold tokenAt at h
  split at h
  next operator rest hoperator =>
    obtain ⟨rfl, hne, hletters⟩ := operatorAt_eq_some.mp hoperator
    split at h
    next value hvalue =>
      obtain rfl := Option.some.inj h
      obtain ⟨tail, rfl, hquote⟩ := quotedAt_eq_some hvalue
      exact ⟨tail, by simp [Token.chars], hne, hletters, hquote⟩
    next hvalue =>
      obtain rfl := Option.some.inj h
      have hsplit := List.takeWhile_append_dropWhile (p := fun c => !isSpace c) (l := rest)
      refine ⟨rest.dropWhile fun c => !isSpace c, ?_, hne, hletters, fun c hc => ?_,
        fun c hc => ?_, ?_⟩
      · unfold Token.chars
        rw [List.append_assoc, List.cons_append, hsplit]
      · simpa using List.all_eq_true.mp List.all_takeWhile c hc
      · simpa using head_of_dropWhile rest c hc
      · rwa [hsplit]
  next =>
    split at h
    next text htext =>
      obtain rfl := Option.some.inj h
      obtain ⟨tail, rfl, hquote⟩ := quotedAt_eq_some htext
      exact ⟨tail, by simp [Token.chars], hquote⟩
    next =>
      split at h
      next => simp at h
      next text hne =>
        obtain rfl := Option.some.inj h
        have hsplit :=
          List.takeWhile_append_dropWhile (p := fun c => !isSpace c && c ≠ '"') (l := cs)
        refine ⟨cs.dropWhile fun c => !isSpace c && c ≠ '"', hsplit.symm, hne, fun c hc => ?_,
          fun c hc => ?_⟩
        · have hchar := List.all_eq_true.mp List.all_takeWhile c hc
          simpa [isBreak] using hchar
        · have hchar := head_of_dropWhile cs c hc
          simpa [isBreak, imp_iff_not_or] using hchar

/-- The pattern matches nowhere but at white space and at a quote without a closing one. -/
theorem tokenAt_eq_none {c : Char} {cs : List Char} (h : tokenAt (c :: cs) = none) :
    isSpace c = true ∨ (c = '"' ∧ '"' ∉ cs) := by
  unfold tokenAt at h
  split at h
  next =>
    split at h <;> simp at h
  next =>
    split at h
    next => simp at h
    next hquoted =>
      split at h
      next hrun =>
        by_cases hc : isSpace c = true
        · exact .inl hc
        · have hq : c = '"' := by
            by_contra hne
            simp [hc, hne] at hrun
          subst hq
          exact .inr ⟨rfl, quotedAt_eq_none hquoted⟩
      next => simp at h

/-! ## Scanning a query -/

/-- How the pattern goes through a text that stands at position `i`: it takes tokens, and skips the
characters where it does not match. -/
inductive Scan : ℕ → List Char → List TokenMatch → Prop
  | nil (i : ℕ) : Scan i [] []
  | token {i : ℕ} {cs rest : List Char} {token : Token} {found : List TokenMatch}
      (hat : tokenAt cs = some token) (hcs : cs = token.chars ++ rest) (hreads : token.Reads rest)
      (hrest : Scan (i + token.chars.length) rest found) : Scan i cs (⟨i, token⟩ :: found)
  | skip {i : ℕ} {c : Char} {cs : List Char} {found : List TokenMatch}
      (hskip : isSpace c = true ∨ (c = '"' ∧ '"' ∉ cs)) (hrest : Scan (i + 1) cs found) :
      Scan i (c :: cs) found

theorem matchAll_skip (skip i : ℕ) (cs : List Char) :
    matchAll skip i cs = matchAll 0 (i + skip) (cs.drop skip) := by
  induction cs generalizing skip i with
  | nil => simp [matchAll]
  | cons c cs ih =>
      cases skip with
      | zero => rfl
      | succ skip =>
          have hindex : i + 1 + skip = i + (skip + 1) := by omega
          rw [matchAll, ih skip (i + 1), List.drop_succ_cons, hindex]

/-- Every token takes up a character. -/
theorem Token.Reads.length_pos {token : Token} {rest : List Char} (h : token.Reads rest) :
    0 < token.chars.length := by
  cases token with
  | quotedOperator operator value =>
      unfold chars
      rw [List.length_append, List.length_append, List.length_cons]
      omega
  | plainOperator operator value =>
      unfold chars
      rw [List.length_append, List.length_cons]
      omega
  | quotedText text => simp [chars]
  | plainText text => exact List.length_pos_of_ne_nil h.1

/-- The matches of the pattern come from a scan. -/
theorem scan_matchAll (i : ℕ) (cs : List Char) : Scan i cs (matchAll 0 i cs) := by
  induction hlength : cs.length using Nat.strong_induction_on generalizing i cs with
  | _ n ih =>
      cases cs with
      | nil => exact .nil i
      | cons c cs =>
          rw [matchAll]
          cases hat : tokenAt (c :: cs) with
          | none => exact .skip (tokenAt_eq_none hat) (ih cs.length (by simp [← hlength]) _ _ rfl)
          | some token =>
              obtain ⟨rest, hcs, hreads⟩ := tokenAt_eq_some hat
              have hpos := hreads.length_pos
              have hsum := congrArg List.length hcs
              rw [List.length_append, List.length_cons] at hsum
              have hdrop : cs.drop (token.chars.length - 1) = rest := by
                have hall : (c :: cs).drop token.chars.length = rest := by
                  rw [hcs, List.drop_left]
                obtain ⟨k, hk⟩ : ∃ k, token.chars.length = k + 1 :=
                  Nat.exists_eq_add_one.mpr hpos
                rw [hk, List.drop_succ_cons] at hall
                rw [hk, Nat.add_sub_cancel]
                exact hall
              have hindex : i + 1 + (token.chars.length - 1) = i + token.chars.length := by omega
              have hshort : rest.length < n := by
                rw [← hlength, List.length_cons]
                omega
              refine .token hat hcs hreads ?_
              rw [matchAll_skip, hdrop, hindex]
              exact ih rest.length hshort _ _ rfl

/-- Nothing is found in an empty text. -/
theorem Scan.of_nil {i : ℕ} {found : List TokenMatch} (h : Scan i [] found) : found = [] := by
  cases h with
  | nil => rfl
  | token hat hcs hreads hrest =>
      have hlength := congrArg List.length hcs
      have hpos := hreads.length_pos
      rw [List.length_append, List.length_nil] at hlength
      omega

/-! ## Tokens and quotes -/

/-- The matches that hold an even number of quotes each. -/
def TokensEven (found : List TokenMatch) : Prop := ∀ m ∈ found, EvenQuotes m.token.chars

/-- The tokens of a scan stand one behind the other. -/
theorem Scan.index_le {i : ℕ} {cs : List Char} {found : List TokenMatch} (h : Scan i cs found) :
    ∀ m ∈ found, i ≤ m.index := by
  induction h with
  | nil i => simp
  | token hat hcs hreads hrest ih =>
      intro m hm
      rcases List.mem_cons.mp hm with rfl | hmem
      · exact le_refl _
      · have := ih m hmem
        omega
  | skip hskip hrest ih =>
      intro m hm
      have := ih m hm
      omega

/-- A position lies in one token of a scan at most. -/
theorem Scan.unique {i : ℕ} {cs : List Char} {found : List TokenMatch} (h : Scan i cs found)
    {k : ℕ} {m m' : TokenMatch} (hm : m ∈ found) (hm' : m' ∈ found) (hk : m.Covers k)
    (hk' : m'.Covers k) : m = m' := by
  unfold TokenMatch.Covers at hk hk'
  induction h with
  | nil i => simp at hm
  | token hat hcs hreads hrest ih =>
      rcases List.mem_cons.mp hm with rfl | hmem <;> rcases List.mem_cons.mp hm' with rfl | hmem'
      · rfl
      · have := hrest.index_le m' hmem'
        simp only at hk
        omega
      · have := hrest.index_le m hmem
        simp only at hk'
        omega
      · exact ih hmem hmem'
  | skip hskip hrest ih => exact ih hm hm'

theorem evenQuotes_append {s t : List Char} (hs : EvenQuotes s) :
    EvenQuotes (s ++ t) ↔ EvenQuotes t := by
  unfold EvenQuotes at *
  rw [List.count_append]
  omega

/-- Where the quotes that are left are even, only white space is skipped. -/
theorem skip_isSpace {c : Char} {cs : List Char} (h : isSpace c = true ∨ (c = '"' ∧ '"' ∉ cs))
    (heven : EvenQuotes (c :: cs)) : isSpace c = true ∧ EvenQuotes [c] := by
  rcases h with hspace | ⟨rfl, hnone⟩
  · refine ⟨hspace, ?_⟩
    have hne : c ≠ '"' := by
      rintro rfl
      exact absurd hspace (by decide)
    simp [EvenQuotes, hne]
  · unfold EvenQuotes at heven
    rw [List.count_cons_self, List.count_eq_zero.mpr hnone] at heven
    omega

/-- Every quoted span of a text at position `i` lies inside a token. -/
def SpansInside (i : ℕ) (cs : List Char) (found : List TokenMatch) : Prop :=
  ∀ front text rest, cs = front ++ '"' :: (text ++ '"' :: rest) → EvenQuotes front → '"' ∉ text →
    ∃ m ∈ found, m.Covers (i + front.length) ∧ m.Covers (i + front.length + text.length + 1)

/-- When every token holds an even number of quotes, every quoted span lies inside one. -/
theorem Scan.spansInside {i : ℕ} {cs : List Char} {found : List TokenMatch} (h : Scan i cs found)
    (htokens : TokensEven found) (heven : EvenQuotes cs) : SpansInside i cs found := by
  induction h with
  | nil i =>
      intro front text rest hcs
      simp at hcs
  | @token i cs tail token found hat hcs hreads hrest ih =>
      intro front text rest hspan hfront htext
      have htoken : EvenQuotes token.chars := htokens _ List.mem_cons_self
      have htail : EvenQuotes tail := (evenQuotes_append htoken).mp (hcs ▸ heven)
      have hinside := ih (fun m hm => htokens m (List.mem_cons_of_mem _ hm)) htail
      rcases List.append_eq_append_iff.mp (hcs.symm.trans hspan) with
        ⟨front', rfl, htail'⟩ | ⟨y, hchars, hy⟩
      · obtain ⟨m, hm, hopen, hclose⟩ :=
          hinside front' text rest htail' ((evenQuotes_append htoken).mp hfront) htext
        refine ⟨m, List.mem_cons_of_mem _ hm, ?_, ?_⟩
        · rw [List.length_append, ← Nat.add_assoc]
          exact hopen
        · rw [List.length_append, ← Nat.add_assoc i]
          exact hclose
      · cases y with
        | nil =>
            rw [List.append_nil] at hchars
            obtain ⟨m, hm, hopen, hclose⟩ :=
              hinside [] text rest (by simpa using hy.symm) (by simp [EvenQuotes]) htext
            refine ⟨m, List.mem_cons_of_mem _ hm, ?_, ?_⟩
            · rw [← hchars]
              exact hopen
            · rw [← hchars]
              exact hclose
        | cons d y =>
            obtain ⟨rfl, hsame⟩ := List.cons.inj hy
            -- the token ends behind the closing quote, or it holds the opening one alone
            have hodd : '"' ∈ y := by
              by_contra hnone
              rw [hchars, evenQuotes_append hfront] at htoken
              unfold EvenQuotes at htoken
              rw [List.count_cons_self, List.count_eq_zero.mpr hnone] at htoken
              omega
            have hlong : text.length < y.length := by
              rcases List.append_eq_append_iff.mp hsame with ⟨z, rfl, -⟩ | ⟨z, rfl, hz⟩
              · cases z with
                | nil => simp [htext] at hodd
                | cons e z => simp
              · exact absurd (List.mem_append_left z hodd) htext
            have hlength : token.chars.length = front.length + (y.length + 1) := by
              rw [hchars, List.length_append, List.length_cons]
            refine ⟨_, List.mem_cons_self, ⟨?_, ?_⟩, ⟨?_, ?_⟩⟩ <;>
            · simp only [hlength]
              omega
  | @skip i c cs found hskip hrest ih =>
      intro front text rest hspan hfront htext
      obtain ⟨hspace, hc⟩ := skip_isSpace hskip heven
      have htail : EvenQuotes cs := (evenQuotes_append (s := [c]) hc).mp heven
      cases front with
      | nil =>
          obtain ⟨rfl, -⟩ := List.cons.inj hspan
          exact absurd hspace (by decide)
      | cons d front =>
          obtain ⟨rfl, hcs⟩ := List.cons.inj hspan
          obtain ⟨m, hm, hopen, hclose⟩ := ih htokens htail front text rest hcs
            ((evenQuotes_append (s := [c]) hc).mp hfront) htext
          have hindex : i + (c :: front).length = i + 1 + front.length := by
            rw [List.length_cons]
            omega
          rw [hindex]
          exact ⟨m, hm, hopen, hclose⟩

/-- A text holds its first quote somewhere. -/
theorem exists_first_quote {cs : List Char} (h : ¬ EvenQuotes cs) :
    ∃ front rest, cs = front ++ '"' :: rest ∧ '"' ∉ front := by
  have hmem : '"' ∈ cs := by
    by_contra hnone
    exact h (by simp [EvenQuotes, List.count_eq_zero.mpr hnone])
  exact List.eq_append_cons_of_mem hmem

/-- The last of an odd number of quotes opens a span. -/
theorem exists_last_quote {cs : List Char} (h : ¬ EvenQuotes cs) :
    ∃ front rest, cs = front ++ '"' :: rest ∧ EvenQuotes front ∧ '"' ∉ rest := by
  have hrev : ¬ EvenQuotes cs.reverse := by
    unfold EvenQuotes at h ⊢
    rwa [List.count_reverse]
  obtain ⟨rest, front, hcs, hrest⟩ := exists_first_quote hrev
  have hsplit : cs = front.reverse ++ '"' :: rest.reverse := by
    rw [← List.reverse_reverse cs, hcs]
    simp
  refine ⟨front.reverse, rest.reverse, hsplit, ?_, by simpa using hrest⟩
  have hzero : rest.reverse.count '"' = 0 := by
    rw [List.count_reverse]
    exact List.count_eq_zero.mpr hrest
  unfold EvenQuotes at h ⊢
  rw [hsplit, List.count_append, List.count_cons_self, hzero] at h
  omega

/-- When every quoted span lies inside a token, every token holds an even number of quotes. -/
theorem Scan.tokensEven {i : ℕ} {cs : List Char} {found : List TokenMatch} (h : Scan i cs found)
    (hspans : SpansInside i cs found) (heven : EvenQuotes cs) : TokensEven found := by
  induction h with
  | nil i =>
      intro m hm
      simp at hm
  | @token i cs tail token found hat hcs hreads hrest ih =>
      have htoken : EvenQuotes token.chars := by
        by_contra hodd
        obtain ⟨front, text, hchars, hfront, htext⟩ := exists_last_quote hodd
        have hoddTail : ¬ EvenQuotes tail := by
          intro htail
          unfold EvenQuotes at heven hodd htail
          rw [hcs, List.count_append] at heven
          omega
        obtain ⟨text', rest, rfl, htext'⟩ := exists_first_quote hoddTail
        have hspan : cs = front ++ '"' :: ((text ++ text') ++ '"' :: rest) := by
          rw [hcs, hchars]
          simp
        have hnone : '"' ∉ text ++ text' := by simp [htext, htext']
        obtain ⟨m, hm, hopen, hclose⟩ := hspans _ _ _ hspan hfront hnone
        have hlength : token.chars.length = front.length + (text.length + 1) := by
          rw [hchars, List.length_append, List.length_cons]
        have hboth : (text ++ text').length = text.length + text'.length := List.length_append
        rcases List.mem_cons.mp hm with rfl | hmem
        · have hend := hclose.2
          simp only [hlength] at hend
          omega
        · have hstart := hrest.index_le m hmem
          have hbegin := hopen.1
          omega
      have htail : EvenQuotes tail := (evenQuotes_append htoken).mp (hcs ▸ heven)
      have hinside : SpansInside (i + token.chars.length) tail found := by
        intro front text rest hspan hfront htext
        have hwhole : cs = (token.chars ++ front) ++ '"' :: (text ++ '"' :: rest) := by
          rw [hcs, hspan, List.append_assoc]
        obtain ⟨m, hm, hopen, hclose⟩ :=
          hspans _ _ _ hwhole ((evenQuotes_append htoken).mpr hfront) htext
        rw [List.length_append, ← Nat.add_assoc] at hopen hclose
        rcases List.mem_cons.mp hm with rfl | hmem
        · have hend := hopen.2
          simp only at hend
          omega
        · exact ⟨m, hmem, hopen, hclose⟩
      intro m hm
      rcases List.mem_cons.mp hm with rfl | hmem
      · exact htoken
      · exact ih hinside htail m hmem
  | @skip i c cs found hskip hrest ih =>
      obtain ⟨-, hc⟩ := skip_isSpace hskip heven
      have htail : EvenQuotes cs := (evenQuotes_append (s := [c]) hc).mp heven
      refine ih ?_ htail
      intro front text rest hspan hfront htext
      have hwhole : c :: cs = (c :: front) ++ '"' :: (text ++ '"' :: rest) := by
        rw [hspan, List.cons_append]
      obtain ⟨m, hm, hopen, hclose⟩ :=
        hspans _ _ _ hwhole ((evenQuotes_append (s := [c]) hc).mpr hfront) htext
      have hindex : i + (c :: front).length = i + 1 + front.length := by
        rw [List.length_cons]
        omega
      rw [hindex] at hopen hclose
      exact ⟨m, hm, hopen, hclose⟩

/-- When every token holds an even number of quotes, nothing but white space is skipped. -/
theorem Scan.covered {i : ℕ} {cs : List Char} {found : List TokenMatch} (h : Scan i cs found)
    (htokens : TokensEven found) (heven : EvenQuotes cs) {k : ℕ} {c : Char}
    (hk : cs[k]? = some c) (hc : isSpace c = false) : ∃ m ∈ found, m.Covers (i + k) := by
  induction h generalizing k with
  | nil i => simp at hk
  | @token i cs tail token found hat hcs hreads hrest ih =>
      have htoken : EvenQuotes token.chars := htokens _ List.mem_cons_self
      have htail : EvenQuotes tail := (evenQuotes_append htoken).mp (hcs ▸ heven)
      by_cases hin : k < token.chars.length
      · refine ⟨_, List.mem_cons_self, ?_, ?_⟩
        · exact Nat.le_add_right i k
        · exact Nat.add_lt_add_left hin i
      · rw [hcs, List.getElem?_append_right (Nat.le_of_not_lt hin)] at hk
        obtain ⟨m, hm, hcovers⟩ := ih (fun m hm => htokens m (List.mem_cons_of_mem _ hm)) htail hk
        have hindex : i + token.chars.length + (k - token.chars.length) = i + k := by omega
        rw [hindex] at hcovers
        exact ⟨m, List.mem_cons_of_mem _ hm, hcovers⟩
  | @skip i d cs found hskip hrest ih =>
      obtain ⟨hspace, hd⟩ := skip_isSpace hskip heven
      have htail : EvenQuotes cs := (evenQuotes_append (s := [d]) hd).mp heven
      cases k with
      | zero =>
          obtain rfl : d = c := by simpa using hk
          simp [hspace] at hc
      | succ k =>
          obtain ⟨m, hm, hcovers⟩ := ih htokens htail (by simpa using hk)
          have hindex : i + 1 + k = i + (k + 1) := by omega
          rw [hindex] at hcovers
          exact ⟨m, hm, hcovers⟩

/-! ## The condition on the query -/

theorem evenQuotes_of_not_mem {cs : List Char} (h : '"' ∉ cs) : EvenQuotes cs := by
  unfold EvenQuotes
  rw [List.count_eq_zero.mpr h]

/-- Letters are no quotes. -/
theorem quote_not_mem_operator {operator : List Char}
    (h : ∀ c ∈ operator, isLetter c = true) : '"' ∉ operator := by
  intro hmem
  exact absurd (h '"' hmem) (by decide)

/-- The quotes of a plain operator are those of its value. -/
theorem evenQuotes_operator {operator value : List Char}
    (h : ∀ c ∈ operator, isLetter c = true) :
    EvenQuotes (operator ++ ':' :: value) ↔ EvenQuotes value := by
  rw [evenQuotes_append (evenQuotes_of_not_mem (quote_not_mem_operator h))]
  exact evenQuotes_append (s := [':']) rfl

/-- Every token but a plain operator holds an even number of quotes. -/
theorem Token.Reads.evenQuotes {token : Token} {rest : List Char} (h : token.Reads rest)
    (hplain : ∀ operator value, token = .plainOperator operator value → EvenQuotes value) :
    EvenQuotes token.chars := by
  have hquoted : ∀ text : List Char, '"' ∉ text → EvenQuotes ('"' :: text ++ ['"']) := by
    intro text htext
    unfold EvenQuotes
    rw [List.count_append, List.count_cons_self, List.count_eq_zero.mpr htext]
    rfl
  cases token with
  | quotedOperator operator value =>
      obtain ⟨-, hletters, hvalue⟩ := h
      have heven : EvenQuotes (operator ++ ':' :: ('"' :: value ++ ['"'])) :=
        (evenQuotes_operator hletters).mpr (hquoted value hvalue)
      simpa [chars] using heven
  | plainOperator operator value =>
      obtain ⟨-, hletters, -⟩ := h
      exact (evenQuotes_operator hletters).mpr (hplain operator value rfl)
  | quotedText text => exact hquoted text h
  | plainText text =>
      refine evenQuotes_of_not_mem fun hmem => ?_
      exact absurd (h.2.1 '"' hmem) (by decide)

/-- A value that no quote stands in front of is not quoted. -/
theorem head_of_quotedAt {value rest : List Char} (h : quotedAt (value ++ rest) = none)
    (heven : EvenQuotes (value ++ rest)) : value.head? ≠ some '"' := by
  intro hhead
  obtain ⟨tail, rfl⟩ := List.head?_eq_some_iff.mp hhead
  have hnone : '"' ∉ tail ++ rest := quotedAt_eq_none h
  unfold EvenQuotes at heven
  rw [List.cons_append, List.count_cons_self, List.count_eq_zero.mpr hnone] at heven
  omega

/-- The last character of a text is a break, or the next one is. -/
def Fresh (front cs : List Char) : Prop :=
  (∀ c ∈ front.getLast?, isBreak c = true) ∨ ∀ c ∈ cs.head?, isBreak c = true

/-- A token ends with a quote, or where the text goes on with a break. -/
theorem Token.Reads.fresh {token : Token} {front rest : List Char} (h : token.Reads rest) :
    Fresh (front ++ token.chars) rest := by
  have hlast : ∀ cs : List Char, ∀ c ∈ (cs ++ ['"']).getLast?, isBreak c = true := by
    intro cs c hc
    obtain rfl : '"' = c := by simpa using hc
    rfl
  cases token with
  | quotedOperator operator value =>
      refine .inl ?_
      have hend := hlast (front ++ (operator ++ ':' :: '"' :: value))
      simpa [chars] using hend
  | plainOperator operator value =>
      obtain ⟨-, -, -, hboundary, -⟩ := h
      refine .inr fun c hc => ?_
      simp [isBreak, hboundary c hc]
  | quotedText text =>
      refine .inl ?_
      have hend := hlast (front ++ '"' :: text)
      simpa [chars] using hend
  | plainText text => exact .inr h.2.2

/-- Where operators close their quotes, every token holds an even number of quotes. -/
theorem Scan.tokensEven_of_operators {whole front cs : List Char} {i : ℕ}
    {found : List TokenMatch} (h : Scan i cs found) (hwhole : whole = front ++ cs)
    (hclose : OperatorsCloseQuotes whole) (hfront : EvenQuotes front) (heven : EvenQuotes cs)
    (hfresh : Fresh front cs) : TokensEven found := by
  induction h generalizing front with
  | nil i =>
      intro m hm
      simp at hm
  | @token i cs tail token found hat hcs hreads hrest ih =>
      have htoken : EvenQuotes token.chars := by
        refine hreads.evenQuotes fun operator value htok => ?_
        subst htok
        obtain ⟨hne, hletters, hvalue, htail, hquoted⟩ := hreads
        have hrestEven : EvenQuotes (value ++ tail) := by
          have hparts : cs = (operator ++ [':']) ++ (value ++ tail) := by simp [hcs, Token.chars]
          rw [hparts] at heven
          have hname : EvenQuotes (operator ++ [':']) :=
            (evenQuotes_operator hletters).mpr (evenQuotes_of_not_mem (by simp))
          exact (evenQuotes_append hname).mp heven
        have hbreak : ∀ c ∈ front.getLast?, isBreak c = true := by
          rcases hfresh with hlast | hhead
          · exact hlast
          · -- an operator starts with a letter
            obtain ⟨c, operator, rfl⟩ := List.exists_cons_of_ne_nil hne
            have hc := hhead c (by simp [hcs, Token.chars])
            rw [isLetter_not_break (hletters c List.mem_cons_self)] at hc
            simp at hc
        exact hclose front operator value tail (by simp [hwhole, hcs, Token.chars]) hfront hbreak hne
          hletters (head_of_quotedAt hquoted hrestEven) hvalue htail
      have htailEven : EvenQuotes tail := (evenQuotes_append htoken).mp (hcs ▸ heven)
      have hnext : Fresh (front ++ token.chars) tail := hreads.fresh
      have hfound := @ih (front ++ token.chars) (by rw [hwhole, hcs, List.append_assoc])
        ((evenQuotes_append hfront).mpr htoken) htailEven hnext
      intro m hm
      rcases List.mem_cons.mp hm with rfl | hmem
      · exact htoken
      · exact hfound m hmem
  | @skip i c cs found hskip hrest ih =>
      obtain ⟨hspace, hc⟩ := skip_isSpace hskip heven
      refine @ih (front ++ [c]) (by rw [hwhole, List.append_assoc]; rfl)
        ((evenQuotes_append hfront).mpr hc) ((evenQuotes_append (s := [c]) hc).mp heven) (.inl ?_)
      intro d hd
      obtain rfl : c = d := by simpa using hd
      simp [isBreak, hspace]

/-- The characters up to the first white space. -/
theorem takeWhile_word {value rest : List Char} (hvalue : ∀ c ∈ value, isSpace c = false)
    (hrest : AtBoundary rest) : (value ++ rest).takeWhile (fun c => !isSpace c) = value := by
  rw [List.takeWhile_append_of_pos fun c hc => by simp [hvalue c hc]]
  cases rest with
  | nil => simp
  | cons c rest =>
      have hc := atBoundary_cons.mp hrest
      rw [List.takeWhile_cons_of_neg (by simp [hc]), List.append_nil]

/-- The pattern reads a plain operator where one stands. -/
theorem tokenAt_plainOperator {operator value rest : List Char} (hne : operator ≠ [])
    (hletters : ∀ c ∈ operator, isLetter c = true) (hhead : value.head? ≠ some '"')
    (hvalue : ∀ c ∈ value, isSpace c = false) (hrest : AtBoundary rest) :
    tokenAt (operator ++ ':' :: (value ++ rest)) = some (.plainOperator operator value) := by
  have hquoted : quotedAt (value ++ rest) = none := by
    unfold quotedAt
    split
    next tail hcs =>
      cases value with
      | nil =>
          have hblank := hrest '"' (by simpa using congrArg List.head? hcs)
          exact absurd hblank (by decide)
      | cons c value => simp_all
    next => rfl
  unfold tokenAt
  rw [operatorAt_eq_some.mpr ⟨rfl, hne, hletters⟩]
  simp only [hquoted]
  rw [takeWhile_word hvalue hrest]

/-- The text of a quoted span that stands in front of its end holds no quote. -/
theorem quote_not_mem_front {text front back : List Char} (h : text ++ ['"'] = front ++ back)
    (hback : back ≠ []) (htext : '"' ∉ text) : '"' ∉ front := by
  rcases List.append_eq_append_iff.mp h with ⟨gap, rfl, hgap⟩ | ⟨gap, rfl, -⟩
  · cases gap with
    | nil => simpa using htext
    | cons c gap =>
        have hlength := congrArg List.length hgap
        have hpos := List.length_pos_of_ne_nil hback
        simp only [List.length_cons, List.length_append, List.length_nil] at hlength
        omega
  · exact fun hmem => htext (List.mem_append_left gap hmem)

/-- A token that an operator stands inside of, behind paired quotes and a break, is a plain operator
that ends with it. -/
theorem Token.Reads.operator_inside {token : Token} {tail front back operator value rest : List Char}
    (h : token.Reads tail) (hchars : token.chars = front ++ back)
    (hback : operator ++ ':' :: value ++ rest = back ++ tail) (hne : back ≠ [])
    (hfront : EvenQuotes front) (hbreak : ∃ c ∈ front.getLast?, isBreak c = true)
    (hletters : ∀ c ∈ operator, isLetter c = true) (hvalue : ∀ c ∈ value, isSpace c = false)
    (hrest : AtBoundary rest) : token.chars = front ++ (operator ++ ':' :: value) := by
  obtain ⟨d, hd, hbreak⟩ := hbreak
  have hmem : d ∈ front := List.mem_of_getLast? hd
  have hodd : ∀ text f : List Char, '"' ∉ text → text ++ ['"'] = f ++ back →
      ¬ EvenQuotes ('"' :: f) := by
    intro text f htext hsplit heven
    unfold EvenQuotes at heven
    rw [List.count_cons_self,
      List.count_eq_zero.mpr (quote_not_mem_front hsplit hne htext)] at heven
    omega
  cases token with
  | quotedText text =>
      cases front with
      | nil => simp at hmem
      | cons c f =>
          obtain ⟨rfl, hsplit⟩ := List.cons.inj hchars
          exact absurd hfront (hodd text f h hsplit)
  | quotedOperator name text =>
      obtain ⟨-, hname, htext⟩ := h
      have hplain : ∀ c ∈ name ++ [':'], isBreak c = false := by
        intro c hc
        rcases List.mem_append.mp hc with hc | hc
        · exact isLetter_not_break (hname c hc)
        · obtain rfl := List.mem_singleton.mp hc
          rfl
      have hparts : (name ++ [':']) ++ ('"' :: text ++ ['"']) = front ++ back := by
        simpa [chars] using hchars
      rcases List.append_eq_append_iff.mp hparts with ⟨gap, rfl, hgap⟩ | ⟨gap, hgap, -⟩
      · cases gap with
        | nil =>
            rw [List.append_nil] at hmem
            simp [hplain d hmem] at hbreak
        | cons c f =>
            obtain ⟨rfl, hsplit⟩ := List.cons.inj hgap
            have hname' : EvenQuotes (name ++ [':']) := evenQuotes_of_not_mem fun hquote =>
              absurd (hplain '"' hquote) (by decide)
            exact absurd ((evenQuotes_append hname').mp hfront) (hodd text f htext hsplit)
      · have hin : d ∈ name ++ [':'] := hgap ▸ List.mem_append_left gap hmem
        simp [hplain d hin] at hbreak
  | plainText text =>
      have hin : d ∈ text := by
        show d ∈ (Token.plainText text).chars
        rw [hchars]
        exact List.mem_append_left back hmem
      simp [h.2.1 d hin] at hbreak
  | plainOperator name text =>
      obtain ⟨-, hname, htext, htail, -⟩ := h
      have hletter : ∀ c, isLetter c = true → isSpace c = false := by
        intro c hc
        have hplain := isLetter_not_break hc
        simp only [isBreak, Bool.or_eq_false_iff] at hplain
        exact hplain.1
      have hword : ∀ v w : List Char, (∀ c ∈ v, isLetter c = true) →
          (∀ c ∈ w, isSpace c = false) → ∀ c ∈ v ++ ':' :: w, isSpace c = false := by
        intro v w hv hw c hc
        rcases List.mem_append.mp hc with hc | hc
        · exact hletter c (hv c hc)
        · rcases List.mem_cons.mp hc with rfl | hc
          · rfl
          · exact hw c hc
      have htoken : ∀ c ∈ front ++ back, isSpace c = false := by
        intro c hc
        rw [← hchars] at hc
        exact hword name text hname htext c hc
      have hother : ∀ c ∈ front ++ (operator ++ ':' :: value), isSpace c = false := by
        intro c hc
        rcases List.mem_append.mp hc with hc | hc
        · exact htoken c (List.mem_append_left back hc)
        · exact hword operator value hletters hvalue c hc
      have hsame : (front ++ back) ++ tail = (front ++ (operator ++ ':' :: value)) ++ rest := by
        rw [List.append_assoc front back, ← hback]
        simp
      rw [hchars, ← takeWhile_word htoken htail, hsame, takeWhile_word hother hrest]

/-- When every token holds an even number of quotes, operators close their quotes. -/
theorem Scan.operators_closeQuotes {i : ℕ} {cs : List Char} {found : List TokenMatch}
    (h : Scan i cs found) (htokens : TokensEven found) (heven : EvenQuotes cs) :
    OperatorsCloseQuotes cs := by
  induction h with
  | nil i =>
      intro front operator value rest hsplit
      simp at hsplit
  | @token i cs tail token found hat hcs hreads hrest ih =>
      intro front operator value rest hsplit hfront hlast hne hletters hhead hvalue hboundary
      have htoken : EvenQuotes token.chars := htokens _ List.mem_cons_self
      have htail : EvenQuotes tail := (evenQuotes_append htoken).mp (hcs ▸ heven)
      have hinner := ih (fun m hm => htokens m (List.mem_cons_of_mem _ hm)) htail
      have hwhole : token.chars ++ tail = front ++ (operator ++ ':' :: value ++ rest) := by
        rw [← hcs, hsplit]
        simp
      have hnext : ∀ front', front = token.chars ++ front' →
          tail = front' ++ (operator ++ ':' :: value ++ rest) → EvenQuotes value := by
        rintro front' rfl hback
        refine hinner front' operator value rest (by simpa using hback)
          ((evenQuotes_append htoken).mp hfront) (fun c hc => ?_) hne hletters hhead hvalue hboundary
        exact hlast c (by simp [Option.mem_def.mp hc])
      rcases List.append_eq_append_iff.mp hwhole with ⟨front', hsame, hback⟩ | ⟨back, hchars, hback⟩
      · exact hnext front' hsame hback
      · by_cases hnil : back = []
        · subst hnil
          exact hnext [] (by simpa using hchars.symm) (by simpa using hback.symm)
        · have hoperator : token.chars = front ++ (operator ++ ':' :: value) := by
            cases hend : front.getLast? with
            | none =>
                obtain rfl := List.getLast?_eq_none_iff.mp hend
                have hread := tokenAt_plainOperator hne hletters hhead hvalue hboundary
                have hcs' : cs = operator ++ ':' :: (value ++ rest) := by simpa using hsplit
                rw [← hcs', hat] at hread
                obtain rfl := Option.some.inj hread
                rfl
            | some d =>
                exact hreads.operator_inside hchars hback hnil hfront
                  ⟨d, hend, hlast d hend⟩ hletters hvalue hboundary
          rw [hoperator, evenQuotes_append hfront] at htoken
          exact (evenQuotes_operator hletters).mp htoken
  | @skip i c cs found hskip hrest ih =>
      intro front operator value rest hsplit hfront hlast hne hletters hhead hvalue hboundary
      obtain ⟨hspace, hc⟩ := skip_isSpace hskip heven
      have hinner := ih htokens ((evenQuotes_append (s := [c]) hc).mp heven)
      cases front with
      | nil =>
          obtain ⟨d, operator, rfl⟩ := List.exists_cons_of_ne_nil hne
          obtain ⟨rfl, -⟩ := List.cons.inj hsplit
          have hplain := isLetter_not_break (hletters c List.mem_cons_self)
          simp [isBreak, hspace] at hplain
      | cons d front =>
          obtain ⟨rfl, hcs⟩ := List.cons.inj hsplit
          refine hinner front operator value rest hcs ((evenQuotes_append (s := [c]) hc).mp hfront)
            (fun e he => ?_) hne hletters hhead hvalue hboundary
          refine hlast e ?_
          cases front with
          | nil => simp at he
          | cons f front => simpa using he

/-! ## Reading a query -/

theorem evenQuotes_of_parse {u : Unicode} {raw : String} {parsed : ParsedSearchQuery}
    (h : parseSearchQuery u raw = .ok parsed) : EvenQuotes raw.toList := by
  unfold parseSearchQuery at h
  by_cases hodd : raw.toList.count '"' % 2 = 1
  · rw [if_pos hodd] at h
    cases h
  · unfold EvenQuotes
    omega

/-- An accepted query is read faithfully exactly when every operator closes its quotes. -/
theorem query_read_iff {u : Unicode} {raw : String} {parsed : ParsedSearchQuery}
    (h : parseSearchQuery u raw = .ok parsed) :
    ReadsFaithfully raw ↔ OperatorsCloseQuotes raw.toList := by
  have heven := evenQuotes_of_parse h
  have hscan := scan_matchAll 0 raw.toList
  constructor
  · intro hfaithful
    have hspans : SpansInside 0 raw.toList (matchAll 0 0 raw.toList) := by
      intro front text rest hcs hfront htext
      obtain ⟨m, hm, hcovers⟩ := hfaithful.quoted _ _ ⟨front, text, rest, hcs, hfront, htext, rfl, rfl⟩
      refine ⟨m, hm, ?_, ?_⟩
      · rw [Nat.zero_add]
        exact hcovers front.length (le_refl _) (by omega)
      · rw [Nat.zero_add]
        exact hcovers _ (by omega) (le_refl _)
    exact hscan.operators_closeQuotes (hscan.tokensEven hspans heven) heven
  · intro hclose
    have hwhole : raw.toList = [] ++ raw.toList := rfl
    have htokens := hscan.tokensEven_of_operators hwhole hclose rfl heven (.inl (by simp))
    have hspans := hscan.spansInside htokens heven
    refine ⟨fun i c hi hc => ?_, ?_⟩
    · obtain ⟨m, hm, hcovers⟩ := hscan.covered htokens heven hi hc
      rw [Nat.zero_add] at hcovers
      refine ⟨m, ⟨hm, hcovers⟩, ?_⟩
      rintro m' ⟨hm', hcovers'⟩
      exact hscan.unique hm' hm hcovers' hcovers
    · rintro i j ⟨front, text, rest, hcs, hfront, htext, rfl, rfl⟩
      obtain ⟨m, hm, hopen, hend⟩ := hspans front text rest hcs hfront htext
      rw [Nat.zero_add] at hopen hend
      exact ⟨m, hm, fun k hik hkj => ⟨hopen.1.trans hik, by have := hend.2; omega⟩⟩

/-- A quoted value, a quoted phrase and a quoted span inside a plain value. -/
theorem query_read_sample :
    ReadsFaithfully "from:\"ann lee\" \"is:unread\" to:b\"c\"" := by
  have hparse : parseSearchQuery sampleUnicode
      "from:\"ann lee\" \"is:unread\" to:b\"c\"" = .ok { emptyQuery with
        «from» := ["ann lee"], «to» := ["b\"c\""], text := "\"is:unread\"" } := rfl
  have htokens : ∀ m ∈ matchAll 0 0 "from:\"ann lee\" \"is:unread\" to:b\"c\"".toList,
      m.token.chars.count '"' % 2 = 0 := by decide +kernel
  have hclose := (scan_matchAll 0 _).operators_closeQuotes htokens (evenQuotes_of_parse hparse)
  exact (query_read_iff hparse).mpr hclose

/-- The value of an operator swallows the opening quote: the operator in the quoted span is applied,
and the closing quote belongs to no token. -/
theorem query_misread :
    parseSearchQuery sampleUnicode "from:a\"b is:unread \"c" =
        .ok { emptyQuery with «from» := ["a\"b"], unread := true, text := "c" } ∧
      ¬ ReadsFaithfully "from:a\"b is:unread \"c" := by
  refine ⟨rfl, fun hfaithful => ?_⟩
  have hquote : "from:a\"b is:unread \"c".toList[19]? = some '"' := by decide +kernel
  obtain ⟨m, ⟨hm, hcovers⟩, -⟩ := hfaithful.covered 19 '"' hquote (by decide)
  have hmatches : matchAll 0 0 "from:a\"b is:unread \"c".toList =
      [⟨0, .plainOperator "from".toList "a\"b".toList⟩,
        ⟨9, .plainOperator "is".toList "unread".toList⟩, ⟨20, .plainText "c".toList⟩] := by
    decide +kernel
  rw [hmatches] at hm
  have hnone : ∀ m ∈ [(⟨0, .plainOperator "from".toList "a\"b".toList⟩ : TokenMatch),
      ⟨9, .plainOperator "is".toList "unread".toList⟩, ⟨20, .plainText "c".toList⟩],
      ¬ (m.index ≤ 19 ∧ 19 < m.index + m.token.chars.length) := by
    decide +kernel
  exact hnone m hm hcovers

end MailHub.Search
