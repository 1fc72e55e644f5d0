import MailHub.Schema
import MailHub.Text

/-!
# Index text

One normalization for everything that is indexed and for every query value: compatibility forms,
lower case, and white space collapsed to single blanks. The tables of Unicode are a parameter with
the laws that the standard gives them. What a text says up to white space survives the collapsing:
`HasWordEnd` is the statement that some word of a text ends with given characters.
-/

namespace MailHub.Search

open MailHub

/-! ## Unicode -/

/-- The Unicode tables of the platform. -/
structure Unicode where
  /-- `normalize("NFKC")`. -/
  nfkc : List Char → List Char
  /-- `toLowerCase()`. -/
  lower : List Char → List Char

/-- A text in compatibility form and lower case. -/
def Unicode.fold (u : Unicode) (cs : List Char) : List Char := u.lower (u.nfkc cs)

/-- What the standard says about the tables. -/
structure Unicode.Standard (u : Unicode) : Prop where
  nfkc_nil : u.nfkc [] = []
  lower_nil : u.lower [] = []
  /-- Neither a blank nor an at sign composes with the text around it. -/
  nfkc_boundary : ∀ s t c, c = ' ' ∨ c = '@' → u.nfkc (s ++ c :: t) = u.nfkc s ++ c :: u.nfkc t
  /-- Neither of them has a case, nor do they continue a word. -/
  lower_boundary : ∀ s t c, c = ' ' ∨ c = '@' →
    u.lower (s ++ c :: t) = u.lower s ++ c :: u.lower t
  /-- Where a character other than white space expands to a text with white space in it, as a spacing
  mark does, a character outside ASCII follows. -/
  fold_blank : ∀ s, (∀ c ∈ s, isSpace c = false) → ∀ p b q, u.fold s = p ++ b :: q →
    isSpace b = true → ∃ d t, q = d :: t ∧ isSpace d = false ∧ 0x7F < d.val

namespace Unicode.Standard

variable {u : Unicode} (hu : u.Standard)

include hu

theorem fold_nil : u.fold [] = [] := by
  unfold fold
  rw [hu.nfkc_nil, hu.lower_nil]

/-- A text is folded piece by piece around a blank or an at sign. -/
theorem fold_boundary (s t : List Char) {c : Char} (hc : c = ' ' ∨ c = '@') :
    u.fold (s ++ c :: t) = u.fold s ++ c :: u.fold t := by
  unfold fold
  rw [hu.nfkc_boundary s t c hc, hu.lower_boundary _ _ c hc]

end Unicode.Standard

/-! ## Normalization -/

/-- `replace(/\s+/g, " ")`: every run of white space becomes one blank. -/
def collapse : List Char → List Char
  | [] => []
  | c :: cs =>
      if isSpace c then
        -- the rest starts with a blank exactly when the run goes on
        if (collapse cs).head? = some ' ' then collapse cs else ' ' :: collapse cs
      else c :: collapse cs

/-- Compatibility-form case folding, then white space collapsing. -/
def normalizeIndexText (u : Unicode) (input : String) : String :=
  trim (String.ofList (collapse (u.fold input.toList)))

/-- The characters of an index text. -/
def indexChars (u : Unicode) (cs : List Char) : List Char := trimChars (collapse (u.fold cs))

theorem normalizeIndexText_toList (u : Unicode) (input : String) :
    (normalizeIndexText u input).toList = indexChars u input.toList := by
  unfold normalizeIndexText indexChars
  rw [trim_ofList, String.toList_ofList]

/-! ## Addresses of a message -/

/-- A character of either side of an address: `[^\s@,;<>"()\\]`. -/
def isAddressPartChar (c : Char) : Bool := !isSpace c && c ∉ "@,;<>\"()\\".toList

/-- An address with one at sign inside, without white space and without header syntax. -/
def isValidAddress (address : String) : Bool :=
  !address.isEmpty && !address.toList.contains ' ' && !address.toList.contains '\x00' &&
    match splitList '@' address.toList with
    | [localPart, domain] =>
        !localPart.isEmpty && localPart.all isAddressPartChar &&
          !domain.isEmpty && domain.all isAddressPartChar
    | _ => false

/-- The two sides of a valid address. -/
theorem isValidAddress_split {address : String} (h : isValidAddress address = true) :
    ∃ localPart domain, address.toList = localPart ++ '@' :: domain ∧
      (∀ c ∈ localPart, isAddressPartChar c = true) ∧
      (∀ c ∈ domain, isAddressPartChar c = true) := by
  unfold isValidAddress at h
  rw [Bool.and_eq_true] at h
  obtain ⟨-, h⟩ := h
  split at h
  next localPart domain hsplit =>
    simp only [Bool.and_eq_true, List.all_eq_true] at h
    exact ⟨localPart, domain, eq_of_splitList_pair hsplit, h.1.1.2, h.2⟩
  next => cases h

theorem isAddressPartChar_not_space {c : Char} (h : isAddressPartChar c = true) :
    isSpace c = false := by
  unfold isAddressPartChar at h
  simp only [Bool.and_eq_true, Bool.not_eq_true'] at h
  exact h.1

/-- Index text for a sender: display name and address. -/
def senderIndexText : Option EmailAddress → String
  | none => ""
  | some sender => match sender.name with
    | none => sender.address
    | some name => s!"{name} {sender.address}"

/-- The recipients of all three lists. -/
def Recipients.all (recipients : Recipients) : List EmailAddress :=
  recipients.«to» ++ recipients.cc ++ recipients.bcc

/-- Index text for recipient lists: names and addresses. -/
def recipientsIndexText : Option Recipients → String
  | none => ""
  | some recipients =>
      " ".intercalate ((Recipients.all recipients).map fun entry => senderIndexText (some entry))

/-- Index text of addresses only, sender first. -/
def addressesIndexText (sender : Option EmailAddress) (recipients : Option Recipients) : String :=
  " ".intercalate ((sender.toList ++ (recipients.map Recipients.all).getD []).map (·.address))

/-! ## Collapsing -/

theorem collapse_suffix (s t : List Char) : collapse t <:+ collapse (s ++ t) := by
  induction s with
  | nil => exact List.suffix_refl _
  | cons c s ih =>
      refine ih.trans ?_
      rw [List.cons_append, collapse]
      split
      · split
        · exact List.suffix_refl _
        · exact List.suffix_cons _ _
      · exact List.suffix_cons _ _

theorem dropWhile_suffix {p : Char → Bool} {s t : List Char} (h : s <:+ t) :
    s.dropWhile p <:+ t.dropWhile p := by
  obtain ⟨r, rfl⟩ := h
  induction r with
  | nil => exact List.suffix_refl _
  | cons c r ih =>
      rw [List.cons_append, List.dropWhile_cons]
      split
      · exact ih
      · exact (List.dropWhile_suffix p).trans ((List.suffix_append r s).trans (List.suffix_cons c _))

/-- What a prefix leaves after its matching head is a prefix of what the longer text leaves. -/
theorem dropWhile_prefix {p : Char → Bool} {s t : List Char} (h : s <+: t) :
    s.dropWhile p <+: t.dropWhile p := by
  obtain ⟨r, rfl⟩ := h
  induction s with
  | nil => exact List.nil_prefix
  | cons c s ih =>
      rw [List.cons_append, List.dropWhile_cons, List.dropWhile_cons]
      split
      · exact ih
      · exact ⟨r, rfl⟩

/-- Trimming keeps the end of a text. -/
theorem trimChars_suffix {s t : List Char} (h : s <:+ t) : trimChars s <:+ trimChars t := by
  unfold trimChars
  rw [List.reverse_suffix]
  exact dropWhile_prefix (List.reverse_prefix.mpr (dropWhile_suffix h))

/-- A trimmed text does not end with white space. -/
theorem not_suffix_trimChars {s t : List Char} {c : Char} (hc : isSpace c = true) :
    ¬ s ++ [c] <:+ trimChars t := by
  unfold trimChars
  intro h
  have hprefix : c :: s.reverse <+: (t.dropWhile isSpace).reverse.dropWhile isSpace := by
    rw [← List.reverse_suffix]
    simpa using h
  obtain ⟨r, hr⟩ := hprefix
  have hhead : ((t.dropWhile isSpace).reverse.dropWhile isSpace).head? = some c := by
    rw [← hr]
    rfl
  have hnot := List.head?_dropWhile_not isSpace (t.dropWhile isSpace).reverse
  rw [hhead] at hnot
  simp [hc] at hnot

/-- The index text of the last piece ends the index text of the whole. -/
theorem indexChars_suffix {u : Unicode} (hu : u.Standard) (s t : List Char) :
    indexChars u t <:+ indexChars u (s ++ ' ' :: t) := by
  unfold indexChars
  rw [hu.fold_boundary s t (.inl rfl)]
  refine trimChars_suffix ?_
  have happend : u.fold s ++ ' ' :: u.fold t = (u.fold s ++ [' ']) ++ u.fold t := by simp
  rw [happend]
  exact collapse_suffix _ _

/-! ## Word ends -/

/-- A text that a word can stand in front of: it is empty or starts with white space. -/
def AtBoundary (q : List Char) : Prop := ∀ c ∈ q.head?, isSpace c = true

/-- A text starts with `w`, and a word ends there. -/
def Stops (w cs : List Char) : Prop := ∃ q, cs = w ++ q ∧ AtBoundary q

/-- Some word of a text ends with `w`. -/
def HasWordEnd (w cs : List Char) : Prop := ∃ p q, cs = p ++ w ++ q ∧ AtBoundary q

/-- Characters that stand inside one word. -/
structure InWord (w : List Char) : Prop where
  ne_nil : w ≠ []
  char : ∀ c ∈ w, isSpace c = false

theorem atBoundary_cons {c : Char} {cs : List Char} :
    AtBoundary (c :: cs) ↔ isSpace c = true := by simp [AtBoundary]

theorem stops_cons {x c : Char} {w cs : List Char} :
    Stops (x :: w) (c :: cs) ↔ x = c ∧ Stops w cs := by
  unfold Stops
  constructor
  · rintro ⟨q, h, hq⟩
    obtain ⟨rfl, rfl⟩ := List.cons.inj h
    exact ⟨rfl, q, rfl, hq⟩
  · rintro ⟨rfl, q, rfl, hq⟩
    exact ⟨q, rfl, hq⟩

theorem hasWordEnd_cons {c : Char} {w cs : List Char} :
    HasWordEnd w (c :: cs) ↔ Stops w (c :: cs) ∨ HasWordEnd w cs := by
  constructor
  · rintro ⟨p, q, h, hq⟩
    cases p with
    | nil => exact .inl ⟨q, h, hq⟩
    | cons d p =>
        obtain ⟨rfl, rfl⟩ := List.cons.inj h
        exact .inr ⟨p, q, rfl, hq⟩
  · rintro (⟨q, h, hq⟩ | ⟨p, q, rfl, hq⟩)
    · exact ⟨[], q, h, hq⟩
    · exact ⟨c :: p, q, rfl, hq⟩

variable {w : List Char}

theorem InWord.not_hasWordEnd_nil (hw : InWord w) : ¬ HasWordEnd w [] := by
  rintro ⟨p, q, h, -⟩
  have hnil : w = [] := by
    have hparts := List.append_eq_nil_iff.mp h.symm
    exact (List.append_eq_nil_iff.mp hparts.1).2
  exact hw.ne_nil hnil

/-- No word starts at white space. -/
theorem InWord.not_stops (hw : InWord w) {c : Char} {cs : List Char} (hc : isSpace c = true) :
    ¬ Stops w (c :: cs) := by
  rintro ⟨q, h, -⟩
  obtain ⟨x, w', rfl⟩ := List.exists_cons_of_ne_nil hw.ne_nil
  obtain ⟨rfl, -⟩ := List.cons.inj h
  simp [hw.char c List.mem_cons_self] at hc

/-- White space in front ends no word. -/
theorem InWord.hasWordEnd_cons (hw : InWord w) {c : Char} {cs : List Char}
    (hc : isSpace c = true) : HasWordEnd w (c :: cs) ↔ HasWordEnd w cs := by
  rw [Search.hasWordEnd_cons, or_iff_right (hw.not_stops hc)]

/-- White space separates the words of a text. -/
theorem InWord.hasWordEnd_append (hw : InWord w) (s t : List Char) {c : Char}
    (hc : isSpace c = true) : HasWordEnd w (s ++ c :: t) ↔ HasWordEnd w s ∨ HasWordEnd w t := by
  have hstops : ∀ v s : List Char, (∀ d ∈ v, isSpace d = false) →
      (Stops v (s ++ c :: t) ↔ Stops v s) := by
    intro v
    induction v with
    | nil =>
        intro s _
        cases s <;> simp [Stops, AtBoundary, hc]
    | cons x v ih =>
        intro s hv
        have hx : isSpace x = false := hv x List.mem_cons_self
        cases s with
        | nil =>
            have hne : x ≠ c := by
              rintro rfl
              simp [hx] at hc
            rw [List.nil_append, stops_cons]
            simp [hne, Stops]
        | cons d s =>
            rw [List.cons_append, stops_cons, stops_cons,
              ih s fun d hd => hv d (List.mem_cons_of_mem x hd)]
  induction s with
  | nil =>
      rw [List.nil_append, hw.hasWordEnd_cons hc, or_iff_right hw.not_hasWordEnd_nil]
  | cons d s ih =>
      have hhere := hstops w (d :: s) hw.char
      rw [List.cons_append] at hhere
      rw [List.cons_append, Search.hasWordEnd_cons, Search.hasWordEnd_cons, hhere, or_assoc]
      exact or_congr_right ih

/-- Collapsing white space keeps the words of a text. -/
theorem InWord.hasWordEnd_collapse (hw : InWord w) (cs : List Char) :
    HasWordEnd w (collapse cs) ↔ HasWordEnd w cs := by
  have hboundary : ∀ cs, AtBoundary (collapse cs) ↔ AtBoundary cs := by
    intro cs
    cases cs with
    | nil => rfl
    | cons c cs =>
        rw [atBoundary_cons, collapse]
        by_cases hc : isSpace c = true
        · rw [if_pos hc]
          have hblank : isSpace ' ' = true := rfl
          split
          next hhead => simp [AtBoundary, hhead, hc, hblank]
          next => simp [AtBoundary, hc, hblank]
        · rw [if_neg hc, atBoundary_cons]
  have hstops : ∀ v cs : List Char, (∀ d ∈ v, isSpace d = false) →
      (Stops v (collapse cs) ↔ Stops v cs) := by
    intro v
    induction v with
    | nil =>
        intro cs _
        simpa [Stops] using hboundary cs
    | cons x v ih =>
        intro cs hv
        have hx : isSpace x = false := hv x List.mem_cons_self
        cases cs with
        | nil => simp [collapse]
        | cons c cs =>
            by_cases hc : isSpace c = true
            · have hword : InWord (x :: v) := ⟨List.cons_ne_nil x v, hv⟩
              refine iff_of_false ?_ (hword.not_stops hc)
              rw [collapse, if_pos hc]
              split
              next hhead =>
                obtain ⟨rest, hrest⟩ := List.head?_eq_some_iff.mp hhead
                rw [hrest]
                exact hword.not_stops rfl
              next => exact hword.not_stops rfl
            · rw [collapse, if_neg hc, stops_cons, stops_cons,
                ih cs fun d hd => hv d (List.mem_cons_of_mem x hd)]
  induction cs with
  | nil => rfl
  | cons c cs ih =>
      by_cases hc : isSpace c = true
      · rw [hw.hasWordEnd_cons hc, collapse, if_pos hc]
        split
        · exact ih
        · exact (hw.hasWordEnd_cons rfl).trans ih
      · have hhere := hstops w (c :: cs) hw.char
        rw [collapse, if_neg hc] at hhere ⊢
        rw [Search.hasWordEnd_cons, Search.hasWordEnd_cons, hhere]
        exact or_congr_right ih

/-- Trimming keeps the words of a text. -/
theorem InWord.hasWordEnd_trimChars (hw : InWord w) (cs : List Char) :
    HasWordEnd w (trimChars cs) ↔ HasWordEnd w cs := by
  have hfront : ∀ cs, HasWordEnd w (cs.dropWhile isSpace) ↔ HasWordEnd w cs := by
    intro cs
    induction cs with
    | nil => rfl
    | cons c cs ih =>
        rw [List.dropWhile_cons]
        split
        next hc => rw [ih, hw.hasWordEnd_cons hc]
        next => rfl
  have hblank : ∀ bs : List Char, (∀ b ∈ bs, isSpace b = true) → ¬ HasWordEnd w bs := by
    rintro bs hbs ⟨p, q, rfl, -⟩
    obtain ⟨x, w', rfl⟩ := List.exists_cons_of_ne_nil hw.ne_nil
    have hx := hbs x (by simp)
    simp [hw.char x List.mem_cons_self] at hx
  have hback : ∀ cs, HasWordEnd w (cs.reverse.dropWhile isSpace).reverse ↔ HasWordEnd w cs := by
    intro cs
    have hsplit : cs = (cs.reverse.dropWhile isSpace).reverse ++
        (cs.reverse.takeWhile isSpace).reverse := by
      rw [← List.reverse_append, List.takeWhile_append_dropWhile, List.reverse_reverse]
    have hbs : ∀ b ∈ (cs.reverse.takeWhile isSpace).reverse, isSpace b = true :=
      fun b hb => List.all_eq_true.mp List.all_takeWhile b (List.mem_reverse.mp hb)
    rcases hrest : (cs.reverse.takeWhile isSpace).reverse with _ | ⟨b, bs⟩
    · rw [hrest, List.append_nil] at hsplit
      rw [← hsplit]
    · rw [hrest] at hsplit hbs
      conv_rhs => rw [hsplit]
      rw [hw.hasWordEnd_append _ _ (hbs b List.mem_cons_self),
        or_iff_left (hblank bs fun c hc => hbs c (List.mem_cons_of_mem b hc))]
  unfold trimChars
  rw [hback, hfront]

/-! ## Tables for samples -/

/-- The compatibility form of the full-width at sign and of the diaeresis; other characters stay. -/
def sampleForm (c : Char) : List Char :=
  if c = '＠' then ['@'] else if c = '¨' then [' ', '\u0308'] else [c]

/-- Tables that know two compatibility forms and the capitals of ASCII. -/
def sampleUnicode : Unicode where
  nfkc := fun cs => cs.flatMap sampleForm
  lower := fun cs => cs.map Char.toLower

/-- The lower case of a character is no white space when the character is none. -/
theorem isSpace_toLower {c : Char} (h : isSpace c = false) : isSpace c.toLower = false := by
  by_cases hupper : c.val ≥ 'A'.val ∧ c.val ≤ 'Z'.val
  · have hall : ∀ n < 128, isSpace (Char.ofNat n) = false →
        isSpace (Char.ofNat n).toLower = false := by decide +kernel
    have hascii : c.toNat < 128 := by
      have hle : c.val.toNat ≤ 'Z'.val.toNat := UInt32.le_iff_toNat_le.mp hupper.2
      have hZ : 'Z'.val.toNat < 128 := by decide
      have hval : c.toNat = c.val.toNat := rfl
      omega
    have hc := hall c.toNat hascii
    rw [Char.ofNat_toNat] at hc
    exact hc h
  · unfold Char.toLower
    rw [dif_neg hupper]
    exact h

theorem sampleUnicode_standard : sampleUnicode.Standard where
  nfkc_nil := rfl
  lower_nil := rfl
  nfkc_boundary := by
    intro s t c hc
    have hform : sampleForm c = [c] := by rcases hc with rfl | rfl <;> rfl
    show (s ++ c :: t).flatMap sampleForm = s.flatMap sampleForm ++ c :: t.flatMap sampleForm
    rw [List.flatMap_append, List.flatMap_cons, hform, List.singleton_append]
  lower_boundary := by
    intro s t c hc
    have hlower : c.toLower = c := by rcases hc with rfl | rfl <;> rfl
    show (s ++ c :: t).map Char.toLower = s.map Char.toLower ++ c :: t.map Char.toLower
    rw [List.map_append, List.map_cons, hlower]
  fold_blank := by
    intro s hs
    show ∀ p b q, (s.flatMap sampleForm).map Char.toLower = p ++ b :: q → isSpace b = true →
      ∃ d t, q = d :: t ∧ isSpace d = false ∧ 0x7F < d.val
    induction s with
    | nil =>
        intro p b q h
        simp at h
    | cons c s ih =>
        have htail := ih fun d hd => hs d (List.mem_cons_of_mem c hd)
        intro p b q h hb
        rw [List.flatMap_cons, List.map_append] at h
        rcases List.append_eq_append_iff.mp h with ⟨p', rfl, hrest⟩ | ⟨back, hform, hback⟩
        · exact htail p' b q hrest hb
        · cases back with
          | nil => exact htail [] b q (by simpa using hback.symm) hb
          | cons d back =>
              obtain ⟨rfl, rfl⟩ := List.cons.inj hback
              -- the blank is the first character of the form of a diaeresis
              by_cases hmark : c = '¨'
              · subst hmark
                have hchars : (sampleForm '¨').map Char.toLower = [' ', '\u0308'] := rfl
                rw [hchars] at hform
                match p, hform with
                | [], hform =>
                    obtain ⟨-, rfl⟩ := List.cons.inj hform
                    exact ⟨'\u0308', _, rfl, by decide, by decide⟩
                | [x], hform =>
                    obtain ⟨rfl, -⟩ : '\u0308' = b ∧ back = [] := by
                      simpa using (List.cons.inj hform).2
                    exact absurd hb (by decide)
                | x :: y :: p, hform => simp at hform
              · have hsingle : ∃ e, (sampleForm c).map Char.toLower = [e] ∧ isSpace e = false := by
                  by_cases hat : c = '＠'
                  · exact ⟨'@', by rw [hat]; rfl, by decide⟩
                  · exact ⟨c.toLower, by simp [sampleForm, hat, hmark],
                      isSpace_toLower (hs c List.mem_cons_self)⟩
                obtain ⟨e, he, hspace⟩ := hsingle
                rw [he] at hform
                have hmem : b ∈ [e] := hform ▸ List.mem_append_right p List.mem_cons_self
                obtain rfl := List.mem_singleton.mp hmem
                simp [hspace] at hb

end MailHub.Search
