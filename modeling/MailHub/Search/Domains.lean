import MailHub.Search.Service

/-!
# Searching for a domain

`domain:` looks for an at sign and the domain at the end of a word of the folded addresses. It
matches exactly the domains of the addresses, unless folding makes another at sign or white space
out of a character inside an address.
-/

namespace MailHub.Search

open MailHub Relational

/-! ## Addresses and their sides -/

/-- The addresses of a message, sender first. -/
def addressesOf (m : Message) : List String :=
  (m.sender.toList ++ (m.recipients.map Recipients.all).getD []).map (·.address)

/-- The characters in front of the at sign. -/
def localPartOf (address : String) : List Char := address.toList.takeWhile (· ≠ '@')

/-- The characters behind the at sign. -/
def domainPartOf (address : String) : List Char := (address.toList.dropWhile (· ≠ '@')).drop 1

/-- The domain of an address, normalized as a query value is. -/
def domainOf (u : Unicode) (address : String) : String :=
  normalizeIndexText u (String.ofList (domainPartOf address))

/-- `domain:` finds a message exactly when the domain of one of its addresses is the given one. -/
def DomainExact (u : Unicode) (matchesText : Message → String → Bool) (db : Database)
    (value domain : String) (m : Message) : Prop :=
  Finds u matchesText db ("domain" ++ ":" ++ value) m ↔
    ∃ address ∈ addressesOf m, domainOf u address = domain

/-- Folding makes a domain appear in an address beside its own: in the local part in front of a
blank, at the start of the domain part in front of a blank, or behind an at sign inside the domain
part at the end of a word. -/
def LooksLike (u : Unicode) (domain : List Char) (address : String) : Prop :=
  (∃ front b back, u.fold (localPartOf address) = front ++ '@' :: domain ++ b :: back ∧
    isSpace b = true) ∨
  (∃ b back, u.fold (domainPartOf address) = domain ++ b :: back ∧ isSpace b = true) ∨
  HasWordEnd ('@' :: domain) (u.fold (domainPartOf address))

/-! ## Domains -/

/-- The characters of a domain. -/
def isDomainChar (c : Char) : Bool :=
  ('a' ≤ c && c ≤ 'z') || ('0' ≤ c && c ≤ '9') || c == '-' || c == '.'

/-- A domain has characters, and they are letters, digits, hyphens and dots. -/
structure PlainDomain (domain : List Char) : Prop where
  ne_nil : domain ≠ []
  char : ∀ c ∈ domain, isDomainChar c = true

/-- What a validated domain consists of. -/
theorem plainDomain_of_normalize {u : Unicode} {value domain : String}
    (h : normalizeDomainValue u value = .ok domain) : PlainDomain domain.toList := by
  unfold normalizeDomainValue at h
  simp only at h
  split at h
  next => cases h
  next hlength =>
    split at h
    next hlabels =>
      obtain rfl := Except.ok.inj h
      refine ⟨fun hnil => hlength (.inl ?_), fun c hc => ?_⟩
      · simp [textLength, hnil]
      · rcases mem_of_splitList '.' hc with rfl | ⟨label, hlabel, hc⟩
        · rfl
        · have hchars := List.all_eq_true.mp hlabels label hlabel
          unfold isLabel at hchars
          simp only [Bool.and_eq_true, List.all_eq_true] at hchars
          have hchar := hchars.1.1 c hc
          unfold isDomainChar
          simp only [Bool.or_eq_true] at hchar ⊢
          exact .inl hchar
    next => cases h

/-- A character of a domain is no white space, no at sign, no wildcard, and inside ASCII. -/
theorem isDomainChar_plain {c : Char} (h : isDomainChar c = true) :
    isSpace c = false ∧ c ≠ '@' ∧ isWildcard c = false ∧ c.val ≤ 0x7F := by
  have hascii : c.toNat < 128 := by
    unfold isDomainChar at h
    simp only [Bool.or_eq_true, Bool.and_eq_true, decide_eq_true_eq, beq_iff_eq, Char.le_def,
      UInt32.le_iff_toNat_le] at h
    have hz : 'z'.val.toNat < 128 := by decide
    have hnine : '9'.val.toNat < 128 := by decide
    have hval : c.toNat = c.val.toNat := rfl
    rcases h with ((h | h) | rfl) | rfl
    · omega
    · omega
    · decide
    · decide
  have hall : ∀ n < 128, isDomainChar (Char.ofNat n) = true → isSpace (Char.ofNat n) = false ∧
      Char.ofNat n ≠ '@' ∧ isWildcard (Char.ofNat n) = false ∧ (Char.ofNat n).val ≤ 0x7F := by
    decide +kernel
  have hc := hall c.toNat hascii
  rw [Char.ofNat_toNat] at hc
  exact hc h

theorem PlainDomain.inWord {domain : List Char} (h : PlainDomain domain) :
    InWord ('@' :: domain) := by
  refine ⟨List.cons_ne_nil _ _, fun c hc => ?_⟩
  rcases List.mem_cons.mp hc with rfl | hc
  · rfl
  · exact (isDomainChar_plain (h.char c hc)).1

/-! ## The condition -/

/-- White space in a collapsed text is a blank. -/
theorem blank_of_mem_collapse {c : Char} {cs : List Char} (h : c ∈ collapse cs)
    (hc : isSpace c = true) : c = ' ' := by
  induction cs with
  | nil => simp [collapse] at h
  | cons d cs ih =>
      rw [collapse] at h
      split at h
      · split at h
        · exact ih h
        · rcases List.mem_cons.mp h with rfl | h
          · rfl
          · exact ih h
      next hd =>
        rcases List.mem_cons.mp h with rfl | h
        · exact absurd hc hd
        · exact ih h

/-- In a text whose only white space is the blank, a word ends at the end or in front of a blank. -/
theorem hasWordEnd_iff_like {w text : List Char} (hblank : ∀ c ∈ text, isSpace c = true → c = ' ') :
    HasWordEnd w text ↔ w <:+ text ∨ w ++ [' '] <:+: text := by
  constructor
  · rintro ⟨front, back, rfl, hback⟩
    cases back with
    | nil => exact .inl ⟨front, by simp⟩
    | cons b back =>
        have hb := hblank b (by simp) (atBoundary_cons.mp hback)
        subst hb
        exact .inr ⟨front, back, by simp⟩
  · rintro (⟨front, rfl⟩ | ⟨front, back, rfl⟩)
    · exact ⟨front, [], by simp, by simp [AtBoundary]⟩
    · exact ⟨front, ' ' :: back, by simp, atBoundary_cons.mpr rfl⟩

/-- The patterns of `domain:` find the ends of words. -/
theorem domainCondition_iff {column domain : String} (hdomain : PlainDomain domain.toList)
    (hblank : ∀ c ∈ column.toList, isSpace c = true → c = ' ') :
    domainCondition column domain = true ↔ HasWordEnd ('@' :: domain.toList) column.toList := by
  have hplain : ∀ c ∈ '@' :: domain.toList, isWildcard c = false := by
    intro c hc
    rcases List.mem_cons.mp hc with rfl | hc
    · rfl
    · exact (isDomainChar_plain (hdomain.char c hc)).2.2.1
  have hend : '%' :: '@' :: domain.toList = '%' :: escapeLikeWildcards ('@' :: domain.toList) := by
    rw [escapeLikeWildcards_plain hplain]
  have hspace : escapeLikeWildcards [' '] = [' '] := rfl
  have hmid : '%' :: '@' :: (domain.toList ++ [' ', '%']) =
      '%' :: (escapeLikeWildcards ('@' :: domain.toList ++ [' ']) ++ ['%']) := by
    rw [escapeLikeWildcards_append, escapeLikeWildcards_plain hplain, hspace]
    simp
  unfold domainCondition
  rw [hend, hmid, Bool.or_eq_true, like_suffix, like_contains, hasWordEnd_iff_like hblank]

/-- White space around the pieces of a joined text ends their words. -/
theorem hasWordEnd_joined {u : Unicode} (hu : u.Standard) {w : List Char} (hw : InWord w)
    (pieces : List String) : HasWordEnd w (u.fold (" ".intercalate pieces).toList) ↔
      ∃ piece ∈ pieces, HasWordEnd w (u.fold piece.toList) := by
  rw [String.toList_intercalate]
  induction pieces with
  | nil =>
      have hnil : List.intercalate " ".toList (List.map String.toList []) = [] := rfl
      rw [hnil, hu.fold_nil]
      simp [hw.not_hasWordEnd_nil]
  | cons piece pieces ih =>
      cases pieces with
      | nil => simp [List.intercalate]
      | cons next rest =>
          have hsplit : List.intercalate " ".toList ((piece :: next :: rest).map String.toList) =
              piece.toList ++ ' ' :: List.intercalate " ".toList ((next :: rest).map String.toList) := by
            simp [List.intercalate]
          rw [hsplit, hu.fold_boundary _ _ (.inl rfl), hw.hasWordEnd_append _ _ rfl, ih]
          simp only [List.mem_cons, exists_eq_or_imp]

/-! ## One address -/

/-- The two sides of a valid address. -/
theorem parts_of_valid {address : String} (h : isValidAddress address = true) :
    address.toList = localPartOf address ++ '@' :: domainPartOf address ∧
      ∀ c ∈ domainPartOf address, isSpace c = false := by
  obtain ⟨localPart, domain, hsplit, hlocal, hdomain⟩ := isValidAddress_split h
  have hnot : ∀ c ∈ localPart, decide (c ≠ '@') = true := by
    intro c hc
    have hne : c ≠ '@' := by
      rintro rfl
      exact absurd (hlocal '@' hc) (by decide)
    simpa using hne
  have hfront : localPartOf address = localPart := by
    unfold localPartOf
    rw [hsplit, List.takeWhile_append_of_pos hnot, List.takeWhile_cons_of_neg (by simp),
      List.append_nil]
  have hback : domainPartOf address = domain := by
    unfold domainPartOf
    rw [hsplit, List.dropWhile_append_of_pos hnot, List.dropWhile_cons_of_neg (by simp),
      List.drop_one, List.tail_cons]
  rw [hfront, hback]
  exact ⟨hsplit, fun c hc => isAddressPartChar_not_space (hdomain c hc)⟩

/-- A character other than white space survives collapsing and trimming. -/
theorem mem_trimChars_collapse {c : Char} {cs : List Char} (hmem : c ∈ cs)
    (hc : isSpace c = false) : c ∈ trimChars (collapse cs) := by
  have hcollapse : c ∈ collapse cs := by
    induction cs with
    | nil => simp at hmem
    | cons d cs ih =>
        rw [collapse]
        rcases List.mem_cons.mp hmem with rfl | hmem
        · rw [if_neg (by simp [hc])]
          exact List.mem_cons_self
        · split
          · split
            · exact ih hmem
            · exact List.mem_cons_of_mem _ (ih hmem)
          · exact List.mem_cons_of_mem _ (ih hmem)
  have hdrop : ∀ cs : List Char, c ∈ cs → c ∈ cs.dropWhile isSpace := by
    intro cs hcs
    rw [← List.takeWhile_append_dropWhile (p := isSpace) (l := cs)] at hcs
    rcases List.mem_append.mp hcs with hcs | hcs
    · have hspace := List.all_eq_true.mp List.all_takeWhile c hcs
      simp [hc] at hspace
    · exact hcs
  unfold trimChars
  exact List.mem_reverse.mpr (hdrop _ (List.mem_reverse.mpr (hdrop _ hcollapse)))

/-- A text without white space is collapsed and trimmed. -/
theorem trimChars_collapse_word {cs : List Char} (h : ∀ c ∈ cs, isSpace c = false) :
    trimChars (collapse cs) = cs := by
  have hcollapse : collapse cs = cs := by
    induction cs with
    | nil => rfl
    | cons c cs ih =>
        rw [collapse, if_neg (by simp [h c List.mem_cons_self]),
          ih fun d hd => h d (List.mem_cons_of_mem c hd)]
  have htrim : trim (String.ofList cs) = String.ofList cs := trim_of_word (by simpa using h)
  rw [trim_ofList] at htrim
  rw [hcollapse]
  simpa using congrArg String.toList htrim

/-- The domain of an address is a given one exactly when its folded domain part is. -/
theorem domainOf_eq_iff {u : Unicode} (hu : u.Standard) {address domain : String}
    (hvalid : isValidAddress address = true) (hdomain : PlainDomain domain.toList) :
    domainOf u address = domain ↔ u.fold (domainPartOf address) = domain.toList := by
  have hchars : domainOf u address = domain ↔
      trimChars (collapse (u.fold (domainPartOf address))) = domain.toList := by
    unfold domainOf
    rw [← String.toList_inj, normalizeIndexText_toList, String.toList_ofList]
    rfl
  rw [hchars]
  constructor
  · intro hnormal
    have hword : ∀ c ∈ u.fold (domainPartOf address), isSpace c = false := by
      intro b hb
      by_contra hspace
      obtain ⟨front, back, hsplit⟩ := List.append_of_mem hb
      obtain ⟨d, t, rfl, hd, hascii⟩ := hu.fold_blank _ (parts_of_valid hvalid).2 front b back hsplit
        (by simpa using hspace)
      -- the character behind the white space would be in the domain
      have hmem : d ∈ domain.toList := by
        rw [← hnormal]
        exact mem_trimChars_collapse (by rw [hsplit]; simp) hd
      exact absurd hascii (UInt32.not_lt.mpr (isDomainChar_plain (hdomain.char d hmem)).2.2.2)
    rwa [trimChars_collapse_word hword] at hnormal
  · intro hfold
    rw [hfold]
    exact trimChars_collapse_word fun c hc => (isDomainChar_plain (hdomain.char c hc)).1

/-- Where a domain stands at the end of a word of a folded address. -/
theorem hasWordEnd_address {u : Unicode} (hu : u.Standard) {address domain : String}
    (hvalid : isValidAddress address = true) (hdomain : PlainDomain domain.toList) :
    HasWordEnd ('@' :: domain.toList) (u.fold address.toList) ↔
      u.fold (domainPartOf address) = domain.toList ∨ LooksLike u domain.toList address := by
  have hat : '@' ∉ domain.toList := by
    intro hmem
    exact (isDomainChar_plain (hdomain.char '@' hmem)).2.1 rfl
  rw [(parts_of_valid hvalid).1, hu.fold_boundary _ _ (.inr rfl)]
  unfold LooksLike
  generalize u.fold (localPartOf address) = front
  generalize u.fold (domainPartOf address) = back
  constructor
  · rintro ⟨p, q, hsplit, hq⟩
    have hsplit' : front ++ '@' :: back = p ++ ('@' :: (domain.toList ++ q)) := by
      simpa using hsplit
    rcases List.append_eq_append_iff.mp hsplit' with ⟨gap, rfl, hgap⟩ | ⟨gap, rfl, hgap⟩
    · cases gap with
      | nil =>
          obtain ⟨-, rfl⟩ := List.cons.inj hgap
          cases q with
          | nil => exact .inl (by simp)
          | cons b q => exact .inr (.inr (.inl ⟨b, q, rfl, atBoundary_cons.mp hq⟩))
      | cons c gap =>
          obtain ⟨-, rfl⟩ := List.cons.inj hgap
          exact .inr (.inr (.inr ⟨gap, q, by simp, hq⟩))
    · cases gap with
      | nil =>
          obtain ⟨-, rfl⟩ := List.cons.inj hgap
          cases q with
          | nil => exact .inl (by simp)
          | cons b q => exact .inr (.inr (.inl ⟨b, q, rfl, atBoundary_cons.mp hq⟩))
      | cons c gap =>
          obtain ⟨rfl, hrest⟩ := List.cons.inj hgap
          -- the domain stands in the local part, in front of white space
          rcases List.append_eq_append_iff.mp hrest with ⟨tail, rfl, htail⟩ | ⟨tail, hend, htail⟩
          · cases tail with
            | nil =>
                have hblank := hq '@' (by simp [htail])
                exact absurd hblank (by decide)
            | cons b tail =>
                have hb : isSpace b = true := hq b (by simp [htail])
                exact .inr (.inl ⟨p, b, tail, by simp, hb⟩)
          · cases tail with
            | nil =>
                have hblank := hq '@' (by rw [List.nil_append] at htail; simp [← htail])
                exact absurd hblank (by decide)
            | cons b tail =>
                obtain ⟨rfl, -⟩ := List.cons.inj htail
                exact absurd (by simp [hend]) hat
  · rintro (rfl | ⟨p, b, q, rfl, hb⟩ | ⟨b, q, rfl, hb⟩ | ⟨p, q, rfl, hq⟩)
    · exact ⟨front, [], by simp, by simp [AtBoundary]⟩
    · exact ⟨p, b :: q ++ '@' :: back, by simp, atBoundary_cons.mpr hb⟩
    · exact ⟨front, b :: q, by simp, atBoundary_cons.mpr hb⟩
    · exact ⟨front ++ '@' :: p, q, by simp, hq⟩

/-! ## Finding a domain -/

variable {u : Unicode} {matchesText : Message → String → Bool} {db : Database} {m : Message}

/-- `domain:` finds the messages in which a folded address has the domain at the end of a word. -/
theorem finds_domain (hu : u.Standard) {value domain : String} (hvalue : PlainValue value)
    (hdomain : normalizeDomainValue u value = .ok domain) :
    Finds u matchesText db ("domain" ++ ":" ++ value) m ↔
      ∃ address ∈ addressesOf m, HasWordEnd ('@' :: domain.toList) (u.fold address.toList) := by
  have hplain := plainDomain_of_normalize hdomain
  have happly : applyOperator u emptyQuery (toLowerCase "domain") value =
      .ok { emptyQuery with domains := [domain] } := by
    have hname : toLowerCase "domain" = "domain" := rfl
    rw [hname]
    simp [applyOperator, hvalue.requireValue "domain", hdomain, pushValue, emptyQuery, bind,
      Except.bind, pure, Except.pure]
  have hparse : parseSearchQuery u ("domain" ++ ":" ++ value) =
      .ok { emptyQuery with domains := [domain] } :=
    parse_operator hu (by decide +kernel) (by decide +kernel) hvalue happly
  have htext : (addressesText u m).toList =
      trimChars (collapse (u.fold (" ".intercalate (addressesOf m)).toList)) :=
    normalizeIndexText_toList u _
  have hblank : ∀ c ∈ (addressesText u m).toList, isSpace c = true → c = ' ' := by
    intro c hc hspace
    rw [htext] at hc
    exact blank_of_mem_collapse (mem_of_mem_trimChars hc) hspace
  have hword := hplain.inWord
  unfold Finds
  rw [hparse, ← hasWordEnd_joined hu hword, ← hword.hasWordEnd_collapse,
    ← hword.hasWordEnd_trimChars, ← htext, ← domainCondition_iff hplain hblank]
  simp [whereClause, emptyQuery]

/-- `domain:` is exact for a message with valid addresses when one of them has the domain, or when
folding makes it appear in none of them. -/
theorem domain_exact_iff (hu : u.Standard) {value domain : String} (hvalue : PlainValue value)
    (hdomain : normalizeDomainValue u value = .ok domain)
    (hvalid : ∀ address ∈ addressesOf m, isValidAddress address = true) :
    DomainExact u matchesText db value domain m ↔
      (∃ address ∈ addressesOf m, domainOf u address = domain) ∨
        ∀ address ∈ addressesOf m, ¬ LooksLike u domain.toList address := by
  have hplain := plainDomain_of_normalize hdomain
  have haddress : ∀ address ∈ addressesOf m,
      (HasWordEnd ('@' :: domain.toList) (u.fold address.toList) ↔
        domainOf u address = domain ∨ LooksLike u domain.toList address) := by
    intro address hmem
    rw [hasWordEnd_address hu (hvalid address hmem) hplain,
      domainOf_eq_iff hu (hvalid address hmem) hplain]
  unfold DomainExact
  rw [finds_domain hu hvalue hdomain]
  constructor
  · intro hexact
    by_cases hhas : ∃ address ∈ addressesOf m, domainOf u address = domain
    · exact .inl hhas
    · refine .inr fun address hmem hlooks => hhas (hexact.mp ⟨address, hmem, ?_⟩)
      exact (haddress address hmem).mpr (.inr hlooks)
  · intro hcondition
    constructor
    · rintro ⟨address, hmem, hword⟩
      rcases (haddress address hmem).mp hword with hsame | hlooks
      · exact ⟨address, hmem, hsame⟩
      · rcases hcondition with hhas | hnone
        · exact hhas
        · exact absurd hlooks (hnone address hmem)
    · rintro ⟨address, hmem, hsame⟩
      exact ⟨address, hmem, (haddress address hmem).mpr (.inl hsame)⟩

/-! ## Samples -/

/-- A message from one address. -/
def messageFrom (address : String) : Message :=
  { Message.bare 1 1 0 with sender := some ⟨address, none⟩ }

theorem domain_exact_sample :
    DomainExact sampleUnicode (fun _ _ => true) Database.empty "Bank.com" "bank.com"
      (messageFrom "ann@bank.com") := by
  have hvalue : PlainValue "Bank.com" :=
    plainValue_of_all (by decide +kernel) (by decide +kernel)
  have hdomain : normalizeDomainValue sampleUnicode "Bank.com" = .ok "bank.com" := rfl
  have hvalid : ∀ address ∈ addressesOf (messageFrom "ann@bank.com"),
      isValidAddress address = true := by decide +kernel
  have hown : domainOf sampleUnicode "ann@bank.com" = "bank.com" := rfl
  exact (domain_exact_iff sampleUnicode_standard hvalue hdomain hvalid).mpr
    (.inl ⟨"ann@bank.com", List.mem_singleton.mpr rfl, hown⟩)

/-- A full-width at sign in the local part, in front of a spacing mark, makes the domain appear. -/
theorem domain_spoofed :
    isValidAddress "a＠bank.com¨@evil.org" = true ∧
      normalizeDomainValue sampleUnicode "bank.com" = .ok "bank.com" ∧
      Finds sampleUnicode (fun _ _ => true) Database.empty "domain:bank.com"
        (messageFrom "a＠bank.com¨@evil.org") ∧
      ¬ DomainExact sampleUnicode (fun _ _ => true) Database.empty "bank.com" "bank.com"
        (messageFrom "a＠bank.com¨@evil.org") := by
  have hfinds : Finds sampleUnicode (fun _ _ => true) Database.empty "domain:bank.com"
      (messageFrom "a＠bank.com¨@evil.org") :=
    ⟨{ emptyQuery with domains := ["bank.com"] }, rfl, by decide +kernel⟩
  refine ⟨by decide +kernel, rfl, hfinds, fun hexact => ?_⟩
  obtain ⟨address, hmem, hdomain⟩ := hexact.mp hfinds
  obtain rfl : address = "a＠bank.com¨@evil.org" := List.mem_singleton.mp hmem
  have hother : domainOf sampleUnicode "a＠bank.com¨@evil.org" = "evil.org" := rfl
  rw [hother] at hdomain
  exact absurd hdomain (by decide)

end MailHub.Search
