import MailHub.Compose.Reply
import Mathlib.Data.Finset.Card
import Mathlib.Data.List.DropRight

/-!
# What a derived reply is addressed to

The recipients that a reply derives from its parent are normalized, distinct, none of the owner's
own, and cover all that the parent names openly. A draft is read back through the recipient
validation, which bounds each list; the derivation does not.
-/

namespace MailHub

/-! ## Normalization is idempotent -/

/-- A trimmed text has no white space at either end. -/
theorem trim_trim (s : String) : trim (trim s) = trim s := by
  have hdrop : ∀ l : List Char, (l.dropWhile isSpace).rdropWhile isSpace =
      (((l.dropWhile isSpace).rdropWhile isSpace).dropWhile isSpace).rdropWhile isSpace := by
    intro l
    have hfront : (((l.dropWhile isSpace).rdropWhile isSpace).dropWhile isSpace) =
        (l.dropWhile isSpace).rdropWhile isSpace := by
      rw [List.dropWhile_eq_self_iff]
      intro hpos hspace
      have hfront := List.rdropWhile_prefix isSpace (l.dropWhile isSpace)
      have hlen : 0 < (l.dropWhile isSpace).length := by
        have hle := hfront.length_le
        omega
      rw [hfront.getElem hpos] at hspace
      exact List.dropWhile_eq_self_iff.mp (List.dropWhile_idempotent isSpace l) hlen hspace
    rw [hfront, List.rdropWhile_idempotent]
  have htoList : ∀ s : String, (trim s).toList =
      (s.toList.dropWhile isSpace).rdropWhile isSpace := by
    intro s
    unfold trim List.rdropWhile
    rw [String.toList_ofList]
  apply String.toList_inj.mp
  rw [htoList, htoList s]
  exact (hdrop s.toList).symm

/-- The characters of an address: none is white space, and each is its own lower case. -/
def isAddressChar (c : Char) : Bool := isLocalChar c || c == '@'

theorem toNat_of_isAddressChar {c : Char} (h : isAddressChar c = true) : c.toNat < 128 := by
  have hrange : ∀ d : Char, c ≤ d → d.toNat < 128 → c.toNat < 128 := by
    intro d hle hd
    have hval : c.toNat ≤ d.toNat := hle
    omega
  simp only [isAddressChar, isLocalChar, isAlnum, Bool.or_eq_true, Bool.and_eq_true,
    decide_eq_true_eq, beq_iff_eq] at h
  rcases h with ((⟨-, hle⟩ | ⟨-, hle⟩) | hmem) | rfl
  · exact hrange 'z' hle (by decide)
  · exact hrange '9' hle (by decide)
  · have hall : (".!#$%&'*+/=?^_`\x7b|\x7d~-".toList.all fun d => d.toNat < 128) = true := by
      decide +kernel
    exact of_decide_eq_true (List.all_eq_true.mp hall c hmem)
  · decide

/-- White space and capitals are no address characters. -/
theorem plain_of_isAddressChar {c : Char} (h : isAddressChar c = true) :
    isSpace c = false ∧ lowerChar c = c := by
  have hall : ∀ n < 128, isAddressChar (Char.ofNat n) = true →
      isSpace (Char.ofNat n) = false ∧ lowerChar (Char.ofNat n) = Char.ofNat n := by
    decide +kernel
  have hc := hall c.toNat (toNat_of_isAddressChar h)
  rw [Char.ofNat_toNat] at hc
  exact hc h

/-- A domain consists of address characters. -/
theorem domain_chars {domain : List Char}
    (h : ((splitList '.' domain).all isDomainLabel) = true) :
    ∀ c ∈ domain, isAddressChar c = true := by
  intro c hc
  rcases mem_of_splitList '.' hc with rfl | ⟨label, hlabel, hc⟩
  · decide
  · have hchars := List.all_eq_true.mp h label hlabel
    simp only [isDomainLabel, Bool.and_eq_true] at hchars
    have hchar := List.all_eq_true.mp hchars.1.1.2 c hc
    rcases Bool.or_eq_true_iff.mp hchar with halnum | hhyphen
    · simp [isAddressChar, isLocalChar, halnum]
    · rw [beq_iff_eq] at hhyphen
      subst hhyphen
      decide

/-- An address consists of address characters. -/
theorem isEmailAddress_chars {text : String} (h : isEmailAddress text = true) :
    ∀ c ∈ text.toList, isAddressChar c = true := by
  intro c hc
  unfold isEmailAddress at h
  split at h
  next localPart domain hpieces =>
    simp only [Bool.and_eq_true] at h
    obtain ⟨⟨⟨-, hlocal⟩, -⟩, hdomain⟩ := h
    rcases mem_of_splitList '@' hc with rfl | ⟨piece, hpiece, hc⟩
    · decide
    · rw [hpieces] at hpiece
      rcases List.mem_cons.mp hpiece with rfl | hpiece
      · simp [isAddressChar, List.all_eq_true.mp hlocal c hc]
      · obtain rfl := List.mem_singleton.mp hpiece
        exact domain_chars hdomain c hc
  next => simp at h

/-- An address is its own key. -/
theorem addressKey_of_isEmailAddress {text : String} (h : isEmailAddress text = true) :
    addressKey text = text := by
  have hchars := isEmailAddress_chars h
  have hspace : ∀ l : List Char, (∀ c ∈ l, isAddressChar c = true) → l.dropWhile isSpace = l := by
    intro l hl
    rw [List.dropWhile_eq_self_iff]
    intro hpos
    rw [(plain_of_isAddressChar (hl _ (List.getElem_mem hpos))).1]
    decide
  have htrim : trim text = text := by
    unfold trim
    rw [hspace _ hchars, hspace _ (by simpa using hchars), List.reverse_reverse,
      String.ofList_toList]
  unfold addressKey toLowerCase
  rw [htrim]
  have hmap : text.toList.map lowerChar = text.toList := by
    conv_rhs => rw [← List.map_id text.toList]
    exact List.map_congr_left fun c hc => (plain_of_isAddressChar (hchars c hc)).2
  rw [hmap, String.ofList_toList]

/-- A normalized address is the key of its input and is normalized already. -/
theorem normalizeEmailAddress_of_ok {input address : String}
    (h : normalizeEmailAddress input = .ok address) :
    address = addressKey input ∧ addressKey address = address ∧
      normalizeEmailAddress address = .ok address := by
  have hnormal : address = addressKey input ∧ isEmailAddress address = true := by
    unfold normalizeEmailAddress at h
    simp only at h
    split at h
    next hvalid =>
      obtain rfl : toLowerCase (trim input) = address := by simpa using h
      exact ⟨rfl, hvalid⟩
    next => simp at h
  have hkey := addressKey_of_isEmailAddress hnormal.2
  refine ⟨hnormal.1, hkey, ?_⟩
  unfold addressKey at hkey
  unfold normalizeEmailAddress
  simp only [hkey]
  rw [if_pos hnormal.2]

/-- A normalized display name is normalized already. -/
theorem normalizeAddressName_of_ok {input name : Option String}
    (h : normalizeAddressName input = .ok name) : normalizeAddressName name = .ok name := by
  unfold normalizeAddressName at h ⊢
  cases input with
  | none =>
      obtain rfl : none = name := by simpa [normalizeOptionalText] using h
      rfl
  | some input =>
      simp only [normalizeOptionalText] at h
      split at h
      next =>
        obtain rfl : none = name := by simpa using h
        rfl
      next hblank =>
        split at h
        next => simp at h
        next hbound =>
          obtain rfl : some (trim input) = name := by simpa using h
          simp only [normalizeOptionalText, trim_trim]
          rw [if_neg hblank, if_neg hbound]

/-! ## Derived lists -/

variable {own seen : List String} {entries list : List EmailAddress} {field : String}

/-- The keys of a list of addresses. -/
def keysOf (entries : List EmailAddress) : List String :=
  entries.map fun entry => addressKey entry.address

/-- A list that was derived from some entries: each of their addresses once, without those of the
owner and those of an earlier list, in the form in which a draft stores them. -/
structure Derives (own seen : List String) (entries list : List EmailAddress) : Prop where
  nodup : (list.map (·.address)).Nodup
  mem : ∀ a, a ∈ list.map (·.address) ↔ a ∈ keysOf entries ∧ a ∉ own ∧ a ∉ seen
  address : ∀ e ∈ list, normalizeEmailAddress e.address = .ok e.address
  name : ∀ e ∈ list, normalizeAddressName e.name = .ok e.name

/-- A name that breaks the rules is dropped, and what is left is a name that keeps them. -/
theorem normalizeAddressName_toOption (name : Option String) :
    normalizeAddressName (normalizeAddressName name).toOption.join =
      .ok (normalizeAddressName name).toOption.join := by
  cases h : normalizeAddressName name with
  | error e => rfl
  | ok name' => exact normalizeAddressName_of_ok h

theorem derives_of_usableAddresses (h : usableAddresses own seen entries = .ok list) :
    Derives own seen entries list := by
  induction entries generalizing seen list with
  | nil =>
      obtain rfl : [] = list := by simpa [usableAddresses] using h
      exact ⟨List.nodup_nil, by simp [keysOf], by simp, by simp⟩
  | cons entry entries ih =>
      rw [usableAddresses] at h
      split at h
      next => simp at h
      next address hnormal =>
        obtain ⟨hkey, -, hagain⟩ := normalizeEmailAddress_of_ok hnormal
        have hkeys : keysOf (entry :: entries) = address :: keysOf entries := by
          rw [hkey]
          rfl
        by_cases hdrop : address ∈ own ∨ address ∈ seen
        · rw [if_pos hdrop] at h
          obtain ⟨hnodup, hmem, haddress, hname⟩ := ih h
          refine ⟨hnodup, fun a => ?_, haddress, hname⟩
          rw [hmem, hkeys, List.mem_cons]
          constructor
          · rintro ⟨ha, hrest⟩
            exact ⟨.inr ha, hrest⟩
          · rintro ⟨rfl | ha, hown, hseen⟩
            · exact absurd hdrop (by simp [hown, hseen])
            · exact ⟨ha, hown, hseen⟩
        · rw [if_neg hdrop] at h
          simp only [not_or] at hdrop
          simp only [Interleaving.bind_eq_ok, Interleaving.pure_eq_ok] at h
          obtain ⟨rest, hrest, rfl⟩ := h
          obtain ⟨hnodup, hmem, haddress, hname⟩ := ih hrest
          have hfresh : address ∉ rest.map (·.address) := by
            intro hin
            exact ((hmem address).mp hin).2.2 List.mem_cons_self
          refine ⟨List.nodup_cons.mpr ⟨hfresh, hnodup⟩, fun a => ?_, fun e he => ?_,
            fun e he => ?_⟩
          · rw [List.map_cons, List.mem_cons, hmem, hkeys, List.mem_cons, List.mem_cons, not_or]
            constructor
            · rintro (rfl | ⟨ha, hown, -, hseen⟩)
              · exact ⟨.inl rfl, hdrop⟩
              · exact ⟨.inr ha, hown, hseen⟩
            · rintro ⟨rfl | ha, hown, hseen⟩
              · exact .inl rfl
              · by_cases heq : a = address
                · exact .inl heq
                · exact .inr ⟨ha, hown, heq, hseen⟩
          · rcases List.mem_cons.mp he with rfl | he
            · exact hagain
            · exact haddress e he
          · rcases List.mem_cons.mp he with rfl | he
            · exact normalizeAddressName_toOption entry.name
            · exact hname e he

/-- How many addresses a derived list has: those of the entries, without the owner's and without
those of the earlier list. -/
theorem Derives.length_eq (h : Derives own seen entries list) :
    list.length = ((keysOf entries).toFinset \ (own ++ seen).toFinset).card := by
  have hset : (list.map (·.address)).toFinset =
      (keysOf entries).toFinset \ (own ++ seen).toFinset := by
    ext a
    simp only [List.mem_toFinset, Finset.mem_sdiff, h.mem, List.mem_append, not_or]
  rw [← hset, List.toFinset_card_of_nodup h.nodup, List.length_map]

/-- The validation leaves a list in draft form as it is. -/
theorem normalizeAddresses_of_derived (hnodup : (list.map (·.address)).Nodup)
    (hseen : ∀ a ∈ list.map (·.address), a ∉ seen)
    (haddress : ∀ e ∈ list, normalizeEmailAddress e.address = .ok e.address)
    (hname : ∀ e ∈ list, normalizeAddressName e.name = .ok e.name) :
    normalizeAddresses field seen list = .ok list := by
  induction list generalizing seen with
  | nil => rfl
  | cons e list ih =>
      obtain ⟨hfresh, hnodup⟩ := List.nodup_cons.mp hnodup
      have hnew : e.address ∉ seen := hseen _ List.mem_cons_self
      have hrest : normalizeAddresses field (e.address :: seen) list = .ok list := by
        refine ih hnodup (fun a ha => ?_) (fun e he => haddress e (List.mem_cons_of_mem _ he))
          fun e he => hname e (List.mem_cons_of_mem _ he)
        rw [List.mem_cons, not_or]
        refine ⟨fun heq => hfresh ?_, hseen a (List.mem_cons_of_mem _ ha)⟩
        rw [heq] at ha
        exact ha
      rw [normalizeAddresses, haddress e List.mem_cons_self]
      simp [hnew, hname e List.mem_cons_self, hrest]

/-- The validation accepts a derived list exactly when it is short enough. -/
theorem normalizeAddressList_of_derived (h : Derives own seen entries list) :
    normalizeAddressList list field = .ok list ↔ list.length ≤ listMax := by
  unfold normalizeAddressList
  by_cases hlong : listMax < list.length
  · rw [if_pos hlong]
    simp only [reduceCtorEq, false_iff]
    omega
  · rw [if_neg hlong, normalizeAddresses_of_derived h.nodup (by simp) h.address h.name]
    simp only [true_iff]
    omega

/-- The keys of a derived list are its addresses. -/
theorem Derives.keysOf_eq (h : Derives own seen entries list) :
    keysOf list = list.map (·.address) := by
  unfold keysOf
  exact List.map_congr_left fun e he => (normalizeEmailAddress_of_ok (h.address e he)).2.1

/-! ## Replies -/

/-- The keys of the owner's own addresses. -/
def ownKeys (identities : List AccountIdentity) : List String :=
  identities.map fun identity => addressKey identity.address

/-- The entries of a parent that the To list and the Cc list of a reply derive from. -/
def replySources (parent : Message) (own : List String) (mode : ReplyMode) :
    List EmailAddress × List EmailAddress :=
  let visible := parent.recipients.getD { «to» := [] }
  if parent.sender.any fun sender => addressKey sender.address ∈ own then
    (visible.«to», visible.cc)
  else
    (parent.replyTo.getD parent.sender.toList,
      match mode with
      | .reply => []
      | .replyAll => visible.«to» ++ visible.cc)

/-- The parent names at most as many addresses for each list of the reply as a list may hold, the
owner's own ones and repetitions apart. -/
def WithinLimits (parent : Message) (identities : List AccountIdentity) (mode : ReplyMode) : Prop :=
  let own := (ownKeys identities).toFinset
  let first := (keysOf (replySources parent (ownKeys identities) mode).1).toFinset
  let second := (keysOf (replySources parent (ownKeys identities) mode).2).toFinset
  (first \ own).card ≤ listMax ∧ (second \ (own ∪ first)).card ≤ listMax

instance (parent : Message) (identities : List AccountIdentity) (mode : ReplyMode) :
    Decidable (WithinLimits parent identities mode) :=
  inferInstanceAs (Decidable (_ ∧ _))

/-- What a reply is addressed to. -/
structure Addressed (parent : Message) (identities : List AccountIdentity) (mode : ReplyMode)
    (r : Recipients) : Prop where
  /-- The validation that a draft is read back through accepts it as it is. -/
  accepted : normalizeRecipients (some r) = .ok r
  /-- No address appears twice. -/
  distinct : (keysOf (r.«to» ++ r.cc)).Nodup
  /-- No identity of the owner appears. -/
  notOwn : ∀ e ∈ r.«to» ++ r.cc, addressKey e.address ∉ ownKeys identities
  /-- A reply to all names every other visible recipient of the parent exactly once. -/
  visible : mode = .replyAll → ∀ visible, parent.recipients = some visible →
    ∀ e ∈ visible.«to» ++ visible.cc, addressKey e.address ∉ ownKeys identities →
      (keysOf (r.«to» ++ r.cc)).count (addressKey e.address) = 1
  /-- No blind copy is derived, and none of the parent matters. -/
  bcc : r.bcc = [] ∧ ∀ bcc, deriveReplyRecipients
    { parent with recipients := parent.recipients.map fun rs => { rs with bcc } } identities mode =
      .ok r

variable {parent : Message} {identities : List AccountIdentity} {mode : ReplyMode} {r : Recipients}

/-- The lists of a reply derive from their sources. -/
theorem derives_of_deriveReplyRecipients (h : deriveReplyRecipients parent identities mode = .ok r) :
    Derives (ownKeys identities) [] (replySources parent (ownKeys identities) mode).1 r.«to» ∧
      Derives (ownKeys identities) (r.«to».map (·.address))
        (replySources parent (ownKeys identities) mode).2 r.cc ∧ r.bcc = [] := by
  unfold deriveReplyRecipients at h
  unfold replySources
  simp only at h ⊢
  change (if (parent.sender.any fun sender => addressKey sender.address ∈ ownKeys identities) =
    true then _ else _) = _ at h
  by_cases hown : (parent.sender.any fun sender =>
      addressKey sender.address ∈ ownKeys identities) = true
  · rw [if_pos hown] at h ⊢
    simp only [Interleaving.bind_eq_ok, Interleaving.pure_eq_ok] at h
    obtain ⟨toList, hto, ccList, hcc, -, -, rfl⟩ := h
    exact ⟨derives_of_usableAddresses hto, derives_of_usableAddresses hcc, rfl⟩
  · rw [if_neg hown] at h ⊢
    simp only [Interleaving.bind_eq_ok] at h
    obtain ⟨primary, hprimary, toList, hto, hrest⟩ := h
    have hsource : primary = parent.replyTo.getD parent.sender.toList := by
      unfold primaryRecipients at hprimary
      split at hprimary
      next hreply => rw [hreply, ← Except.ok.inj hprimary]; rfl
      next => simp at hprimary
      next replyTo _ hreply => rw [hreply, ← Except.ok.inj hprimary]; rfl
    rw [← hsource]
    cases mode with
    | reply =>
        simp only [Interleaving.bind_eq_ok, Interleaving.pure_eq_ok] at hrest
        obtain ⟨-, -, rfl⟩ := hrest
        exact ⟨derives_of_usableAddresses hto, derives_of_usableAddresses rfl, rfl⟩
    | replyAll =>
        simp only [Interleaving.bind_eq_ok, Interleaving.pure_eq_ok] at hrest
        obtain ⟨ccList, hcc, -, -, rfl⟩ := hrest
        exact ⟨derives_of_usableAddresses hto, derives_of_usableAddresses hcc, rfl⟩

/-- The validation bounds the lists of recipients. -/
theorem lengths_of_normalizeRecipients {input out : Recipients}
    (h : normalizeRecipients (some input) = .ok out) :
    input.«to».length ≤ listMax ∧ input.cc.length ≤ listMax := by
  simp only [normalizeRecipients, Interleaving.bind_eq_ok] at h
  obtain ⟨toList, htoList, ccList, hccList, -⟩ := h
  have hshort : ∀ {input out : List EmailAddress} {name : String},
      normalizeAddressList input name = .ok out → input.length ≤ listMax := by
    intro input out name hlist
    unfold normalizeAddressList at hlist
    split at hlist
    · simp at hlist
    · omega
  exact ⟨hshort htoList, hshort hccList⟩

/-- The validation accepts the lists of a reply exactly when both are short enough. -/
theorem normalizeRecipients_of_derives {first second : List EmailAddress}
    (hto : Derives own [] first r.«to») (hcc : Derives own (r.«to».map (·.address)) second r.cc)
    (hbcc : r.bcc = []) :
    normalizeRecipients (some r) = .ok r ↔ r.«to».length ≤ listMax ∧ r.cc.length ≤ listMax := by
  have hdrop : dropSeen r.cc r.«to» = r.cc := by
    unfold dropSeen
    rw [List.filter_eq_self]
    intro e he
    have hmem : e.address ∈ r.cc.map (·.address) := List.mem_map_of_mem he
    simpa using ((hcc.mem e.address).mp hmem).2.2
  have hshape : r = { «to» := r.«to», cc := r.cc, bcc := [] } := by
    cases r
    simp only at hbcc
    subst hbcc
    rfl
  constructor
  · exact lengths_of_normalizeRecipients
  · rintro ⟨hshort, hshort'⟩
    have htoList : normalizeAddressList r.«to» "To" = .ok r.«to» :=
      (normalizeAddressList_of_derived hto).mpr hshort
    have hccList : normalizeAddressList r.cc "Cc" = .ok r.cc :=
      (normalizeAddressList_of_derived hcc).mpr hshort'
    have hbccList : normalizeAddressList r.bcc "Bcc" = .ok [] := by
      rw [hbcc]
      rfl
    simp only [normalizeRecipients, htoList, hccList, hbccList]
    change Except.ok ({ «to» := r.«to», cc := dropSeen r.cc r.«to», bcc := [] } : Recipients) = _
    rw [hdrop, ← hshape]

/-- Every visible recipient of the parent but the owner is a source of a reply to all. -/
theorem mem_replySources {visible : Recipients} (hvisible : parent.recipients = some visible)
    {e : EmailAddress} (he : e ∈ visible.«to» ++ visible.cc) :
    addressKey e.address ∈ keysOf (replySources parent own .replyAll).1 ∨
      addressKey e.address ∈ keysOf (replySources parent own .replyAll).2 := by
  unfold replySources
  rw [hvisible]
  simp only [Option.getD_some]
  split
  · rcases List.mem_append.mp he with hto | hcc
    · exact .inl (List.mem_map.mpr ⟨e, hto, rfl⟩)
    · exact .inr (List.mem_map.mpr ⟨e, hcc, rfl⟩)
  · exact .inr (List.mem_map.mpr ⟨e, he, rfl⟩)

/-- A reply that derives its recipients is addressed well exactly when its parent names few enough
addresses for each list. -/
theorem deriveReplyRecipients_addressed_iff
    (h : deriveReplyRecipients parent identities mode = .ok r) :
    Addressed parent identities mode r ↔ WithinLimits parent identities mode := by
  obtain ⟨hto, hcc, hbcc⟩ := derives_of_deriveReplyRecipients h
  have hkeys : keysOf (r.«to» ++ r.cc) = r.«to».map (·.address) ++ r.cc.map (·.address) := by
    rw [← hto.keysOf_eq, ← hcc.keysOf_eq]
    exact List.map_append
  have hdistinct : (keysOf (r.«to» ++ r.cc)).Nodup := by
    rw [hkeys, List.nodup_append]
    refine ⟨hto.nodup, hcc.nodup, fun a ha b hb heq => ?_⟩
    exact ((hcc.mem b).mp hb).2.2 (heq ▸ ha)
  have hlengths : WithinLimits parent identities mode ↔
      r.«to».length ≤ listMax ∧ r.cc.length ≤ listMax := by
    have hfirst : (r.«to».map (·.address)).toFinset =
        (keysOf (replySources parent (ownKeys identities) mode).1).toFinset \
          (ownKeys identities).toFinset := by
      ext a
      simp [hto.mem]
    rw [hto.length_eq, hcc.length_eq, List.append_nil, List.toFinset_append, hfirst,
      Finset.union_sdiff_self_eq_union]
    rfl
  rw [hlengths]
  constructor
  · intro haddressed
    exact (normalizeRecipients_of_derives hto hcc hbcc).mp haddressed.accepted
  · intro hshort
    refine ⟨(normalizeRecipients_of_derives hto hcc hbcc).mpr hshort, hdistinct, ?_, ?_, hbcc, ?_⟩
    · intro e he
      rcases List.mem_append.mp he with he | he
      · have hmem := (hto.mem e.address).mp (List.mem_map_of_mem he)
        rw [(normalizeEmailAddress_of_ok (hto.address e he)).2.1]
        exact hmem.2.1
      · have hmem := (hcc.mem e.address).mp (List.mem_map_of_mem he)
        rw [(normalizeEmailAddress_of_ok (hcc.address e he)).2.1]
        exact hmem.2.1
    · rintro rfl visible hvisible e he hown
      refine List.count_eq_one_of_mem hdistinct ?_
      rw [hkeys, List.mem_append]
      by_cases hfirst : addressKey e.address ∈ r.«to».map (·.address)
      · exact .inl hfirst
      · rcases mem_replySources hvisible he with hsource | hsource
        · exact .inl ((hto.mem _).mpr ⟨hsource, hown, List.not_mem_nil⟩)
        · exact .inr ((hcc.mem _).mpr ⟨hsource, hown, hfirst⟩)
    · intro bcc
      rw [← h]
      unfold deriveReplyRecipients
      cases parent.recipients <;> rfl

/-! ### A sample -/

/-- One of many distinct addresses. -/
def sampleAddress (k : ℕ) : String :=
  String.ofList (List.replicate (k / 2 + 1) (if k % 2 = 0 then 'a' else 'b') ++ "@x.io".toList)

/-- The entries of the first sample addresses. -/
def sampleEntries (n : ℕ) : List EmailAddress :=
  (List.range n).map fun k => ⟨sampleAddress k, none⟩

/-- A parent from one sender to the owner, with some addresses in Cc. -/
def sampleParent (n : ℕ) : Message :=
  { Message.bare 1 1 0 with
    sender := some ⟨"ann@x.org", some "Ann"⟩
    recipients := some { «to» := [⟨"Me@x.org", none⟩], cc := sampleEntries n } }

/-- The owner's identities. -/
def sampleIdentities : List AccountIdentity := [⟨⟨"me@x.org", none⟩, true⟩]

/-- The recipients of a reply to all of the sample parent. -/
def sampleReplied (n : ℕ) : Recipients where
  «to» := [⟨"ann@x.org", some "Ann"⟩]
  cc := sampleEntries n

/-- Characters without the separator are one piece. -/
theorem splitList_append {sep : Char} {l rest : List Char} (h : sep ∉ l) :
    splitList sep (l ++ sep :: rest) = l :: splitList sep rest := by
  induction l with
  | nil => simp [splitList]
  | cons c l ih =>
      simp only [List.mem_cons, not_or] at h
      rw [List.cons_append, splitList, if_neg (Ne.symm h.1), ih h.2]

theorem isEmailAddress_sampleAddress {k : ℕ} (hk : k < 128) :
    isEmailAddress (sampleAddress k) = true := by
  have hletter : ∀ c, c = 'a' ∨ c = 'b' → c ≠ '@' ∧ isLocalChar c = true := by
    rintro c (rfl | rfl) <;> decide
  obtain ⟨hat, hlocal⟩ := hletter (if k % 2 = 0 then 'a' else 'b') (by split <;> simp)
  have hpieces : splitList '@' (sampleAddress k).toList =
      [List.replicate (k / 2 + 1) (if k % 2 = 0 then 'a' else 'b'), "x.io".toList] := by
    have hdomain : splitList '@' "x.io".toList = ["x.io".toList] := by decide
    unfold sampleAddress
    rw [String.toList_ofList, ← hdomain]
    exact splitList_append fun hmem => hat (List.eq_of_mem_replicate hmem).symm
  have hlabels : 2 ≤ (splitList '.' "x.io".toList).length ∧
      (splitList '.' "x.io".toList).all isDomainLabel = true := by
    decide
  unfold isEmailAddress
  rw [hpieces]
  simp only [List.length_replicate, Bool.and_eq_true, decide_eq_true_eq]
  refine ⟨⟨⟨⟨by omega, by omega⟩, ?_⟩, hlabels.1⟩, hlabels.2⟩
  rw [List.all_eq_true]
  intro c hc
  rw [List.eq_of_mem_replicate hc]
  exact hlocal

theorem sampleAddress_injective : Function.Injective sampleAddress := by
  intro k k' h
  unfold sampleAddress at h
  have hlists := List.append_cancel_right (String.ofList_injective h)
  have hlength := congrArg List.length hlists
  simp only [List.length_replicate] at hlength
  have hhead := congrArg List.head? hlists
  simp only [List.replicate_succ, List.head?_cons, Option.some.injEq] at hhead
  have hparity : k % 2 = 0 ↔ k' % 2 = 0 := by
    by_cases hk : k % 2 = 0 <;> by_cases hk' : k' % 2 = 0 <;> simp [hk, hk'] at hhead ⊢
  omega

/-- The derivation leaves new addresses in normal form as they are. -/
theorem usableAddresses_of_fresh (hnodup : (list.map (·.address)).Nodup)
    (hfresh : ∀ a ∈ list.map (·.address), a ∉ own ∧ a ∉ seen)
    (haddress : ∀ e ∈ list, normalizeEmailAddress e.address = .ok e.address)
    (hname : ∀ e ∈ list, e.name = none) : usableAddresses own seen list = .ok list := by
  induction list generalizing seen with
  | nil => rfl
  | cons e list ih =>
      obtain ⟨hnew, hnodup⟩ := List.nodup_cons.mp hnodup
      obtain ⟨hown, hseen⟩ := hfresh e.address List.mem_cons_self
      have hrest : usableAddresses own (e.address :: seen) list = .ok list := by
        refine ih hnodup (fun a ha => ?_) (fun e he => haddress e (List.mem_cons_of_mem _ he))
          fun e he => hname e (List.mem_cons_of_mem _ he)
        have hlater := hfresh a (List.mem_cons_of_mem _ ha)
        refine ⟨hlater.1, ?_⟩
        rw [List.mem_cons, not_or]
        refine ⟨fun heq => hnew ?_, hlater.2⟩
        rw [heq] at ha
        exact ha
      have hnone := hname e List.mem_cons_self
      rw [usableAddresses, haddress e List.mem_cons_self]
      simp only
      rw [if_neg (by simp [hown, hseen]), hrest, hnone]
      cases e
      simp only at hnone
      subst hnone
      rfl

theorem deriveReplyRecipients_sampleParent {n : ℕ} (hn : n ≤ 128) :
    deriveReplyRecipients (sampleParent n) sampleIdentities .replyAll = .ok (sampleReplied n) := by
  have haddresses : (sampleEntries n).map (·.address) = (List.range n).map sampleAddress := by
    simp [sampleEntries]
  have hchars : ∀ a ∈ (sampleEntries n).map (·.address), isEmailAddress a = true ∧
      ∃ l, a = String.ofList (l ++ "@x.io".toList) := by
    rw [haddresses]
    intro a ha
    obtain ⟨k, hk, rfl⟩ := List.mem_map.mp ha
    have hlt := List.mem_range.mp hk
    exact ⟨isEmailAddress_sampleAddress (by omega), _, rfl⟩
  have hcc : usableAddresses ["me@x.org"] ["ann@x.org"] (sampleEntries n) =
      .ok (sampleEntries n) := by
    apply usableAddresses_of_fresh
    · rw [haddresses]
      exact List.nodup_range.map sampleAddress_injective
    · intro a ha
      obtain ⟨-, l, rfl⟩ := hchars a ha
      have hlast : ∀ s : String, s.toList.getLast? ≠ some 'o' →
          String.ofList (l ++ "@x.io".toList) ∉ [s] := by
        intro s hs hmem
        apply hs
        rw [← List.mem_singleton.mp hmem, String.toList_ofList, List.getLast?_append]
        rfl
      exact ⟨hlast _ (by decide), hlast _ (by decide)⟩
    · intro e he
      have hvalid := (hchars e.address (List.mem_map_of_mem he)).1
      have hkey := addressKey_of_isEmailAddress hvalid
      unfold addressKey at hkey
      unfold normalizeEmailAddress
      simp only [hkey]
      rw [if_pos hvalid]
    · intro e he
      obtain ⟨k, -, rfl⟩ := List.mem_map.mp he
      rfl
  have hto : usableAddresses ["me@x.org"] [] [⟨"ann@x.org", some "Ann"⟩] =
      .ok [⟨"ann@x.org", some "Ann"⟩] := by
    rfl
  have hme : ∀ rest, usableAddresses ["me@x.org"] ["ann@x.org"] (⟨"Me@x.org", none⟩ :: rest) =
      usableAddresses ["me@x.org"] ["ann@x.org"] rest := by
    intro rest
    have hnormal : normalizeEmailAddress "Me@x.org" = .ok "me@x.org" := by rfl
    rw [usableAddresses, hnormal]
    simp
  have hownKeys : sampleIdentities.map (fun identity => addressKey identity.address) =
      ["me@x.org"] := by
    decide +kernel
  have hsender : ¬ (((sampleParent n).sender.any fun sender =>
      addressKey sender.address ∈ ["me@x.org"]) = true) := by
    change ¬ (decide (addressKey "ann@x.org" ∈ ["me@x.org"]) = true)
    decide +kernel
  have hprimary : primaryRecipients (sampleParent n) = .ok [⟨"ann@x.org", some "Ann"⟩] := rfl
  have hvisible : (sampleParent n).recipients =
      some { «to» := [⟨"Me@x.org", none⟩], cc := sampleEntries n } := rfl
  unfold deriveReplyRecipients
  simp only [hownKeys, if_neg hsender, hprimary, hvisible, Option.getD_some]
  refine Interleaving.bind_eq_ok.mpr ⟨_, rfl, Interleaving.bind_eq_ok.mpr ⟨_, hto, ?_⟩⟩
  exact Interleaving.bind_eq_ok.mpr ⟨_, (hme _).trans hcc,
    Interleaving.bind_eq_ok.mpr ⟨(), rfl, rfl⟩⟩

/-- A reply to all of a message to more than a hundred people cannot be stored. -/
theorem replyAll_refused : ∃ r,
    deriveReplyRecipients (sampleParent 101) sampleIdentities .replyAll = .ok r ∧
      ¬ Addressed (sampleParent 101) sampleIdentities .replyAll r := by
  refine ⟨sampleReplied 101, deriveReplyRecipients_sampleParent (by omega), fun haddressed => ?_⟩
  have hlengths := (lengths_of_normalizeRecipients haddressed.accepted).2
  simp [sampleReplied, sampleEntries, listMax] at hlengths

/-- A reply to all of a message to the owner and two others. -/
theorem deriveReplyRecipients_addressed_sample :
    Addressed (sampleParent 2) sampleIdentities .replyAll (sampleReplied 2) :=
  (deriveReplyRecipients_addressed_iff (deriveReplyRecipients_sampleParent (by omega))).mpr
    (by decide +kernel)

end MailHub
