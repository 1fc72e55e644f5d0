import MailHub.Compose.Addressing
import MailHub.Compose.Service

/-!
# Recipient lines

The draft editor shows a recipient list as one line of text and reads the line back at every edit of
a recipient field. The server keeps display names verbatim, with the very characters that the line
is cut at.
-/

namespace MailHub

/-! ## Parsing and formatting -/

/-- The characters that a recipient line is cut at: `[,;]`. -/
def isRecipientSeparator (c : Char) : Bool := c == ',' || c == ';'

/-- The name and the address of an entry that matches `^([^<]*)<([^>]+)>$`. -/
def bracketed (entry : String) : Option (String × String) :=
  match entry.toList.dropWhile (· != '<') with
  | [] => none
  | _ :: rest =>
      let address := rest.takeWhile (· != '>')
      if address ≠ [] ∧ rest.dropWhile (· != '>') = ['>'] then
        some (String.ofList (entry.toList.takeWhile (· != '<')), String.ofList address)
      else none

/-- The recipient that one entry stands for: `Name <address>`, or the entry verbatim. -/
def parseRecipient (entry : String) : EmailAddress :=
  match bracketed entry with
  | some (name, address) => ⟨trim address, if trim name = "" then none else some (trim name)⟩
  | none => ⟨entry, none⟩

/-- Parse one recipient line. -/
def parseRecipientList (text : String) : List EmailAddress :=
  let entries := (text.toList.splitOnP isRecipientSeparator).map fun e => trim (String.ofList e)
  (entries.filter (· ≠ "")).map parseRecipient

/-- One recipient as text: `Name <address>` when named. -/
def recipientText (entry : EmailAddress) : String :=
  match entry.name with
  | none => entry.address
  | some name => if name = "" then entry.address else s!"{name} <{entry.address}>"

/-- One recipient line from an address list. -/
def formatRecipientList (addresses : List EmailAddress) : String :=
  ", ".intercalate (addresses.map recipientText)

/-- The recipient line of the draft editor. -/
def listToText (list : List EmailAddress) : String := ", ".intercalate (list.map recipientText)

/-! ## The fields of the draft editor -/

/-- The text fields of the draft editor. -/
structure DraftFields where
  identity : String
  «to» : String
  cc : String
  bcc : String
  subject : String
  markdown : String

/-- The fields that show one draft. -/
def fieldsOf (draft : DraftRecord) : DraftFields where
  identity := draft.identity.address
  «to» := listToText draft.recipients.«to»
  cc := listToText draft.recipients.cc
  bcc := listToText draft.recipients.bcc
  subject := draft.subject.getD ""
  markdown := draft.markdown

/-- The recipients that the fields stand for. -/
def recipientsOf (fields : DraftFields) : Recipients where
  «to» := parseRecipientList fields.«to»
  cc := parseRecipientList fields.cc
  bcc := parseRecipientList fields.bcc

/-- One recipient field of the editor. -/
inductive RecipientField
  | «to» | cc | bcc
  deriving DecidableEq, Repr

/-- The fields after the owner wrote one recipient field. -/
def DraftFields.setRecipients (fields : DraftFields) (text : String) :
    RecipientField → DraftFields
  | .«to» => { fields with «to» := text }
  | .cc => { fields with cc := text }
  | .bcc => { fields with bcc := text }

/-- The list of one field. -/
def RecipientField.listOf (recipients : Recipients) : RecipientField → List EmailAddress
  | .«to» => recipients.«to»
  | cc => recipients.cc
  | bcc => recipients.bcc

/-- The recipients that the editor saves when the owner writes one recipient field of a draft that
it just opened. -/
def editedRecipients (draft : DraftRecord) (field : RecipientField) (text : String) : Recipients :=
  recipientsOf ((fieldsOf draft).setRecipients text field)

/-! ## Trimming -/

/-- White space in front is trimmed. -/
theorem trimChars_space (cs : List Char) : trimChars (' ' :: cs) = trimChars cs := by
  unfold trimChars
  rw [List.dropWhile_cons_of_pos (by decide)]

/-- A text that neither starts nor ends with white space is trimmed. -/
theorem trimChars_of_ends {c d : Char} {cs : List Char} (hc : isSpace c = false)
    (hd : isSpace d = false) : trimChars (c :: (cs ++ [d])) = c :: (cs ++ [d]) := by
  have hrev : (c :: (cs ++ [d])).reverse = d :: (cs.reverse ++ [c]) := by simp
  unfold trimChars
  rw [List.dropWhile_cons_of_neg (by simp [hc]), hrev, List.dropWhile_cons_of_neg (by simp [hd]),
    ← hrev, List.reverse_reverse]

/-- A trimmed text does not start with white space. -/
theorem head_of_trimChars {c : Char} {cs : List Char} (h : trimChars (c :: cs) = c :: cs) :
    isSpace c = false := by
  by_contra hspace
  have hlength := congrArg List.length h
  have hfirst : ((c :: cs).dropWhile isSpace).length ≤ cs.length := by
    rw [List.dropWhile_cons_of_pos (by simpa using hspace)]
    exact (List.dropWhile_sublist isSpace).length_le
  have hsecond : (trimChars (c :: cs)).length ≤ ((c :: cs).dropWhile isSpace).length := by
    unfold trimChars
    rw [List.length_reverse]
    refine (List.dropWhile_sublist isSpace).length_le.trans ?_
    rw [List.length_reverse]
  rw [List.length_cons] at hlength
  omega

/-- Trimming takes the space behind a trimmed text. -/
theorem trimChars_append_space {c : Char} {cs : List Char} (h : trimChars (c :: cs) = c :: cs) :
    trimChars (c :: cs ++ [' ']) = c :: cs := by
  have hc := head_of_trimChars h
  have hspace : isSpace ' ' = true := by decide
  unfold trimChars at h ⊢
  rw [List.dropWhile_cons_of_neg (by simp [hc])] at h
  rw [List.cons_append, List.dropWhile_cons_of_neg (by simp [hc]), ← List.cons_append,
    List.reverse_append, List.reverse_singleton, List.singleton_append,
    List.dropWhile_cons_of_pos hspace]
  exact h

/-! ## Stored recipients -/

/-- A recipient as the validation stores it: a valid address, and a trimmed name if any. -/
structure StoredRecipient (entry : EmailAddress) : Prop where
  address : isEmailAddress entry.address = true
  name : ∀ name ∈ entry.name, name ≠ "" ∧ trim name = name

/-- What the validation accepts as an address is one. -/
theorem isEmailAddress_of_normalize {input address : String}
    (h : normalizeEmailAddress input = .ok address) : isEmailAddress address = true := by
  simp only [normalizeEmailAddress] at h
  split at h
  next hvalid =>
    obtain rfl : toLowerCase (trim input) = address := by simpa using h
    exact hvalid
  next => simp at h

/-- A display name that the validation keeps is trimmed and not empty. -/
theorem trim_of_normalizeAddressName {input : Option String} {name : String}
    (h : normalizeAddressName input = .ok (some name)) : name ≠ "" ∧ trim name = name := by
  unfold normalizeAddressName at h
  cases input with
  | none => simp [normalizeOptionalText] at h
  | some input =>
      simp only [normalizeOptionalText] at h
      split at h
      next => simp at h
      next hblank =>
        split at h
        next => simp at h
        next =>
          obtain rfl : trim input = name := by simpa using h
          exact ⟨hblank, trim_trim input⟩

/-- Normalized lists hold stored recipients. -/
theorem normalizeAddresses_stored {field : String} {seen : List String}
    {input list : List EmailAddress} (h : normalizeAddresses field seen input = .ok list) :
    ∀ entry ∈ list, StoredRecipient entry := by
  induction input generalizing seen list with
  | nil =>
      obtain rfl : [] = list := by simpa [normalizeAddresses] using h
      simp
  | cons item items ih =>
      simp [normalizeAddresses] at h
      obtain ⟨address, haddress, -, name, hname, rest, hrest, rfl⟩ := h
      intro entry hentry
      rcases List.mem_cons.mp hentry with rfl | hmem
      · refine ⟨isEmailAddress_of_normalize haddress, fun name' hname' => ?_⟩
        obtain rfl : name = some name' := hname'
        exact trim_of_normalizeAddressName hname
      · exact ih hrest entry hmem

theorem normalizeAddressList_stored {field : String} {input list : List EmailAddress}
    (h : normalizeAddressList input field = .ok list) : ∀ entry ∈ list, StoredRecipient entry := by
  unfold normalizeAddressList at h
  split at h
  · simp at h
  · exact normalizeAddresses_stored h

/-- Every list that the validation stores holds stored recipients. -/
theorem normalizeRecipients_stored {input : Option Recipients} {stored : Recipients}
    (h : normalizeRecipients input = .ok stored) (field : RecipientField) :
    ∀ entry ∈ field.listOf stored, StoredRecipient entry := by
  cases input with
  | none =>
      obtain rfl : { «to» := [] } = stored := by simpa [normalizeRecipients] using h
      cases field <;> simp [RecipientField.listOf]
  | some input =>
      simp [normalizeRecipients] at h
      obtain ⟨toList, hto, ccList, hcc, bccList, hbcc, rfl⟩ := h
      intro entry hentry
      cases field with
      | «to» => exact normalizeAddressList_stored hto entry hentry
      | cc => exact normalizeAddressList_stored hcc entry (List.mem_of_mem_filter hentry)
      | bcc => exact normalizeAddressList_stored hbcc entry (List.mem_of_mem_filter hentry)

/-- A list as the validation leaves it: distinct normalized addresses with normalized names. -/
structure NormalizedList (list : List EmailAddress) : Prop where
  nodup : (list.map (·.address)).Nodup
  address : ∀ entry ∈ list, normalizeEmailAddress entry.address = .ok entry.address
  name : ∀ entry ∈ list, normalizeAddressName entry.name = .ok entry.name
  length : list.length ≤ listMax

theorem normalizeAddresses_ok {field : String} {seen : List String} {input list : List EmailAddress}
    (h : normalizeAddresses field seen input = .ok list) (hshort : input.length ≤ listMax) :
    NormalizedList list ∧ (∀ a ∈ list.map (·.address), a ∉ seen) ∧ list.length = input.length := by
  induction input generalizing seen list with
  | nil =>
      obtain rfl : [] = list := by simpa [normalizeAddresses] using h
      exact ⟨⟨List.nodup_nil, by simp, by simp, hshort⟩, by simp, rfl⟩
  | cons item items ih =>
      simp [normalizeAddresses] at h
      obtain ⟨address, haddress, hfresh, name, hname, rest, hrest, rfl⟩ := h
      obtain ⟨hlist, hseen, hlength⟩ := ih hrest (Nat.le_of_succ_le hshort)
      obtain ⟨-, -, hagain⟩ := normalizeEmailAddress_of_ok haddress
      have hnew : address ∉ rest.map (·.address) := fun hin => hseen _ hin List.mem_cons_self
      refine ⟨⟨?_, ?_, ?_, ?_⟩, ?_, ?_⟩
      · exact List.nodup_cons.mpr ⟨hnew, hlist.nodup⟩
      · intro entry hentry
        rcases List.mem_cons.mp hentry with rfl | hmem
        · exact hagain
        · exact hlist.address entry hmem
      · intro entry hentry
        rcases List.mem_cons.mp hentry with rfl | hmem
        · exact normalizeAddressName_of_ok hname
        · exact hlist.name entry hmem
      · rw [List.length_cons, hlength]
        exact hshort
      · intro a ha
        rcases List.mem_cons.mp ha with rfl | hmem
        · exact hfresh
        · exact fun hin => hseen a hmem (List.mem_cons_of_mem _ hin)
      · rw [List.length_cons, List.length_cons, hlength]

theorem normalizeAddressList_ok {field : String} {input list : List EmailAddress}
    (h : normalizeAddressList input field = .ok list) : NormalizedList list := by
  unfold normalizeAddressList at h
  split at h
  next => simp at h
  next hshort => exact (normalizeAddresses_ok h (by omega)).1

/-- The validation leaves a normalized list as it is. -/
theorem NormalizedList.fixed {list : List EmailAddress} (h : NormalizedList list) (field : String) :
    normalizeAddressList list field = .ok list := by
  unfold normalizeAddressList
  rw [if_neg (Nat.not_lt.mpr h.length)]
  exact normalizeAddresses_of_derived h.nodup (by simp) h.address h.name

/-- What the validation drops leaves a normalized list. -/
theorem NormalizedList.dropSeen {list : List EmailAddress} (h : NormalizedList list)
    (earlier : List EmailAddress) : NormalizedList (dropSeen list earlier) where
  nodup := h.nodup.sublist (List.filter_sublist.map _)
  address := fun entry hentry => h.address entry (List.mem_of_mem_filter hentry)
  name := fun entry hentry => h.name entry (List.mem_of_mem_filter hentry)
  length := (List.length_filter_le _ _).trans h.length

/-- Nothing is left to drop twice. -/
theorem dropSeen_dropSeen (list earlier : List EmailAddress) :
    dropSeen (dropSeen list earlier) earlier = dropSeen list earlier := by
  unfold dropSeen
  rw [List.filter_filter]
  simp only [Bool.and_self]

/-- Normalized recipients are normalized already. -/
theorem normalizeRecipients_normalized {input out : Recipients}
    (h : normalizeRecipients (some input) = .ok out) : normalizeRecipients (some out) = .ok out := by
  simp [normalizeRecipients] at h
  obtain ⟨toList, hto, ccList, hcc, bccList, hbcc, rfl⟩ := h
  have htoList := (normalizeAddressList_ok hto).fixed "To"
  have hccList := ((normalizeAddressList_ok hcc).dropSeen toList).fixed "Cc"
  have hbccList := ((normalizeAddressList_ok hbcc).dropSeen
    (toList ++ dropSeen ccList toList)).fixed "Bcc"
  simp [normalizeRecipients, htoList, hccList, hbccList, dropSeen_dropSeen]

/-! ## One entry -/

/-- A display name that no character of the line syntax stands in. -/
def PlainName (name : String) : Prop := ∀ c ∈ name.toList, c ≠ ',' ∧ c ≠ ';' ∧ c ≠ '<'

/-- No display name of the list has a character of the line syntax. -/
def PlainNames (list : List EmailAddress) : Prop :=
  ∀ entry ∈ list, ∀ name ∈ entry.name, PlainName name

instance (name : String) : Decidable (PlainName name) :=
  List.decidableBAll (fun c => c ≠ ',' ∧ c ≠ ';' ∧ c ≠ '<') name.toList

section

variable {entry : EmailAddress} {name : String}

/-- The characters of an address are none of the line syntax and no white space. -/
theorem StoredRecipient.address_char (h : StoredRecipient entry) {c : Char}
    (hc : c ∈ entry.address.toList) : c ≠ ',' ∧ c ≠ ';' ∧ c ≠ '<' ∧ c ≠ '>' ∧ isSpace c = false := by
  have hchar := isEmailAddress_chars h.address c hc
  refine ⟨?_, ?_, ?_, ?_, (plain_of_isAddressChar hchar).1⟩
  all_goals
    rintro rfl
    revert hchar
    decide

theorem StoredRecipient.address_ne_nil (h : StoredRecipient entry) : entry.address.toList ≠ [] := by
  intro hnil
  have haddress := h.address
  simp [isEmailAddress, hnil, splitList] at haddress

/-- An address is trimmed. -/
theorem StoredRecipient.trim_address (h : StoredRecipient entry) :
    trimChars entry.address.toList = entry.address.toList := by
  have hspace : ∀ cs : List Char, (∀ c ∈ cs, isSpace c = false) → cs.dropWhile isSpace = cs := by
    intro cs hcs
    cases cs with
    | nil => rfl
    | cons c cs => rw [List.dropWhile_cons_of_neg (by simp [hcs c List.mem_cons_self])]
  have hchars : ∀ c ∈ entry.address.toList, isSpace c = false :=
    fun c hc => (h.address_char hc).2.2.2.2
  unfold trimChars
  rw [hspace _ hchars, hspace _ (by simpa using hchars), List.reverse_reverse]

/-- The text of a recipient: its address, after the name and inside brackets if it has a name. -/
theorem StoredRecipient.text (h : StoredRecipient entry) :
    (entry.name = none ∧ (recipientText entry).toList = entry.address.toList) ∨
      ∃ name, entry.name = some name ∧ (recipientText entry).toList =
        name.toList ++ ' ' :: '<' :: (entry.address.toList ++ ['>']) := by
  unfold recipientText
  cases hname : entry.name with
  | none => exact .inl ⟨rfl, rfl⟩
  | some name =>
      refine .inr ⟨name, rfl, ?_⟩
      have hblank : name ≠ "" := (h.name name hname).1
      simp only [hblank, if_false, String.toList_append, List.append_assoc]
      rfl

/-- The characters of a stored name: a first one that is no white space, and the name is trimmed. -/
theorem StoredRecipient.name_chars (h : StoredRecipient entry) (hname : entry.name = some name) :
    ∃ c cs, name.toList = c :: cs ∧ trimChars (c :: cs) = c :: cs := by
  obtain ⟨hblank, htrim⟩ := h.name name hname
  cases hcs : name.toList with
  | nil => exact absurd (String.toList_eq_nil_iff.mp hcs) hblank
  | cons c cs =>
      refine ⟨c, cs, rfl, ?_⟩
      have hofList := trim_ofList name.toList
      rw [String.ofList_toList, htrim] at hofList
      have hchars := congrArg String.toList hofList
      rw [String.toList_ofList, hcs] at hchars
      exact hchars.symm

/-- The text of a recipient is trimmed and not empty. -/
theorem StoredRecipient.trim_text (h : StoredRecipient entry) :
    trim (recipientText entry) = recipientText entry ∧ recipientText entry ≠ "" := by
  have hchars : trimChars (recipientText entry).toList = (recipientText entry).toList ∧
      (recipientText entry).toList ≠ [] := by
    rcases h.text with ⟨-, htext⟩ | ⟨name, hname, htext⟩
    · rw [htext]
      exact ⟨h.trim_address, h.address_ne_nil⟩
    · obtain ⟨c, cs, hcs, htrim⟩ := h.name_chars hname
      have hends : (recipientText entry).toList =
          c :: ((cs ++ ' ' :: '<' :: entry.address.toList) ++ ['>']) := by
        rw [htext, hcs]
        simp
      rw [hends]
      exact ⟨trimChars_of_ends (head_of_trimChars htrim) (by decide), List.cons_ne_nil _ _⟩
  constructor
  · have hofList := trim_ofList (recipientText entry).toList
    rwa [String.ofList_toList, hchars.1, String.ofList_toList] at hofList
  · intro hnil
    exact hchars.2 (by rw [hnil]; rfl)

/-- An entry with a plain name reads back. -/
theorem parseRecipient_text (h : StoredRecipient entry)
    (hplain : ∀ name ∈ entry.name, PlainName name) :
    parseRecipient (recipientText entry) = entry := by
  have hopen : ∀ c ∈ entry.address.toList, (c != '<') = true :=
    fun c hc => by simpa using (h.address_char hc).2.2.1
  have hclose : ∀ c ∈ entry.address.toList, (c != '>') = true :=
    fun c hc => by simpa using (h.address_char hc).2.2.2.1
  rcases h.text with ⟨hname, htext⟩ | ⟨name, hname, htext⟩
  · have hnone : bracketed (recipientText entry) = none := by
      unfold bracketed
      rw [htext, List.dropWhile_eq_nil_iff.mpr hopen]
    have hsame : recipientText entry = entry.address := String.toList_inj.mp htext
    unfold parseRecipient
    rw [hnone, hsame, ← hname]
  · have hbefore : ∀ c ∈ name.toList, (c != '<') = true :=
      fun c hc => by simpa using (hplain name hname c hc).2.2
    have hdrop : (recipientText entry).toList.dropWhile (· != '<') =
        '<' :: (entry.address.toList ++ ['>']) := by
      rw [htext, List.dropWhile_append_of_pos hbefore]
      rfl
    have htake : (recipientText entry).toList.takeWhile (· != '<') = name.toList ++ [' '] := by
      rw [htext, List.takeWhile_append_of_pos hbefore]
      rfl
    have hsome : bracketed (recipientText entry) =
        some (String.ofList (name.toList ++ [' ']), entry.address) := by
      unfold bracketed
      rw [hdrop, htake]
      have haddress : (entry.address.toList ++ ['>']).takeWhile (· != '>') =
          entry.address.toList := by
        rw [List.takeWhile_append_of_pos hclose]
        exact List.append_nil _
      have hrest : (entry.address.toList ++ ['>']).dropWhile (· != '>') = ['>'] := by
        rw [List.dropWhile_append_of_pos hclose]
        rfl
      simp only [haddress, hrest, String.ofList_toList]
      rw [if_pos ⟨h.address_ne_nil, trivial⟩]
    obtain ⟨c, cs, hcs, htrim⟩ := h.name_chars hname
    have htrimmed : trim (String.ofList (name.toList ++ [' '])) = name := by
      rw [trim_ofList, hcs, trimChars_append_space htrim, ← hcs, String.ofList_toList]
    have htrimAddress : trim entry.address = entry.address := by
      have hofList := trim_ofList entry.address.toList
      rwa [String.ofList_toList, h.trim_address, String.ofList_toList] at hofList
    unfold parseRecipient
    rw [hsome]
    simp only [htrimmed, htrimAddress]
    rw [if_neg (h.name name hname).1, ← hname]

end

/-! ## One line -/

/-- Entries without a separator that are joined by a comma and a space come apart again. -/
theorem splitOnP_joined {t : List Char} {ts : List (List Char)}
    (h : ∀ u ∈ t :: ts, ∀ c ∈ u, isRecipientSeparator c = false) :
    (List.intercalate [',', ' '] (t :: ts)).splitOnP isRecipientSeparator =
      t :: ts.map (' ' :: ·) := by
  induction ts generalizing t with
  | nil =>
      rw [List.intercalate_singleton]
      exact List.splitOnP_eq_singleton (h t List.mem_cons_self)
  | cons u ts ih =>
      have hrest := ih fun v hv => h v (List.mem_cons_of_mem _ hv)
      rw [List.intercalate_cons_cons, List.append_assoc]
      change (t ++ ',' :: (' ' :: List.intercalate [',', ' '] (u :: ts))).splitOnP _ = _
      rw [List.splitOnP_append_cons_of_forall_mem (h t List.mem_cons_self) ',' (by decide),
        List.splitOnP_cons_eq_if_modifyHead, if_neg (by decide), hrest]
      rfl

/-- No piece of a split list holds a separator. -/
theorem not_separator_of_splitOnP {p : Char → Bool} {cs piece : List Char}
    (h : piece ∈ cs.splitOnP p) : ∀ c ∈ piece, p c = false := by
  induction cs generalizing piece with
  | nil =>
      obtain rfl : piece = [] := by simpa using h
      simp
  | cons d cs ih =>
      rw [List.splitOnP_cons_eq_if_modifyHead] at h
      by_cases hd : p d = true
      · rw [if_pos hd] at h
        rcases List.mem_cons.mp h with rfl | hmem
        · simp
        · exact ih hmem
      · rw [if_neg hd] at h
        cases hsplit : cs.splitOnP p with
        | nil =>
            rw [hsplit] at h
            cases h
        | cons first rest =>
            rw [hsplit] at h ih
            rcases List.mem_cons.mp h with rfl | hmem
            · intro c hc
              rcases List.mem_cons.mp hc with rfl | hc
              · simpa using hd
              · exact ih List.mem_cons_self c hc
            · exact ih (List.mem_cons_of_mem _ hmem)

/-- A name that was read from a line is plain. -/
theorem plainNames_parse (text : String) : PlainNames (parseRecipientList text) := by
  intro entry hentry name hname c hc
  obtain ⟨piece, hpiece, rfl⟩ := List.mem_map.mp hentry
  obtain ⟨hmem, -⟩ := List.mem_filter.mp hpiece
  obtain ⟨chars, hchars, rfl⟩ := List.mem_map.mp hmem
  have hseparator : ∀ d ∈ (trim (String.ofList chars)).toList, isRecipientSeparator d = false := by
    intro d hd
    rw [trim_ofList, String.toList_ofList] at hd
    exact not_separator_of_splitOnP hchars d (mem_of_mem_trimChars hd)
  -- a name stands in front of the first bracket of its entry
  unfold parseRecipient at hname
  cases hbracketed : bracketed (trim (String.ofList chars)) with
  | none => simp [hbracketed] at hname
  | some parts =>
      obtain ⟨before, address⟩ := parts
      simp only [hbracketed] at hname
      split at hname
      next => simp at hname
      next =>
        obtain rfl : trim before = name := by simpa using hname
        have hbefore : before = String.ofList
            ((trim (String.ofList chars)).toList.takeWhile (· != '<')) := by
          unfold bracketed at hbracketed
          split at hbracketed
          next => simp at hbracketed
          next =>
            simp only at hbracketed
            split at hbracketed
            next => exact (Prod.mk.inj (Option.some.inj hbracketed)).1.symm
            next => simp at hbracketed
        rw [hbefore, trim_ofList, String.toList_ofList] at hc
        have htake := mem_of_mem_trimChars hc
        have hplain := hseparator c ((List.takeWhile_sublist _).subset htake)
        simp only [isRecipientSeparator, Bool.or_eq_false_iff, beq_eq_false_iff_ne] at hplain
        have hopen : (c != '<') = true := List.mem_takeWhile_imp (p := fun d => d != '<') htake
        exact ⟨hplain.1, hplain.2, by simpa using hopen⟩

/-- A line of stored recipients with plain names reads back. -/
theorem parseRecipientList_joined {list : List EmailAddress}
    (h : ∀ entry ∈ list, StoredRecipient entry) (hplain : PlainNames list) :
    parseRecipientList (", ".intercalate (list.map recipientText)) = list := by
  have hchars : ∀ u ∈ (list.map recipientText).map String.toList, ∀ c ∈ u,
      isRecipientSeparator c = false := by
    intro u hu c hc
    rw [List.map_map] at hu
    obtain ⟨entry, hentry, rfl⟩ := List.mem_map.mp hu
    have hstored := h entry hentry
    have haddress : ∀ d ∈ entry.address.toList, isRecipientSeparator d = false := by
      intro d hd
      obtain ⟨hcomma, hsemicolon, -⟩ := hstored.address_char hd
      simp [isRecipientSeparator, hcomma, hsemicolon]
    rcases hstored.text with ⟨-, htext⟩ | ⟨name, hname, htext⟩
    · exact haddress c (htext ▸ hc)
    · have hc' : c ∈ name.toList ++ ' ' :: '<' :: (entry.address.toList ++ ['>']) := htext ▸ hc
      simp only [List.mem_append, List.mem_cons, List.mem_nil_iff, or_false] at hc'
      rcases hc' with hc' | rfl | rfl | hc' | rfl
      · obtain ⟨hcomma, hsemicolon, -⟩ := hplain entry hentry name hname c hc'
        simp [isRecipientSeparator, hcomma, hsemicolon]
      · decide
      · decide
      · exact haddress c hc'
      · decide
  cases list with
  | nil => decide
  | cons first rest =>
      have hjoined : (", ".intercalate ((first :: rest).map recipientText)).toList =
          List.intercalate [',', ' '] (((first :: rest).map recipientText).map String.toList) :=
        String.toList_intercalate
      have hpieces : ∀ u ∈ (recipientText first).toList ::
          (rest.map recipientText).map String.toList, ∀ c ∈ u, isRecipientSeparator c = false :=
        hchars
      have hsplit := splitOnP_joined hpieces
      have htrimmed : ∀ entry ∈ rest,
          trim (String.ofList (' ' :: (recipientText entry).toList)) = recipientText entry := by
        intro entry hentry
        rw [trim_ofList, trimChars_space, ← trim_ofList, String.ofList_toList]
        exact (h entry (List.mem_cons_of_mem _ hentry)).trim_text.1
      have hentries : ((recipientText first).toList ::
          ((rest.map recipientText).map String.toList).map (' ' :: ·)).map
            (fun e => trim (String.ofList e)) = (first :: rest).map recipientText := by
        rw [List.map_cons, List.map_cons, String.ofList_toList,
          (h first List.mem_cons_self).trim_text.1, List.map_map, List.map_map, List.map_map]
        refine congrArg (List.cons _) (List.map_congr_left fun entry hentry => ?_)
        simp only [Function.comp_apply]
        exact htrimmed entry hentry
      have hkept : ((first :: rest).map recipientText).filter (· ≠ "") =
          (first :: rest).map recipientText := by
        rw [List.filter_eq_self]
        intro text htext
        obtain ⟨entry, hentry, rfl⟩ := List.mem_map.mp htext
        simpa using (h entry hentry).trim_text.2
      unfold parseRecipientList
      simp only
      rw [hjoined, List.map_cons, List.map_cons, hsplit, hentries, hkept, List.map_map]
      conv_rhs => rw [← List.map_id (first :: rest)]
      exact List.map_congr_left fun entry hentry =>
        parseRecipient_text (h entry hentry) (hplain entry hentry)

/-- A line of stored recipients reads back exactly when the names are plain. -/
theorem parseRecipientList_joined_iff {list : List EmailAddress}
    (h : ∀ entry ∈ list, StoredRecipient entry) :
    parseRecipientList (", ".intercalate (list.map recipientText)) = list ↔ PlainNames list := by
  constructor
  · intro hread
    rw [← hread]
    exact plainNames_parse _
  · exact parseRecipientList_joined h

/-! ## The editor -/

/-- The stored lists of one draft survive the editor: each reads back from its line, and writing one
recipient field saves the other lists as they are. -/
structure RecipientsKept (draft : DraftRecord) : Prop where
  listToText : ∀ field : RecipientField,
    parseRecipientList (listToText (field.listOf draft.recipients)) =
      field.listOf draft.recipients
  formatRecipientList : ∀ field : RecipientField,
    parseRecipientList (formatRecipientList (field.listOf draft.recipients)) =
      field.listOf draft.recipients
  edit : ∀ (field other : RecipientField) (text : String), other ≠ field →
    other.listOf (editedRecipients draft field text) = other.listOf draft.recipients

/-- What the editor saves for a field that the owner did not write. -/
theorem listOf_editedRecipients {draft : DraftRecord} {field other : RecipientField} {text : String}
    (h : other ≠ field) : other.listOf (editedRecipients draft field text) =
      parseRecipientList (listToText (other.listOf draft.recipients)) := by
  cases field <;> cases other <;> first | rfl | exact absurd rfl h

/-- The recipients of a draft survive the editor exactly when no display name holds a comma, a
semicolon or an opening bracket. -/
theorem recipients_kept_iff {draft : DraftRecord} {input : Option Recipients}
    (h : normalizeRecipients input = .ok draft.recipients) :
    RecipientsKept draft ↔ ∀ field : RecipientField, PlainNames (field.listOf draft.recipients) := by
  have hiff : ∀ field : RecipientField,
      parseRecipientList (listToText (field.listOf draft.recipients)) =
        field.listOf draft.recipients ↔ PlainNames (field.listOf draft.recipients) :=
    fun field => parseRecipientList_joined_iff (normalizeRecipients_stored h field)
  constructor
  · intro hkept field
    exact (hiff field).mp (hkept.listToText field)
  · intro hplain
    refine ⟨fun field => (hiff field).mpr (hplain field),
      fun field => (hiff field).mpr (hplain field), fun field other text hne => ?_⟩
    rw [listOf_editedRecipients hne]
    exact (hiff other).mpr (hplain other)

/-! ## Samples -/

/-- A draft to one recipient with one named recipient in copy. -/
def namedDraft (name : String) : DraftRecord where
  id := 10
  accountId := 1
  identity := ⟨"a@b.cc", none⟩
  recipients := { «to» := [⟨"bob@x.org", none⟩], cc := [⟨"jane@x.org", some name⟩] }
  subject := none
  markdown := ""
  revision := 1
  lockedBySend := none
  replyParentId := none
  threadId := none
  inReplyTo := none
  referenceIds := []
  updatedAt := 0

theorem recipients_kept_sample : RecipientsKept (namedDraft "Jane Doe") := by
  have hstored : normalizeRecipients (some (namedDraft "Jane Doe").recipients) =
      .ok (namedDraft "Jane Doe").recipients := rfl
  refine (recipients_kept_iff hstored).mpr fun field entry hentry name hname => ?_
  cases field with
  | «to» =>
      obtain rfl := List.mem_singleton.mp hentry
      cases hname
  | cc =>
      obtain rfl := List.mem_singleton.mp hentry
      obtain rfl : "Jane Doe" = name := Option.some.inj hname
      decide
  | bcc => cases hentry

/-- Writing the To field splits the recipient in copy at the comma of its name. -/
theorem recipients_split :
    normalizeRecipients (some (namedDraft "Doe, Jane").recipients) =
        .ok (namedDraft "Doe, Jane").recipients ∧
      (editedRecipients (namedDraft "Doe, Jane") .«to» "bob@y.org").cc =
        [⟨"Doe", none⟩, ⟨"jane@x.org", some "Jane"⟩] ∧
      ¬ RecipientsKept (namedDraft "Doe, Jane") := by
  have hedited : (editedRecipients (namedDraft "Doe, Jane") .«to» "bob@y.org").cc =
      [⟨"Doe", none⟩, ⟨"jane@x.org", some "Jane"⟩] := by decide +kernel
  refine ⟨rfl, hedited, fun hkept => ?_⟩
  have hcc := hkept.edit .«to» .cc "bob@y.org" (by decide)
  change (editedRecipients _ _ _).cc = _ at hcc
  rw [hedited] at hcc
  revert hcc
  decide

end MailHub
