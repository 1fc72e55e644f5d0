import MailHub.Search.Service

/-!
# Searching for an address

`from:` and `to:` look for a text at the end of an index column, in front of an at sign, and in
front of a final blank; the columns are trimmed, so the last pattern never matches. A full address
is therefore found where the text of its list ends with it, as it does for a sender and for the last
recipient, or where it stands in front of an at sign.
-/

namespace MailHub.Search

open MailHub Relational

/-! ## The two operators -/

/-- The operators that search for an address. -/
inductive AddressField
  | «from» | «to»
  deriving DecidableEq, Repr

namespace AddressField

/-- The name of the operator. -/
def operator : AddressField → String
  | «from» => "from"
  | «to» => "to"

/-- The participants that the operator searches. -/
def entries (m : Message) : AddressField → List EmailAddress
  | «from» => m.sender.toList
  | «to» => (m.recipients.map Recipients.all).getD []

/-- The column that the operator searches. -/
def column (u : Unicode) (m : Message) : AddressField → String
  | «from» => senderText u m
  | «to» => recipientsText u m

end AddressField

/-- The folded list text ends with a folded address, or has it directly in front of an at sign. -/
def StandsAtEnd (u : Unicode) (column address : String) : Prop :=
  (normalizeIndexText u address).toList <:+ column.toList ∨
    (normalizeIndexText u address).toList ++ ['@'] <:+: column.toList

/-! ## The condition -/

/-- The pattern of a full address in front of a blank never matches a trimmed text. -/
theorem addressCondition_iff {column value : String} {cs : List Char}
    (htrim : column.toList = trimChars cs) : addressCondition column value = true ↔
      value.toList <:+ column.toList ∨ value.toList ++ ['@'] <:+: column.toList := by
  have hsign : escapeLikeWildcards ['@'] = ['@'] := rfl
  have hspace : escapeLikeWildcards [' '] = [' '] := rfl
  have hat : escapeLikeWildcards value.toList ++ ['@', '%'] =
      escapeLikeWildcards (value.toList ++ ['@']) ++ ['%'] := by
    rw [escapeLikeWildcards_append, hsign]
    simp
  have hblank : escapeLikeWildcards value.toList ++ [' '] =
      escapeLikeWildcards (value.toList ++ [' ']) := by
    rw [escapeLikeWildcards_append, hspace]
  have hnever : like ('%' :: escapeLikeWildcards (value.toList ++ [' '])) column.toList = false := by
    rw [Bool.eq_false_iff]
    intro hmatch
    rw [like_suffix, htrim] at hmatch
    exact not_suffix_trimChars rfl hmatch
  have hlast : (if '@' ∈ value.toList then
      ['%' :: (escapeLikeWildcards value.toList ++ [' '])] else []).any
        (fun pattern => like pattern column.toList) = false := by
    rw [hblank]
    split
    · simp [hnever]
    · rfl
  unfold addressCondition
  simp only [List.any_append, hlast, Bool.or_false]
  rw [hat]
  simp only [List.any_cons, List.any_nil, Bool.or_false, Bool.or_eq_true, like_suffix,
    like_contains]

theorem column_trimmed (u : Unicode) (m : Message) (field : AddressField) :
    ∃ cs, (field.column u m).toList = trimChars cs := by
  cases field
  · exact ⟨_, normalizeIndexText_toList u _⟩
  · exact ⟨_, normalizeIndexText_toList u _⟩

/-- A valid address needs no quotes in a query. -/
theorem plainValue_of_valid {address : String} (h : isValidAddress address = true) :
    PlainValue address := by
  obtain ⟨localPart, domain, hsplit, hlocal, hdomain⟩ := isValidAddress_split h
  have hpart : ∀ c, isAddressPartChar c = true → isBreak c = false := by
    intro c hc
    have hne : c ≠ '"' := by
      rintro rfl
      exact absurd hc (by decide)
    simp [isBreak, isAddressPartChar_not_space hc, hne]
  refine ⟨by simp [hsplit], fun c hc => ?_⟩
  rw [hsplit] at hc
  rcases List.mem_append.mp hc with hc | hc
  · exact hpart c (hlocal c hc)
  · rcases List.mem_cons.mp hc with rfl | hc
    · rfl
    · exact hpart c (hdomain c hc)

/-! ## The last address -/

/-- A text is a piece, or ends with it behind a blank. -/
def EndsWithPiece (text piece : List Char) : Prop :=
  text = piece ∨ ∃ front, text = front ++ ' ' :: piece

theorem EndsWithPiece.trans {text piece last : List Char} (h : EndsWithPiece text piece)
    (hlast : EndsWithPiece piece last) : EndsWithPiece text last := by
  rcases h with rfl | ⟨front, rfl⟩
  · exact hlast
  · rcases hlast with rfl | ⟨front', rfl⟩
    · exact .inr ⟨front, rfl⟩
    · exact .inr ⟨front ++ ' ' :: front', by simp⟩

theorem EndsWithPiece.indexChars_suffix {u : Unicode} (hu : u.Standard) {text piece : List Char}
    (h : EndsWithPiece text piece) : indexChars u piece <:+ indexChars u text := by
  rcases h with rfl | ⟨front, rfl⟩
  · exact List.suffix_refl _
  · exact Search.indexChars_suffix hu front piece

/-- The text of a participant ends with the address. -/
theorem senderIndexText_ends (entry : EmailAddress) :
    EndsWithPiece (senderIndexText (some entry)).toList entry.address.toList := by
  unfold senderIndexText
  cases hname : entry.name with
  | none => exact .inl (by simp [hname])
  | some name => exact .inr ⟨name.toList, by simp [hname, toString]⟩

/-- A joined text ends with the last of its pieces. -/
theorem intercalate_ends (front : List String) (last : String) :
    EndsWithPiece (" ".intercalate (front ++ [last])).toList last.toList := by
  rw [String.toList_intercalate, List.map_append, List.map_singleton]
  induction front with
  | nil => exact .inl (by simp)
  | cons piece front ih =>
      refine EndsWithPiece.trans (.inr ⟨piece.toList, ?_⟩) ih
      cases front <;> simp [List.intercalate]

/-- A sender and the last recipient stand at the end of their list text. -/
theorem standsAtEnd_of_last {u : Unicode} (hu : u.Standard) {m : Message} {field : AddressField}
    {entry : EmailAddress} (hlast : (field.entries m).getLast? = some entry) :
    StandsAtEnd u (field.column u m) entry.address := by
  refine .inl ?_
  have hends : ∀ text : String, EndsWithPiece text.toList entry.address.toList →
      (normalizeIndexText u entry.address).toList <:+ (normalizeIndexText u text).toList := by
    intro text htext
    rw [normalizeIndexText_toList, normalizeIndexText_toList]
    exact htext.indexChars_suffix hu
  cases field with
  | «from» =>
      cases hsender : m.sender with
      | none => simp [AddressField.entries, hsender] at hlast
      | some sender =>
          obtain rfl : sender = entry := by simpa [AddressField.entries, hsender] using hlast
          refine hends _ ?_
          rw [hsender]
          exact senderIndexText_ends sender
  | «to» =>
      cases hrecipients : m.recipients with
      | none => simp [AddressField.entries, hrecipients] at hlast
      | some recipients =>
          have hlast' : (Recipients.all recipients).getLast? = some entry := by
            simpa [AddressField.entries, hrecipients] using hlast
          obtain ⟨front, hfront⟩ := List.getLast?_eq_some_iff.mp hlast'
          refine hends _ ?_
          rw [hrecipients, recipientsIndexText, hfront, List.map_append, List.map_singleton]
          exact (intercalate_ends _ _).trans (senderIndexText_ends entry)

/-! ## Finding an address -/

variable {u : Unicode} {matchesText : Message → String → Bool} {db : Database} {m : Message}

/-- The parsed query of one address operator. -/
theorem parse_address (hu : u.Standard) (field : AddressField) {address : String}
    (hvalid : isValidAddress address = true) :
    parseSearchQuery u (field.operator ++ ":" ++ address) = .ok (match field with
      | .«from» => { emptyQuery with «from» := [normalizeIndexText u address] }
      | .«to» => { emptyQuery with «to» := [normalizeIndexText u address] }) := by
  have hplain := plainValue_of_valid hvalid
  cases field with
  | «from» =>
      have happly : applyOperator u emptyQuery (toLowerCase "from") address =
          .ok { emptyQuery with «from» := [normalizeIndexText u address] } := by
        have hname : toLowerCase "from" = "from" := rfl
        rw [hname]
        unfold applyOperator
        rw [hplain.requireValue "from"]
        rfl
      exact parse_operator hu (by decide +kernel) (by decide +kernel) hplain happly
  | «to» =>
      have happly : applyOperator u emptyQuery (toLowerCase "to") address =
          .ok { emptyQuery with «to» := [normalizeIndexText u address] } := by
        have hname : toLowerCase "to" = "to" := rfl
        rw [hname]
        unfold applyOperator
        rw [hplain.requireValue "to"]
        rfl
      exact parse_operator hu (by decide +kernel) (by decide +kernel) hplain happly

/-- A query for a full address of a list finds the message exactly when the text of the list ends
with the address or has it in front of an at sign. -/
theorem address_found_iff (hu : u.Standard) (field : AddressField) {address : String}
    (hvalid : isValidAddress address = true) :
    Finds u matchesText db (field.operator ++ ":" ++ address) m ↔
      StandsAtEnd u (field.column u m) address := by
  obtain ⟨cs, htrim⟩ := column_trimmed u m field
  have hcondition : addressCondition (field.column u m) (normalizeIndexText u address) = true ↔ _ :=
    addressCondition_iff htrim
  have hparse := parse_address hu field hvalid
  unfold Finds StandsAtEnd
  rw [← hcondition, hparse]
  cases field with
  | «from» => simp [whereClause, emptyQuery, AddressField.column]
  | «to» => simp [whereClause, emptyQuery, AddressField.column]

/-! ## Samples -/

/-- A message to two recipients. -/
def twoRecipients : Message :=
  { Message.bare 1 1 0 with
    recipients := some { «to» := [⟨"ann@x.org", none⟩, ⟨"bob@y.org", some "Bob"⟩] } }

theorem address_found_sample :
    Finds sampleUnicode (fun _ _ => true) Database.empty "to:bob@y.org" twoRecipients := by
  have hvalid : isValidAddress "bob@y.org" = true := by decide +kernel
  have hlast : (AddressField.entries twoRecipients .«to»).getLast? =
      some ⟨"bob@y.org", some "Bob"⟩ := rfl
  have hends := standsAtEnd_of_last sampleUnicode_standard hlast
  have hquery : "to:bob@y.org" = AddressField.operator .«to» ++ ":" ++ "bob@y.org" := by
    decide +kernel
  rw [hquery]
  exact (address_found_iff sampleUnicode_standard .«to» hvalid).mpr hends

/-- The first of two recipients is not found. -/
theorem address_missed :
    "ann@x.org" ∈ (AddressField.entries twoRecipients .«to»).map (·.address) ∧
      isValidAddress "ann@x.org" = true ∧
      ¬ Finds sampleUnicode (fun _ _ => true) Database.empty "to:ann@x.org" twoRecipients := by
  have hparse : parseSearchQuery sampleUnicode "to:ann@x.org" =
      .ok { emptyQuery with «to» := ["ann@x.org"] } := rfl
  have hnone : whereClause sampleUnicode (fun _ _ => true) { emptyQuery with «to» := ["ann@x.org"] }
      Database.empty twoRecipients = false := by decide +kernel
  refine ⟨by decide, by decide +kernel, ?_⟩
  rintro ⟨parsed, hparsed, hwhere⟩
  rw [hparse] at hparsed
  obtain rfl := Except.ok.inj hparsed
  rw [hnone] at hwhere
  cases hwhere

end MailHub.Search
