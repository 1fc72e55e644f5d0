import MailHub.Compose.Service

/-!
# What an edit does to a draft

An accepted edit finds its base revision, gives every field that it names its normalized value,
leaves the other fields and the other drafts alone, and moves the revision by one.
-/

namespace MailHub

open Relational Interleaving

variable {db db' : Database}

/-! ## Statements -/

/-- A draft that an edit may change is live and unlocked, and reading it changes nothing. -/
theorem lockEditableDraft_ok {draftId : Uuid} {row : Draft} :
    (lockEditableDraft draftId).run db = .ok (row, db') ↔
      db.drafts.find? draftId = some row ∧ row.deletedAt = none ∧ row.lockedBySend = none ∧
        db = db' := by
  unfold lockEditableDraft lockDraftRow
  cases h : db.drafts.find? draftId with
  | none => simp [h]
  | some draft =>
      simp [h]
      grind

/-- The record of a draft keeps its key and its revision. -/
theorem toDraftRecord_ok {row : Draft} {record : DraftRecord} (h : toDraftRecord row = .ok record) :
    record.id = row.id ∧ record.revision = row.revision := by
  unfold toDraftRecord at h
  obtain ⟨recipients, -, hrecord⟩ := bind_eq_ok.mp h
  obtain rfl := pure_eq_ok.mp hrecord
  exact ⟨rfl, rfl⟩

/-! ## Fields -/

/-- The fields of a draft that an edit may name. -/
inductive DraftField
  | identity | recipients | subject | markdown
  deriving DecidableEq, Repr

/-- Whether an edit names a field. -/
def UpdateDraftInput.sets (input : UpdateDraftInput) : DraftField → Bool
  | .identity => input.identity.isSome
  | .recipients => input.recipients.isSome
  | .subject => input.subject.isSome
  | .markdown => input.markdown.isSome

/-- A draft holds what an edit asks for in a field that it names. -/
def Draft.Holds (row : Draft) (input : UpdateDraftInput) : DraftField → Prop
  | .identity => ∀ v, input.identity = some v →
      ∃ identities, resolveIdentity identities v = .ok row.identity
  | .recipients => ∀ v, input.recipients = some v → normalizeRecipients v = .ok row.recipients
  | .subject => ∀ v, input.subject = some v → normalizeSubject v = .ok row.subject
  | .markdown => ∀ v, input.markdown = some v → normalizeMarkdown v = .ok row.markdown

/-- Two versions of a draft agree in a field. -/
def Draft.SameField (row row' : Draft) : DraftField → Prop
  | .identity => row'.identity = row.identity
  | .recipients => row'.recipients = row.recipients
  | .subject => row'.subject = row.subject
  | .markdown => row'.markdown = row.markdown

theorem Draft.SameField.holds {row row' : Draft} {input : UpdateDraftInput} {f : DraftField}
    (h : row.SameField row' f) (hrow : row.Holds input f) : row'.Holds input f := by
  cases f <;> simp only [SameField] at h <;> simpa only [Holds, h] using hrow

/-- A draft keeps its text and its revision. -/
def Draft.SameText (row row' : Draft) : Prop :=
  row'.identity = row.identity ∧ row'.recipients = row.recipients ∧ row'.subject = row.subject ∧
    row'.markdown = row.markdown ∧ row'.revision = row.revision

theorem Draft.SameText.refl {row : Draft} : row.SameText row := ⟨rfl, rfl, rfl, rfl, rfl⟩

theorem Draft.SameText.sameField {row row' : Draft} (h : row.SameText row') (f : DraftField) :
    row.SameField row' f := by
  obtain ⟨hidentity, hrecipients, hsubject, hmarkdown, -⟩ := h
  cases f
  · exact hidentity
  · exact hrecipients
  · exact hsubject
  · exact hmarkdown

/-! ## Edits -/

/-- What an accepted edit did. -/
structure EditAccepted (draftId : Uuid) (input : UpdateDraftInput) (record : DraftRecord)
    (db db' : Database) (row row' : Draft) : Prop where
  before : db.drafts.find? draftId = some row
  after : db'.drafts.find? draftId = some row'
  base : row.revision = input.baseRevision
  named : ∀ f, input.sets f = true → row'.Holds input f
  kept : ∀ f, input.sets f = false → row.SameField row' f
  /-- The revision moves exactly when the edit names a field. -/
  moved : row'.revision = row.revision + (if input.namesField then 1 else 0)
  others : ∀ d, d ≠ draftId → db'.drafts.find? d = db.drafts.find? d
  reported : record.id = draftId ∧ record.revision = row'.revision

theorem patched_ok {α β : Type} {current value : α} {input : Option β}
    {normalize : β → Except Failure α} (h : patched current input normalize = .ok value) :
    (input = none ∧ value = current) ∨ ∃ v, input = some v ∧ normalize v = .ok value := by
  cases input with
  | none => exact .inl ⟨rfl, (Except.ok.inj h).symm⟩
  | some v => exact .inr ⟨v, rfl, h⟩

/-- A draft whose fields an edit patched holds what the edit names and keeps the rest. -/
theorem Draft.holds_of_patched {row row' : Draft} {input : UpdateDraftInput} {db : Database}
    (hidentity : patched row.identity input.identity (fun requested => do
      let account ← requireAccount row.accountId db
      resolveIdentity account.identities requested) = .ok row'.identity)
    (hrecipients : patched row.recipients input.recipients normalizeRecipients =
      .ok row'.recipients)
    (hsubject : patched row.subject input.subject normalizeSubject = .ok row'.subject)
    (hmarkdown : patched row.markdown input.markdown normalizeMarkdown = .ok row'.markdown)
    (f : DraftField) : (input.sets f = true → row'.Holds input f) ∧
      (input.sets f = false → row.SameField row' f) := by
  cases f with
  | identity =>
      rcases patched_ok hidentity with ⟨hnone, hsame⟩ | ⟨v, hv, hok⟩
      · simp [UpdateDraftInput.sets, hnone, SameField, hsame]
      · obtain ⟨account, -, hok⟩ := bind_eq_ok.mp hok
        simp only [UpdateDraftInput.sets, hv, Option.isSome_some, Holds]
        exact ⟨fun _ v' hv' => ⟨account.identities, Option.some.inj hv' ▸ hok⟩, by simp⟩
  | recipients =>
      rcases patched_ok hrecipients with ⟨hnone, hsame⟩ | ⟨v, hv, hok⟩
      · simp [UpdateDraftInput.sets, hnone, SameField, hsame]
      · simp [UpdateDraftInput.sets, hv, Holds, hok]
  | subject =>
      rcases patched_ok hsubject with ⟨hnone, hsame⟩ | ⟨v, hv, hok⟩
      · simp [UpdateDraftInput.sets, hnone, SameField, hsame]
      · simp [UpdateDraftInput.sets, hv, Holds, hok]
  | markdown =>
      rcases patched_ok hmarkdown with ⟨hnone, hsame⟩ | ⟨v, hv, hok⟩
      · simp [UpdateDraftInput.sets, hnone, SameField, hsame]
      · simp [UpdateDraftInput.sets, hv, Holds, hok]

/-- An edit that names no field sets none. -/
theorem UpdateDraftInput.sets_of_namesField {input : UpdateDraftInput} {f : DraftField}
    (h : input.namesField = false) : input.sets f = false := by
  simp only [namesField, Bool.or_eq_false_iff] at h
  cases f
  · exact h.1.1.1
  · exact h.1.1.2
  · exact h.1.2
  · exact h.2

/-- Every accepted edit is one of these. -/
theorem commitDraftUpdate_ok {draftId : Uuid} {input : UpdateDraftInput} {now : Time}
    {record : DraftRecord} (h : (commitDraftUpdate draftId input now).run db = .ok (record, db')) :
    ∃ row row', EditAccepted draftId input record db db' row row' := by
  simp [commitDraftUpdate, updateDraftRow, lockEditableDraft_ok] at h
  obtain ⟨row, ⟨hrow, -, -⟩, hbase, identity, hidentity, recipients, hrecipients, subject, hsubject,
    markdown, hmarkdown, ⟨hnames, hrecord, rfl⟩ | ⟨hnames, hrecord, rfl⟩⟩ := h
  · let row' : Draft := { row with
      identity, recipients, subject, markdown, revision := row.revision + 1, updatedAt := now }
    have hid : row.id = draftId := Table.key_of_find? hrow
    have hfields : ∀ f, (input.sets f = true → row'.Holds input f) ∧
        (input.sets f = false → row.SameField row' f) :=
      fun f => Draft.holds_of_patched hidentity hrecipients hsubject hmarkdown f
    refine ⟨row, row', hrow, ?_, hbase, fun f => (hfields f).1, fun f => (hfields f).2, ?_,
      fun d hd => ?_, ?_⟩
    · simp [hrow, hid, row']
    · simp [row', hnames]
    · rw [Table.find?_update]
      cases hother : db.drafts.find? d with
      | none => rfl
      | some other =>
          have hne : other.id ≠ draftId := fun he => hd ((Table.key_of_find? hother).symm.trans he)
          simp [hne]
    · obtain ⟨hkey, hrevision⟩ := toDraftRecord_ok hrecord
      exact ⟨hkey.trans hid, hrevision⟩
  · obtain ⟨hkey, hrevision⟩ := toDraftRecord_ok hrecord
    have hnone : ∀ f, input.sets f = false := fun f => UpdateDraftInput.sets_of_namesField hnames
    refine ⟨row, row, hrow, hrow, hbase, fun f hf => ?_, fun f _ => ?_, by simp [hnames],
      fun _ _ => rfl, hkey.trans (Table.key_of_find? hrow), hrevision⟩
    · simp [hnone f] at hf
    · cases f <;> rfl

/-- Locking a draft for a send leaves the text and the revision of every draft alone. -/
theorem lockDraftForSend_sameText {draftId outboundId : Uuid} {revision : ℕ} {record : DraftRecord}
    (h : (lockDraftForSend draftId revision outboundId).run db = .ok (record, db')) (d : Uuid)
    {row : Draft} (hrow : db.drafts.find? d = some row) :
    ∃ row', db'.drafts.find? d = some row' ∧ row.SameText row' := by
  unfold lockDraftForSend lockDraftRow at h
  cases hdraft : db.drafts.find? draftId with
  | none => simp [hdraft] at h
  | some draft =>
      simp [hdraft, updateDraftRow] at h
      obtain ⟨-, ⟨-, -, rfl⟩ | ⟨-, -, -, rfl⟩⟩ := h
      · exact ⟨row, hrow, .refl⟩
      · refine ⟨_, by rw [Table.find?_update, hrow, Option.map_some], ?_⟩
        split <;> exact ⟨rfl, rfl, rfl, rfl, rfl⟩

end MailHub
