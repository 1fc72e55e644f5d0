import MailHub.Sync.Membership

/-!
# Orders of filing

The same mail can be filed in many orders: headers in one window or in several, an original before
or after the headers of its copies, a reconciliation after each step or after all of them. Every row
still stands for places on the mail servers, and its columns follow from what is there. The main
result is that two runs over the same mail, once they are at rest, have the same parents and the
same partition into threads, up to the identifiers of rows and threads.
-/

namespace MailHub

open Relational Ordering Interleaving

variable {accountId messageId survivorId freshThreadId id : Uuid} {now : Instant}
  {db db' : Database} {m m' row : Message} {o o' : MessageOccurrence}

/-! ## Places -/

/-- The place of a message on a mail server. -/
structure Place where
  folderId : Uuid
  uidvalidity : ℕ
  uid : ℕ
  deriving DecidableEq, Repr

def MessageOccurrence.place (o : MessageOccurrence) : Place := ⟨o.folderId, o.uidvalidity, o.uid⟩

/-- The columns of a row that links are decided by. -/
structure LinkColumns where
  messageId : Option String
  inReplyTo : Option String
  referenceIds : List String
  deriving DecidableEq, Repr

def Message.linkColumns (m : Message) : LinkColumns := ⟨m.messageId, m.inReplyTo, m.referenceIds⟩

/-- What the mail servers hold at each place, and what the bytes with a digest parse to. -/
structure MailSource where
  headers : Place → ImportedHeaders
  digest : Place → String
  parsed : String → ParsedMessage

/-- The columns of the headers at a place. -/
def MailSource.provisional (source : MailSource) (place : Place) : LinkColumns :=
  ⟨(source.headers place).messageId, (source.headers place).inReplyTo,
    (source.headers place).referenceIds⟩

/-- The columns of the original with a digest. -/
def MailSource.final (source : MailSource) (sha256 : String) : LinkColumns :=
  ⟨(source.parsed sha256).messageId, (source.parsed sha256).inReplyTo,
    (source.parsed sha256).referenceIds⟩

/-- Whether a transaction brings what the mail servers hold. -/
def LinkEvent.Reads (source : MailSource) (parseHeaderBlock : Bytes → ImportedHeaders) :
    LinkEvent → Database → Prop
  | importWindow _ folderId uidvalidity records, _ => ∀ entry ∈ records,
      parseHeaderBlock entry.2.rawHeaders = source.headers ⟨folderId, uidvalidity, entry.2.uid⟩
  | commitOriginal _ messageId parsed _ _ sha256 _ _, db => parsed = source.parsed sha256 ∧
      ∀ o ∈ db.messageOccurrences, o.messageId = messageId → source.digest o.place = sha256
  | reconcileRow .., _ => True

/-! ## What the rows stand for -/

/-- The columns of a row whose bytes are known or not. -/
def MailSource.columnsAt (source : MailSource) (place : Place) : Option String → LinkColumns
  | none => source.provisional place
  | some sha256 => source.final sha256

/-- Every row stands for the places of its occurrences. -/
structure Traced (source : MailSource) (db : Database) : Prop where
  /-- An occurrence names a row of its account. -/
  row : ∀ o ∈ db.messageOccurrences, IsRow o.accountId db o.messageId
  /-- A row has an occurrence. -/
  occurrence : ∀ m ∈ db.messages, ∃ o ∈ db.messageOccurrences, o.messageId = m.id
  /-- The columns of a row are those of each of its places. -/
  columns : ∀ o ∈ db.messageOccurrences, ∀ m ∈ db.messages, m.id = o.messageId →
    m.linkColumns = source.columnsAt o.place m.originalSha256
  /-- The bytes of a row are those of each of its places. -/
  digest : ∀ o ∈ db.messageOccurrences, ∀ m ∈ db.messages, m.id = o.messageId →
    ∀ sha256, m.originalSha256 = some sha256 → source.digest o.place = sha256
  /-- A row whose bytes are not known has one occurrence. -/
  alone : ∀ o ∈ db.messageOccurrences, ∀ o' ∈ db.messageOccurrences, o.messageId = o'.messageId →
    ∀ m ∈ db.messages, m.id = o.messageId → m.originalSha256 = none → o = o'
  /-- A place has one occurrence. -/
  place : ∀ o ∈ db.messageOccurrences, ∀ o' ∈ db.messageOccurrences, o.place = o'.place → o = o'
  /-- The rows of an account have different bytes. -/
  bytes : ∀ m ∈ db.messages, ∀ m' ∈ db.messages, m.accountId = m'.accountId → ∀ sha256,
    m.originalSha256 = some sha256 → m'.originalSha256 = some sha256 → m = m'

variable {source : MailSource}

/-- A row with the same identity, bytes and columns. -/
def Message.Like (m m' : Message) : Prop :=
  m'.id = m.id ∧ m'.accountId = m.accountId ∧ m'.linkColumns = m.linkColumns ∧
    m'.originalSha256 = m.originalSha256

/-- Changes elsewhere in the rows keep what they stand for. -/
theorem Traced.congr (h : Traced source db) (hback : ∀ m' ∈ db'.messages, ∃ m ∈ db.messages, m.Like m')
    (hforth : ∀ m ∈ db.messages, ∃ m' ∈ db'.messages, m.Like m')
    (hoccurrences : db'.messageOccurrences = db.messageOccurrences) : Traced source db' := by
  refine ⟨?_, ?_, ?_, ?_, ?_, ?_, ?_⟩
  · intro o ho
    rw [hoccurrences] at ho
    obtain ⟨m, hm, hid, haccount⟩ := isRow_iff.mp (h.row o ho)
    obtain ⟨m', hm', hlike⟩ := hforth m hm
    exact isRow_iff.mpr ⟨m', hm', hlike.1.trans hid, hlike.2.1.trans haccount⟩
  · intro m' hm'
    obtain ⟨m, hm, hlike⟩ := hback m' hm'
    rw [hoccurrences, hlike.1]
    exact h.occurrence m hm
  · intro o ho m' hm' hid
    rw [hoccurrences] at ho
    obtain ⟨m, hm, hlike⟩ := hback m' hm'
    rw [hlike.2.2.1, hlike.2.2.2]
    exact h.columns o ho m hm (hlike.1.symm.trans hid)
  · intro o ho m' hm' hid sha256 hsha
    rw [hoccurrences] at ho
    obtain ⟨m, hm, hlike⟩ := hback m' hm'
    exact h.digest o ho m hm (hlike.1.symm.trans hid) sha256 (hlike.2.2.2.symm.trans hsha)
  · intro o ho o' ho' hsame m' hm' hid hnone
    rw [hoccurrences] at ho ho'
    obtain ⟨m, hm, hlike⟩ := hback m' hm'
    exact h.alone o ho o' ho' hsame m hm (hlike.1.symm.trans hid) (hlike.2.2.2.symm.trans hnone)
  · rw [hoccurrences]
    exact h.place
  · intro m₁ hm₁ m₂ hm₂ haccount sha256 hsha₁ hsha₂
    obtain ⟨n₁, hn₁, hlike₁⟩ := hback m₁ hm₁
    obtain ⟨n₂, hn₂, hlike₂⟩ := hback m₂ hm₂
    have hsame : n₁ = n₂ := h.bytes n₁ hn₁ n₂ hn₂
      (hlike₁.2.1.symm.trans (haccount.trans hlike₂.2.1)) sha256 (hlike₁.2.2.2.symm.trans hsha₁)
      (hlike₂.2.2.2.symm.trans hsha₂)
    exact Table.eq_of_key_eq hm₁ hm₂ (hlike₁.1.trans (hsame ▸ hlike₂.1.symm))

/-- Marks change nothing. -/
theorem Traced.markDirty (h : Traced source db) {p : Message → Bool} :
    Traced source (MailHub.markDirty p db) := by
  refine h.congr (fun m' hm' => ?_) (fun m hm => ?_) rfl
  · obtain ⟨m, hm, rfl⟩ := mem_markDirty.mp hm'
    refine ⟨m, hm, ?_⟩
    split
    · exact ⟨rfl, rfl, rfl, rfl⟩
    · exact ⟨rfl, rfl, rfl, rfl⟩
  · obtain ⟨dirty, hin⟩ : ∃ threadDirty, { m with threadDirty } ∈ (MailHub.markDirty p db).messages :=
      exists_mem_markDirty hm
    exact ⟨_, hin, rfl, rfl, rfl, rfl⟩

/-- A reconciliation changes neither what a row stands for nor the occurrences. -/
theorem Traced.reconcileRow {outcome : Option RowOutcome} (htraced : Traced source db)
    (h : MailHub.reconcileRow accountId messageId freshThreadId db = some (outcome, db')) :
    Traced source db' := by
  obtain ⟨hrows, -⟩ := reconcileRow_rows h
  have hback : ∀ m' ∈ db'.messages, ∃ m ∈ db.messages, m.Like m' := by
    rcases reconcileRow_cases h with ⟨-, rfl⟩ |
      ⟨row, decision, threadId, created, joined, hdirty, -, hjoin, rfl⟩
    · exact fun m hm => ⟨m, hm, rfl, rfl, rfl, rfl⟩
    intro m hm
    obtain ⟨hmem, -, -⟩ := findRow_eq_some_iff.mp (Option.filter_eq_some_iff.mp hdirty).1
    obtain ⟨m₁, hm₁, dirty, rfl, -⟩ := of_mem_clearDirty hm
    obtain ⟨m₂, hm₂, thread₁, rfl⟩ := of_mem_assignThread hm₁
    obtain ⟨m₃, hm₃, thread₂, rfl⟩ := of_mem_joinThread hjoin hm₂
    rcases of_mem_recordLink hmem hm₃ with ⟨hm₀, -⟩ | rfl
    · exact ⟨m₃, hm₀, rfl, rfl, rfl, rfl⟩
    · exact ⟨row, hmem, rfl, rfl, rfl, rfl⟩
  have hoccurrences : db'.messageOccurrences = db.messageOccurrences := by
    rcases reconcileRow_cases h with ⟨-, rfl⟩ |
      ⟨row, decision, threadId, created, joined, -, -, hjoin, rfl⟩
    · rfl
    have hlinked : (recordLink row decision db).messageOccurrences = db.messageOccurrences := by
      unfold recordLink
      split <;> rfl
    have hjoined : joined.messageOccurrences = (recordLink row decision db).messageOccurrences := by
      unfold joinThread at hjoin
      split at hjoin
      · obtain ⟨-, -, rfl⟩ : _ = threadId ∧ 0 = created ∧ _ = joined := by simpa using hjoin
        rfl
      · obtain ⟨threads, -, hassigned⟩ := Option.bind_eq_some_iff.mp hjoin
        obtain ⟨-, -, rfl⟩ : freshThreadId = threadId ∧ 1 = created ∧ _ = joined := by
          simpa using hassigned
        rfl
    exact hjoined.trans hlinked
  refine htraced.congr hback (fun m hm => ?_) hoccurrences
  -- the row with the identifier is the old one
  obtain ⟨m', hm', hid, -⟩ := isRow_iff.mp ((hrows _ _).mpr (isRow_of_mem hm))
  obtain ⟨m₀, hm₀, hlike⟩ := hback m' hm'
  obtain rfl : m₀ = m := Table.eq_of_key_eq hm₀ hm (hlike.1.symm.trans hid)
  exact ⟨m', hm', hlike⟩

/-! ## Imports -/

section

variable {parseHeaderBlock : Bytes → ImportedHeaders} {folderId : Uuid} {uidvalidity : ℕ}

/-- What one record does: nothing when its place is there already, else a row and its occurrence. -/
theorem importHeaderRecord_cases {ids : ImportIds} {record : MailboxHeaders}
    {result : Bool × Option String}
    (h : (importHeaderRecord parseHeaderBlock accountId folderId uidvalidity ids record).run db =
      .ok (result, db')) :
    db' = db ∨ ∃ o, o.accountId = accountId ∧ o.messageId = ids.messageId ∧
      o.place = ⟨folderId, uidvalidity, record.uid⟩ ∧
      (∀ o' ∈ db.messageOccurrences, o'.place ≠ o.place) ∧
      db.messages.insert? (importedRow ids.messageId accountId ids.now
        (parseHeaderBlock record.rawHeaders) record) = some db'.messages ∧
      db.messageOccurrences.insert? o = some db'.messageOccurrences := by
  unfold importHeaderRecord at h
  simp only [StateT.run_bind, StateT.run_get, pure_bind] at h
  split at h
  · obtain ⟨-, rfl⟩ := Prod.mk.inj (Except.ok.inj h)
    exact .inl rfl
  next hnew =>
    have hfree : ∀ o' ∈ db.messageOccurrences,
        o'.place ≠ ⟨folderId, uidvalidity, record.uid⟩ := by
      intro o' ho' hplace
      obtain ⟨hfolder, hvalidity, huid⟩ := Place.mk.inj hplace
      refine hnew (List.any_eq_true.mpr ⟨o', ho', ?_⟩)
      simp [hfolder, hvalidity, huid]
    simp at h
    obtain ⟨messages, hmessages, occurrences, hoccurrences, h⟩ := h
    refine .inr ⟨⟨ids.occurrenceId, accountId, ids.messageId, folderId, uidvalidity, record.uid,
      record.internalDate, record.unread, record.flagged, none, 1, none, none⟩, rfl, rfl, rfl,
      hfree, ?_⟩
    rcases h with ⟨-, -, rfl⟩ | ⟨-, -, rfl⟩
    · exact ⟨hmessages, hoccurrences⟩
    · exact ⟨hmessages, hoccurrences⟩

/-- A new row with its occurrence stands for its place. -/
theorem Traced.insert (h : Traced source db) (hmessages : db.messages.insert? m = some db'.messages)
    (hoccurrences : db.messageOccurrences.insert? o = some db'.messageOccurrences)
    (hid : o.messageId = m.id) (haccount : o.accountId = m.accountId)
    (hnone : m.originalSha256 = none) (hcolumns : m.linkColumns = source.provisional o.place)
    (hplace : ∀ o' ∈ db.messageOccurrences, o'.place ≠ o.place) : Traced source db' := by
  have hrows : ∀ m', m' ∈ db'.messages ↔ m' ∈ db.messages ∨ m' = m := fun m' =>
    Table.mem_insert? hmessages
  have hplaces : ∀ o', o' ∈ db'.messageOccurrences ↔ o' ∈ db.messageOccurrences ∨ o' = o :=
    fun o' => Table.mem_insert? hoccurrences
  have hfresh : ∀ m' ∈ db.messages, m'.id ≠ m.id := by
    intro m' hm' hsame
    have hfree := Table.find?_of_insert? hmessages
    exact Table.find?_eq_none_iff.mp hfree m' hm' hsame
  -- no old occurrence names the new row
  have hold : ∀ o' ∈ db.messageOccurrences, o'.messageId ≠ m.id := by
    intro o' ho' hsame
    obtain ⟨m', hm', hm'id, -⟩ := isRow_iff.mp (h.row o' ho')
    exact hfresh m' hm' (hm'id.trans hsame)
  have hpair : ∀ o' ∈ db'.messageOccurrences, ∀ m' ∈ db'.messages, m'.id = o'.messageId →
      (o' ∈ db.messageOccurrences ∧ m' ∈ db.messages) ∨ (o' = o ∧ m' = m) := by
    intro o' ho' m' hm' hsame
    rcases (hplaces o').mp ho' with ho' | rfl
    · rcases (hrows m').mp hm' with hm' | rfl
      · exact .inl ⟨ho', hm'⟩
      · exact absurd hsame.symm (hold o' ho')
    · rcases (hrows m').mp hm' with hm' | rfl
      · exact absurd (hsame.trans hid) (hfresh m' hm')
      · exact .inr ⟨rfl, rfl⟩
  refine ⟨?_, ?_, ?_, ?_, ?_, ?_, ?_⟩
  · intro o' ho'
    rcases (hplaces o').mp ho' with ho' | rfl
    · obtain ⟨m', hm', hrest⟩ := isRow_iff.mp (h.row o' ho')
      exact isRow_iff.mpr ⟨m', (hrows m').mpr (.inl hm'), hrest⟩
    · exact isRow_iff.mpr ⟨m, (hrows m).mpr (.inr rfl), hid.symm, haccount.symm⟩
  · intro m' hm'
    rcases (hrows m').mp hm' with hm' | rfl
    · obtain ⟨o', ho', hsame⟩ := h.occurrence m' hm'
      exact ⟨o', (hplaces o').mpr (.inl ho'), hsame⟩
    · exact ⟨o, (hplaces o).mpr (.inr rfl), hid⟩
  · intro o' ho' m' hm' hsame
    rcases hpair o' ho' m' hm' hsame with ⟨ho', hm'⟩ | ⟨rfl, rfl⟩
    · exact h.columns o' ho' m' hm' hsame
    · rw [hnone]
      exact hcolumns
  · intro o' ho' m' hm' hsame sha256 hsha
    rcases hpair o' ho' m' hm' hsame with ⟨ho', hm'⟩ | ⟨rfl, rfl⟩
    · exact h.digest o' ho' m' hm' hsame sha256 hsha
    · rw [hnone] at hsha
      cases hsha
  · intro o₁ ho₁ o₂ ho₂ hsame m' hm' hm'id hm'none
    rcases hpair o₁ ho₁ m' hm' hm'id with ⟨ho₁, hm'⟩ | ⟨rfl, rfl⟩
    · rcases (hplaces o₂).mp ho₂ with ho₂ | rfl
      · exact h.alone o₁ ho₁ o₂ ho₂ hsame m' hm' hm'id hm'none
      · exact absurd (hsame.trans hid) (hold o₁ ho₁)
    · rcases (hplaces o₂).mp ho₂ with ho₂ | rfl
      · exact absurd (hsame.symm.trans hid) (hold o₂ ho₂)
      · rfl
  · intro o₁ ho₁ o₂ ho₂ hsame
    rcases (hplaces o₁).mp ho₁ with ho₁ | rfl
    · rcases (hplaces o₂).mp ho₂ with ho₂ | rfl
      · exact h.place o₁ ho₁ o₂ ho₂ hsame
      · exact absurd hsame (hplace o₁ ho₁)
    · rcases (hplaces o₂).mp ho₂ with ho₂ | rfl
      · exact absurd hsame.symm (hplace o₂ ho₂)
      · rfl
  · intro m₁ hm₁ m₂ hm₂ hsame sha256 hsha₁ hsha₂
    rcases (hrows m₁).mp hm₁ with hm₁ | rfl
    · rcases (hrows m₂).mp hm₂ with hm₂ | rfl
      · exact h.bytes m₁ hm₁ m₂ hm₂ hsame sha256 hsha₁ hsha₂
      · rw [hnone] at hsha₂
        cases hsha₂
    · rw [hnone] at hsha₁
      cases hsha₁

/-- An import of what is on the mail servers keeps what the rows stand for. -/
theorem Traced.importWindow {records : List (ImportIds × MailboxHeaders)} (htraced : Traced source db)
    (hreads : ∀ entry ∈ records, parseHeaderBlock entry.2.rawHeaders =
      source.headers ⟨folderId, uidvalidity, entry.2.uid⟩)
    (h : (MailHub.importWindow parseHeaderBlock accountId folderId uidvalidity records).run db =
      .ok ((), db')) : Traced source db' := by
  have hrecords : ∀ {db db' : Database} {identifiers : List String}, Traced source db →
      (importRecords parseHeaderBlock accountId folderId uidvalidity records).run db =
        .ok (identifiers, db') → Traced source db' := by
    clear h
    induction records with
    | nil =>
        intro db db' identifiers htraced h
        obtain ⟨-, rfl⟩ : [] = identifiers ∧ db = db' := by simpa [importRecords] using h
        exact htraced
    | cons entry rest ih =>
        intro db db' identifiers htraced h
        obtain ⟨ids, record⟩ := entry
        unfold importRecords at h
        rw [StateT.run_bind] at h
        obtain ⟨⟨result, db₁⟩, hrecord, h⟩ := bind_eq_ok.mp h
        dsimp only at h
        rw [StateT.run_bind] at h
        obtain ⟨⟨later, db₂⟩, hrest, h⟩ := bind_eq_ok.mp h
        obtain ⟨-, rfl⟩ := Prod.mk.inj (Except.ok.inj h)
        refine ih (fun entry hentry => hreads entry (List.mem_cons_of_mem _ hentry)) ?_ hrest
        rcases importHeaderRecord_cases hrecord with rfl | ⟨o, haccount, hid, hplace, hfree, hm, ho⟩
        · exact htraced
        · refine htraced.insert hm ho hid haccount rfl ?_ hfree
          rw [hplace]
          unfold MailSource.provisional
          rw [← hreads (ids, record) List.mem_cons_self]
          rfl
  unfold MailHub.importWindow at h
  rw [StateT.run_bind] at h
  obtain ⟨⟨identifiers, db₁⟩, himported, h⟩ := bind_eq_ok.mp h
  have htraced₁ := hrecords htraced himported
  dsimp only at h
  split at h
  · rw [markThreadJobsDirty_run] at h
    obtain ⟨-, rfl⟩ := Prod.mk.inj (Except.ok.inj h)
    exact htraced₁.markDirty
  · obtain ⟨-, rfl⟩ := Prod.mk.inj (Except.ok.inj h)
    exact htraced₁

end

/-! ## Originals -/

section

variable {parsed : ParsedMessage} {derived : DerivedBody} {storageKey sha256 : String}
  {sizeBytes : ℕ} {result : IngestResult}

/-- A row whose bytes become known stands for its places if they hold these bytes and no other row
does. -/
theorem Traced.replace (h : Traced source db) (hrow : row ∈ db.messages) (new : Message)
    (hid : new.id = row.id) (haccount : new.accountId = row.accountId)
    (hsha : new.originalSha256 = some sha256) (hcolumns : new.linkColumns = source.final sha256)
    (hdigest : ∀ o ∈ db.messageOccurrences, o.messageId = row.id → source.digest o.place = sha256)
    (hunique : ∀ m ∈ db.messages, m.accountId = row.accountId → m.originalSha256 = some sha256 →
      m.id = row.id)
    (hmessages : ∀ m, m ∈ db'.messages ↔ (m ∈ db.messages ∧ m.id ≠ row.id) ∨ m = new)
    (hoccurrences : db'.messageOccurrences = db.messageOccurrences) : Traced source db' := by
  refine ⟨?_, ?_, ?_, ?_, ?_, ?_, ?_⟩
  · intro o ho
    rw [hoccurrences] at ho
    obtain ⟨m, hm, hmid, hmaccount⟩ := isRow_iff.mp (h.row o ho)
    by_cases hself : m.id = row.id
    · obtain rfl : m = row := Table.eq_of_key_eq hm hrow hself
      exact isRow_iff.mpr ⟨new, (hmessages new).mpr (.inr rfl), hid.trans hmid,
        haccount.trans hmaccount⟩
    · exact isRow_iff.mpr ⟨m, (hmessages m).mpr (.inl ⟨hm, hself⟩), hmid, hmaccount⟩
  · intro m hm
    rw [hoccurrences]
    rcases (hmessages m).mp hm with ⟨hm, -⟩ | rfl
    · exact h.occurrence m hm
    · rw [hid]
      exact h.occurrence row hrow
  · intro o ho m hm hmid
    rw [hoccurrences] at ho
    rcases (hmessages m).mp hm with ⟨hm, -⟩ | rfl
    · exact h.columns o ho m hm hmid
    · rw [hsha]
      exact hcolumns
  · intro o ho m hm hmid sha hmsha
    rw [hoccurrences] at ho
    rcases (hmessages m).mp hm with ⟨hm, -⟩ | rfl
    · exact h.digest o ho m hm hmid sha hmsha
    · obtain rfl : sha256 = sha := Option.some.inj (hsha.symm.trans hmsha)
      exact hdigest o ho (hmid.symm.trans hid)
  · intro o ho o' ho' hsame m hm hmid hnone
    rw [hoccurrences] at ho ho'
    rcases (hmessages m).mp hm with ⟨hm, -⟩ | rfl
    · exact h.alone o ho o' ho' hsame m hm hmid hnone
    · rw [hsha] at hnone
      cases hnone
  · rw [hoccurrences]
    exact h.place
  · have hother : ∀ m ∈ db.messages, m.id ≠ row.id → m.accountId = row.accountId → ∀ sha,
        new.originalSha256 = some sha → m.originalSha256 ≠ some sha := by
      intro m hm hmid hmaccount sha hnew hmsha
      obtain rfl : sha256 = sha := Option.some.inj (hsha.symm.trans hnew)
      exact hmid (hunique m hm hmaccount hmsha)
    intro m₁ hm₁ m₂ hm₂ hsame sha hsha₁ hsha₂
    rcases (hmessages m₁).mp hm₁ with ⟨hm₁, hid₁⟩ | rfl
    · rcases (hmessages m₂).mp hm₂ with ⟨hm₂, -⟩ | rfl
      · exact h.bytes m₁ hm₁ m₂ hm₂ hsame sha hsha₁ hsha₂
      · exact absurd hsha₁ (hother m₁ hm₁ hid₁ (hsame.trans haccount) sha hsha₂)
    · rcases (hmessages m₂).mp hm₂ with ⟨hm₂, hid₂⟩ | rfl
      · exact absurd hsha₂ (hother m₂ hm₂ hid₂ (hsame.symm.trans haccount) sha hsha₁)
      · rfl

/-- An original that is applied to its row keeps what the rows stand for. -/
theorem Traced.applyIngested (htraced : Traced source db)
    (hrow : findRow accountId messageId db = some row) (hparsed : parsed = source.parsed sha256)
    (hdigest : ∀ o ∈ db.messageOccurrences, o.messageId = messageId → source.digest o.place = sha256)
    (hunique : ∀ m ∈ db.messages, m.accountId = accountId → m.originalSha256 = some sha256 →
      m.id = messageId)
    (h : (MailHub.applyIngested accountId row parsed derived storageKey sha256 sizeBytes).run db =
      .ok (result, db')) : Traced source db' := by
  obtain ⟨hmem, rfl, rfl⟩ := findRow_eq_some_iff.mp hrow
  unfold MailHub.applyIngested at h
  simp [markThreadJobsDirty_run] at h
  obtain ⟨-, rfl⟩ := h
  have hrows : Traced source { db with
      messages := db.messages.update (·.id == row.id)
        (ingestedRow parsed storageKey sha256 sizeBytes) fun _ => rfl } := by
    refine htraced.replace hmem (ingestedRow parsed storageKey sha256 sizeBytes row) rfl rfl rfl
      (by rw [hparsed]; rfl) hdigest hunique (fun m' => ?_) rfl
    constructor
    · intro hm'
      obtain ⟨m, hm, rfl⟩ := List.mem_map.mp hm'
      by_cases hid : m.id = row.id
      · obtain rfl : m = row := Table.eq_of_key_eq hm hmem hid
        exact .inr (if_pos (by simp))
      · rw [if_neg (by simpa using hid)]
        exact .inl ⟨hm, hid⟩
    · rintro (⟨hm', hid⟩ | rfl)
      · exact List.mem_map.mpr ⟨m', hm', if_neg (by simpa using hid)⟩
      · exact List.mem_map.mpr ⟨row, hmem, if_pos (by simp)⟩
  exact hrows.markDirty.congr (fun m hm => ⟨m, hm, rfl, rfl, rfl, rfl⟩)
    (fun m hm => ⟨m, hm, rfl, rfl, rfl, rfl⟩) rfl

theorem like_movedRow {removedId : Uuid} {dirty : Bool} :
    m.Like { movedRow removedId survivorId m with threadDirty := dirty } := by
  unfold Message.Like Message.linkColumns movedRow
  dsimp only
  split <;> split <;> exact ⟨rfl, rfl, rfl, rfl⟩

/-- A merge of two rows with the same bytes keeps what the rows stand for. -/
theorem Traced.afterMerge (htraced : Traced source db) (hrow : row ∈ db.messages)
    {survivor : Message} (hsurvivor : survivor ∈ db.messages)
    (hsame : survivor.accountId = row.accountId) (hne : survivor.id ≠ row.id)
    (hsha : survivor.originalSha256 = some sha256)
    (hdigest : ∀ o ∈ db.messageOccurrences, o.messageId = row.id → source.digest o.place = sha256) :
    Traced source (MailHub.afterMerge accountId row survivor.id parsed now db) := by
  have hback : ∀ m' ∈ (MailHub.afterMerge accountId row survivor.id parsed now db).messages,
      ∃ m ∈ db.messages, m.id ≠ row.id ∧ m.Like m' := by
    intro m' hm'
    obtain ⟨m, hm, hid, dirty, rfl⟩ := of_mem_afterMerge hm'
    exact ⟨m, hm, hid, like_movedRow⟩
  -- the occurrences of the removed row are occurrences of the survivor
  have hoccurrences : ∀ o', o' ∈ (MailHub.afterMerge accountId row survivor.id parsed now
      db).messageOccurrences ↔ ∃ o ∈ db.messageOccurrences,
        (if o.messageId = row.id then { o with messageId := survivor.id } else o) = o' := by
    intro o'
    have hmem : o' ∈ db.messageOccurrences.update (·.messageId == row.id)
        (fun o => { o with messageId := survivor.id }) (fun _ => rfl) ↔ _ := Table.mem_update
    refine hmem.trans (exists_congr fun o => and_congr_right fun _ => ?_)
    simp only [beq_iff_eq]
  have hkept : ∀ o ∈ db.messageOccurrences, ∀ m' ∈ (MailHub.afterMerge accountId row survivor.id parsed
      now db).messages, m'.id = (if o.messageId = row.id then { o with messageId := survivor.id }
        else o).messageId → ∃ m ∈ db.messages, m.Like m' ∧
          ((o.messageId ≠ row.id ∧ m.id = o.messageId) ∨ (o.messageId = row.id ∧ m = survivor)) := by
    intro o ho m' hm' hid
    obtain ⟨m, hm, hmid, hlike⟩ := hback m' hm'
    refine ⟨m, hm, hlike, ?_⟩
    by_cases hmoved : o.messageId = row.id
    · rw [if_pos hmoved] at hid
      exact .inr ⟨hmoved, Table.eq_of_key_eq hm hsurvivor (hlike.1.symm.trans hid)⟩
    · rw [if_neg hmoved] at hid
      exact .inl ⟨hmoved, hlike.1.symm.trans hid⟩
  refine ⟨?_, ?_, ?_, ?_, ?_, ?_, ?_⟩
  · intro o' ho'
    obtain ⟨o, ho, rfl⟩ := (hoccurrences o').mp ho'
    by_cases hmoved : o.messageId = row.id
    · rw [if_pos hmoved]
      obtain ⟨m, hm, hmid, hmaccount⟩ := isRow_iff.mp (htraced.row o ho)
      obtain rfl : m = row := Table.eq_of_key_eq hm hrow (hmid.trans hmoved)
      exact isRow_afterMerge.mpr ⟨isRow_iff.mpr ⟨survivor, hsurvivor, rfl, hsame.trans hmaccount⟩, hne⟩
    · rw [if_neg hmoved]
      exact isRow_afterMerge.mpr ⟨htraced.row o ho, hmoved⟩
  · intro m' hm'
    obtain ⟨m, hm, hmid, hlike⟩ := hback m' hm'
    obtain ⟨o, ho, hid⟩ := htraced.occurrence m hm
    refine ⟨o, (hoccurrences o).mpr ⟨o, ho, if_neg fun hmoved => hmid (hid.symm.trans hmoved)⟩, ?_⟩
    rw [hid, hlike.1]
  · intro o' ho' m' hm' hid
    obtain ⟨o, ho, rfl⟩ := (hoccurrences o').mp ho'
    obtain ⟨m, hm, hlike, hcase⟩ := hkept o ho m' hm' hid
    rw [hlike.2.2.1, hlike.2.2.2]
    rcases hcase with ⟨hmoved, hmid⟩ | ⟨hmoved, rfl⟩
    · rw [if_neg hmoved]
      exact htraced.columns o ho m hm hmid
    · -- the survivor has the columns of the bytes
      obtain ⟨o₁, ho₁, ho₁id⟩ := htraced.occurrence m hsurvivor
      have hcolumns := htraced.columns o₁ ho₁ m hsurvivor ho₁id.symm
      rw [hsha] at hcolumns ⊢
      exact hcolumns
  · intro o' ho' m' hm' hid sha hm'sha
    obtain ⟨o, ho, rfl⟩ := (hoccurrences o').mp ho'
    obtain ⟨m, hm, hlike, hcase⟩ := hkept o ho m' hm' hid
    have hmsha : m.originalSha256 = some sha := hlike.2.2.2.symm.trans hm'sha
    rcases hcase with ⟨hmoved, hmid⟩ | ⟨hmoved, rfl⟩
    · rw [if_neg hmoved]
      exact htraced.digest o ho m hm hmid sha hmsha
    · rw [if_pos hmoved]
      obtain rfl : sha256 = sha := Option.some.inj (hsha.symm.trans hmsha)
      exact hdigest o ho hmoved
  · intro o₁' ho₁' o₂' ho₂' hsameId m' hm' hid hnone
    obtain ⟨o₁, ho₁, rfl⟩ := (hoccurrences o₁').mp ho₁'
    obtain ⟨o₂, ho₂, rfl⟩ := (hoccurrences o₂').mp ho₂'
    obtain ⟨m, hm, hlike, hcase⟩ := hkept o₁ ho₁ m' hm' hid
    have hmnone : m.originalSha256 = none := hlike.2.2.2.symm.trans hnone
    rcases hcase with ⟨hmoved, hmid⟩ | ⟨-, rfl⟩
    · by_cases hmoved₂ : o₂.messageId = row.id
      · rw [if_neg hmoved, if_pos hmoved₂] at hsameId
        -- a row whose bytes are not known is not the survivor
        obtain rfl : m = survivor := Table.eq_of_key_eq hm hsurvivor (hmid.trans hsameId)
        rw [hsha] at hmnone
        cases hmnone
      · rw [if_neg hmoved, if_neg hmoved₂] at hsameId ⊢
        exact htraced.alone o₁ ho₁ o₂ ho₂ hsameId m hm hmid hmnone
    · rw [hsha] at hmnone
      cases hmnone
  · intro o₁' ho₁' o₂' ho₂' hplace
    obtain ⟨o₁, ho₁, rfl⟩ := (hoccurrences o₁').mp ho₁'
    obtain ⟨o₂, ho₂, rfl⟩ := (hoccurrences o₂').mp ho₂'
    have hstays : ∀ o : MessageOccurrence, (if o.messageId = row.id then
        { o with messageId := survivor.id } else o).place = o.place := by
      intro o
      split <;> rfl
    rw [hstays, hstays] at hplace
    rw [htraced.place o₁ ho₁ o₂ ho₂ hplace]
  · intro m₁' hm₁' m₂' hm₂' haccount sha hsha₁ hsha₂
    obtain ⟨m₁, hm₁, -, hlike₁⟩ := hback m₁' hm₁'
    obtain ⟨m₂, hm₂, -, hlike₂⟩ := hback m₂' hm₂'
    have heq : m₁ = m₂ := htraced.bytes m₁ hm₁ m₂ hm₂
      (hlike₁.2.1.symm.trans (haccount.trans hlike₂.2.1)) sha (hlike₁.2.2.2.symm.trans hsha₁)
      (hlike₂.2.2.2.symm.trans hsha₂)
    exact Table.eq_of_key_eq hm₁' hm₂' (hlike₁.1.trans (heq ▸ hlike₂.1.symm))

/-- The transaction of an original that the mail servers hold keeps what the rows stand for. -/
theorem Traced.commitOriginal (htraced : Traced source db) (hparsed : parsed = source.parsed sha256)
    (hdigest : ∀ o ∈ db.messageOccurrences, o.messageId = messageId → source.digest o.place = sha256)
    (h : (MailHub.commitOriginal accountId messageId parsed derived storageKey sha256 sizeBytes
      now).run db = .ok (result, db')) : Traced source db' := by
  obtain ⟨row, hrow⟩ : ∃ row, findRow accountId messageId db = some row := by
    unfold MailHub.commitOriginal at h
    rw [StateT.run_bind] at h
    obtain ⟨⟨row, db₁⟩, hlock, -⟩ := bind_eq_ok.mp h
    exact ⟨row, (lockMessage_ok.mp hlock).1⟩
  rw [commitOriginal_run hrow] at h
  cases hduplicate : findDuplicate accountId messageId sha256 db with
  | none =>
      rw [hduplicate] at h
      exact htraced.applyIngested hrow hparsed hdigest (findDuplicate_eq_none hduplicate) h
  | some survivor =>
      rw [hduplicate] at h
      obtain ⟨-, rfl⟩ := mergeDuplicate_ok h
      obtain ⟨hmem, haccount, hsha, hne⟩ := findDuplicate_eq_some hduplicate
      obtain ⟨hin, rfl, rfl⟩ := findRow_eq_some_iff.mp hrow
      exact htraced.afterMerge hin hmem haccount hne hsha hdigest

/-- A transaction that reads the mail servers keeps what the rows stand for. -/
theorem Traced.step {parseHeaderBlock : Bytes → ImportedHeaders} {e : LinkEvent}
    (htraced : Traced source db) (hreads : e.Reads source parseHeaderBlock db)
    (hstep : LinkStep parseHeaderBlock e db db') : Traced source db' := by
  cases hstep with
  | imported h => exact htraced.importWindow hreads h
  | committed h => exact htraced.commitOriginal hreads.1 hreads.2 h
  | reconciled h => exact htraced.reconcileRow h

end

/-! ## The same mail in two databases -/

variable {db₁ db₂ : Database} {m₁ m₂ m₁' m₂' : Message}

/-- Two databases file the same places of an account, with the bytes known of the same ones. -/
structure FilesSame (accountId : Uuid) (db₁ db₂ : Database) : Prop where
  forth : ∀ o₁ ∈ db₁.messageOccurrences, o₁.accountId = accountId →
    ∃ o₂ ∈ db₂.messageOccurrences, o₂.accountId = accountId ∧ o₂.place = o₁.place
  back : ∀ o₂ ∈ db₂.messageOccurrences, o₂.accountId = accountId →
    ∃ o₁ ∈ db₁.messageOccurrences, o₁.accountId = accountId ∧ o₁.place = o₂.place
  bytes : ∀ o₁ ∈ db₁.messageOccurrences, ∀ o₂ ∈ db₂.messageOccurrences, o₁.place = o₂.place →
    ∀ m₁ ∈ db₁.messages, m₁.id = o₁.messageId → ∀ m₂ ∈ db₂.messages, m₂.id = o₂.messageId →
      (m₁.originalSha256.isSome ↔ m₂.originalSha256.isSome)

theorem FilesSame.symm (h : FilesSame accountId db₁ db₂) : FilesSame accountId db₂ db₁ where
  forth := h.back
  back := h.forth
  bytes o₂ ho₂ o₁ ho₁ hplace m₂ hm₂ hid₂ m₁ hm₁ hid₁ :=
    (h.bytes o₁ ho₁ o₂ ho₂ hplace.symm m₁ hm₁ hid₁ m₂ hm₂ hid₂).symm

/-- Two rows of an account stand for a common place. -/
structure Counterparts (accountId : Uuid) (db₁ db₂ : Database) (m₁ m₂ : Message) : Prop where
  left : m₁ ∈ db₁.messages ∧ m₁.accountId = accountId
  right : m₂ ∈ db₂.messages ∧ m₂.accountId = accountId
  place : ∃ o₁ ∈ db₁.messageOccurrences, ∃ o₂ ∈ db₂.messageOccurrences,
    o₁.messageId = m₁.id ∧ o₂.messageId = m₂.id ∧ o₁.place = o₂.place

theorem Counterparts.symm (h : Counterparts accountId db₁ db₂ m₁ m₂) :
    Counterparts accountId db₂ db₁ m₂ m₁ where
  left := h.right
  right := h.left
  place := by
    obtain ⟨o₁, ho₁, o₂, ho₂, hid₁, hid₂, hplace⟩ := h.place
    exact ⟨o₂, ho₂, o₁, ho₁, hid₂, hid₁, hplace.symm⟩

/-- Every row has a counterpart. -/
theorem FilesSame.exists_counterpart (h : FilesSame accountId db₁ db₂) (htraced₁ : Traced source db₁)
    (htraced₂ : Traced source db₂) (hm₁ : m₁ ∈ db₁.messages) (haccount : m₁.accountId = accountId) :
    ∃ m₂, Counterparts accountId db₁ db₂ m₁ m₂ := by
  obtain ⟨o₁, ho₁, hid₁⟩ := htraced₁.occurrence m₁ hm₁
  have hown : o₁.accountId = accountId := by
    obtain ⟨m, hm, hid, hmaccount⟩ := isRow_iff.mp (htraced₁.row o₁ ho₁)
    obtain rfl : m = m₁ := Table.eq_of_key_eq hm hm₁ (hid.trans hid₁)
    exact hmaccount.symm.trans haccount
  obtain ⟨o₂, ho₂, hown₂, hplace⟩ := h.forth o₁ ho₁ hown
  obtain ⟨m₂, hm₂, hid₂, haccount₂⟩ := isRow_iff.mp (htraced₂.row o₂ ho₂)
  exact ⟨m₂, ⟨hm₁, haccount⟩, ⟨hm₂, haccount₂.trans hown₂⟩, o₁, ho₁, o₂, ho₂, hid₁, hid₂.symm,
    hplace.symm⟩

/-- Counterparts have the same bytes, if known. -/
theorem Counterparts.originalSha256_eq (h : Counterparts accountId db₁ db₂ m₁ m₂)
    (hsame : FilesSame accountId db₁ db₂) (htraced₁ : Traced source db₁)
    (htraced₂ : Traced source db₂) : m₁.originalSha256 = m₂.originalSha256 := by
  obtain ⟨o₁, ho₁, o₂, ho₂, hid₁, hid₂, hplace⟩ := h.place
  have hbytes := hsame.bytes o₁ ho₁ o₂ ho₂ hplace m₁ h.left.1 hid₁.symm m₂ h.right.1 hid₂.symm
  cases hsha₁ : m₁.originalSha256 with
  | none =>
      cases hsha₂ : m₂.originalSha256 with
      | none => rfl
      | some sha₂ =>
          rw [hsha₁, hsha₂] at hbytes
          exact absurd (hbytes.mpr rfl) (by simp)
  | some sha₁ =>
      cases hsha₂ : m₂.originalSha256 with
      | none =>
          rw [hsha₁, hsha₂] at hbytes
          exact absurd (hbytes.mp rfl) (by simp)
      | some sha₂ =>
          have hdigest₁ := htraced₁.digest o₁ ho₁ m₁ h.left.1 hid₁.symm sha₁ hsha₁
          have hdigest₂ := htraced₂.digest o₂ ho₂ m₂ h.right.1 hid₂.symm sha₂ hsha₂
          rw [← hdigest₁, ← hdigest₂, hplace]

/-- Counterparts have the same columns. -/
theorem Counterparts.linkColumns_eq (h : Counterparts accountId db₁ db₂ m₁ m₂)
    (hsame : FilesSame accountId db₁ db₂) (htraced₁ : Traced source db₁)
    (htraced₂ : Traced source db₂) : m₁.linkColumns = m₂.linkColumns := by
  have hsha := h.originalSha256_eq hsame htraced₁ htraced₂
  obtain ⟨o₁, ho₁, o₂, ho₂, hid₁, hid₂, hplace⟩ := h.place
  rw [htraced₁.columns o₁ ho₁ m₁ h.left.1 hid₁.symm, htraced₂.columns o₂ ho₂ m₂ h.right.1 hid₂.symm,
    hsha, hplace]

/-- A row has one counterpart. -/
theorem Counterparts.unique (h : Counterparts accountId db₁ db₂ m₁ m₂)
    (h' : Counterparts accountId db₁ db₂ m₁ m₂') (hsame : FilesSame accountId db₁ db₂)
    (htraced₁ : Traced source db₁) (htraced₂ : Traced source db₂) : m₂ = m₂' := by
  have hsha := h.originalSha256_eq hsame htraced₁ htraced₂
  have hsha' := h'.originalSha256_eq hsame htraced₁ htraced₂
  cases hknown : m₁.originalSha256 with
  | some sha256 =>
      exact htraced₂.bytes m₂ h.right.1 m₂' h'.right.1 (h.right.2.trans h'.right.2.symm) sha256
        (hsha.symm.trans hknown) (hsha'.symm.trans hknown)
  | none =>
      -- the row stands for one place only
      obtain ⟨o₁, ho₁, o₂, ho₂, hid₁, hid₂, hplace⟩ := h.place
      obtain ⟨o₁', ho₁', o₂', ho₂', hid₁', hid₂', hplace'⟩ := h'.place
      obtain rfl : o₁ = o₁' := htraced₁.alone o₁ ho₁ o₁' ho₁' (hid₁.trans hid₁'.symm) m₁ h.left.1
        hid₁.symm hknown
      obtain rfl : o₂ = o₂' := htraced₂.place o₂ ho₂ o₂' ho₂' (hplace.symm.trans hplace')
      exact Table.eq_of_key_eq h.right.1 h'.right.1 (hid₂.symm.trans hid₂')

/-! ## Decisions of counterparts -/

/-- The parent that the holders alone give to a row of an account. -/
def resolvedParent (accountId : Uuid) (db : Database) (id : Uuid) : Option Uuid :=
  (findRow accountId id db).bind fun m => (holderDecision m db).parentId

/-- When a row is linked by its holders. -/
theorem holderDecision_eq_linked_iff {parentId : Uuid} : holderDecision row db = .linked parentId ↔
    ∃ identifier, resolveParentReference row.inReplyTo row.referenceIds = .candidate identifier ∧
      row.messageId ≠ some identifier ∧ holders row.accountId identifier db = [parentId] ∧
      parentId ≠ row.id := by
  unfold holderDecision
  cases resolveParentReference row.inReplyTo row.referenceIds with
  | root => simp
  | conflicted => simp
  | candidate identifier =>
      dsimp only
      by_cases hself : row.messageId = some identifier
      · rw [if_pos hself]
        simp [hself]
      · rw [if_neg hself]
        cases hholders : holders row.accountId identifier db with
        | nil => simp [hholders]
        | cons holderId rest =>
            cases rest with
            | cons second rest => simp [hholders]
            | nil =>
                by_cases hid : holderId = row.id
                · simp only [hid, hholders, hself, if_true, reduceCtorEq, ParentReference.candidate.injEq,
                    exists_eq_left', List.cons.injEq, and_true, ne_eq, false_iff, not_and, not_not,
                    not_false_eq_true, true_and]
                  exact fun h => h.symm
                · simp [hid, hholders, hself]
                  rintro rfl
                  exact hid

theorem nodup_holders {identifier : String} : (holders accountId identifier db).Nodup := by
  have hkeys : (db.messages.rows.map (·.id)).Nodup := db.messages.nodup
  exact hkeys.sublist (List.Sublist.map _ List.filter_sublist)

/-- An identifier has one holder when there is one and no other. -/
theorem holders_eq_singleton_iff {identifier : String} : holders accountId identifier db = [id] ↔
    id ∈ holders accountId identifier db ∧ ∀ x ∈ holders accountId identifier db, x = id := by
  constructor
  · intro h
    rw [h]
    simp
  · rintro ⟨hin, hall⟩
    have hnodup : (holders accountId identifier db).Nodup := nodup_holders
    cases hholders : holders accountId identifier db with
    | nil =>
        rw [hholders] at hin
        cases hin
    | cons first rest =>
        rw [hholders] at hall hnodup
        obtain rfl := hall first List.mem_cons_self
        cases rest with
        | nil => rfl
        | cons second rest =>
            obtain rfl := hall second (by simp)
            simp at hnodup

section

variable (hsame : FilesSame accountId db₁ db₂) (htraced₁ : Traced source db₁)
  (htraced₂ : Traced source db₂)

include hsame htraced₁ htraced₂

/-- Counterparts hold the same identifiers. -/
theorem Counterparts.mem_holders {identifier : String} (h : Counterparts accountId db₁ db₂ m₁ m₂)
    (hholder : m₁.id ∈ holders accountId identifier db₁) :
    m₂.id ∈ holders accountId identifier db₂ := by
  obtain ⟨m, hm, hid, -, hheld⟩ := MailHub.mem_holders.mp hholder
  obtain rfl : m = m₁ := Table.eq_of_key_eq hm h.left.1 hid
  have hcolumns := h.linkColumns_eq hsame htraced₁ htraced₂
  have hmessage : m.messageId = m₂.messageId := (LinkColumns.mk.inj hcolumns).1
  exact MailHub.mem_holders.mpr ⟨m₂, h.right.1, rfl, h.right.2, hmessage.symm.trans hheld⟩

/-- The holders link counterparts to counterparts. -/
theorem Counterparts.linked (h : Counterparts accountId db₁ db₂ m₁ m₂)
    (h' : Counterparts accountId db₁ db₂ m₁' m₂')
    (hlinked : holderDecision m₁ db₁ = .linked m₁'.id) :
    holderDecision m₂ db₂ = .linked m₂'.id := by
  obtain ⟨identifier, hreference, hself, hholders, hne⟩ := holderDecision_eq_linked_iff.mp hlinked
  have hcolumns := h.linkColumns_eq hsame htraced₁ htraced₂
  obtain ⟨hmessage, hreply, hreferences⟩ := LinkColumns.mk.inj hcolumns
  rw [h.left.2] at hholders
  obtain ⟨hin, hall⟩ := holders_eq_singleton_iff.mp hholders
  refine holderDecision_eq_linked_iff.mpr ⟨identifier, ?_, ?_, ?_, ?_⟩
  · rw [← hreply, ← hreferences]
    exact hreference
  · rw [← hmessage]
    exact hself
  · rw [h.right.2]
    refine holders_eq_singleton_iff.mpr ⟨h'.mem_holders hsame htraced₁ htraced₂ hin, ?_⟩
    intro x hx
    -- another holder would have a counterpart
    obtain ⟨q₂, hq₂, rfl, haccount, -⟩ := MailHub.mem_holders.mp hx
    obtain ⟨q₁, hq⟩ := hsame.symm.exists_counterpart htraced₂ htraced₁ hq₂ haccount
    have hid := hall q₁.id (hq.mem_holders hsame.symm htraced₂ htraced₁ hx)
    obtain rfl : q₁ = m₁' := Table.eq_of_key_eq hq.right.1 h'.left.1 hid
    rw [hq.symm.unique h' hsame htraced₁ htraced₂]
  · intro hid
    obtain rfl : m₂' = m₂ := Table.eq_of_key_eq h'.right.1 h.right.1 hid
    exact hne (by rw [h'.symm.unique h.symm hsame.symm htraced₂ htraced₁])

end

/-- At rest, when the links that the holders give have no cycle, these are the links recorded. -/
theorem Settled.recordedParent_eq (hsettled : Settled db)
    (hrest : ∀ m ∈ db.messages, m.accountId = accountId → m.threadDirty = false)
    (hacyclic : Acyclic (resolvedParent accountId db)) :
    recordedParent accountId db = resolvedParent accountId db := by
  -- every recorded link is one that the holders give
  have hrecorded : ∀ {x y}, recordedParent accountId db x = some y →
      resolvedParent accountId db x = some y := by
    intro x y hxy
    obtain ⟨m, hm, hparent⟩ := Option.bind_eq_some_iff.mp hxy
    obtain ⟨hmem, rfl, rfl⟩ := findRow_eq_some_iff.mp hm
    obtain ⟨decision, hdecision, -, hdecided⟩ := hsettled.clean m hmem (hrest m hmem rfl)
    unfold resolvedParent
    rw [hm, Option.bind_some]
    rw [hparent] at hdecided
    rw [decideLink_eq] at hdecision
    cases hholder : holderDecision m db with
    | root => rw [hholder] at hdecision; cases hdecision; cases hdecided
    | pending => rw [hholder] at hdecision; cases hdecision; cases hdecided
    | ambiguous => rw [hholder] at hdecision; cases hdecision; cases hdecided
    | linked parentId =>
        rw [hholder] at hdecision
        obtain ⟨reaches, -, rfl⟩ := Option.map_eq_some_iff.mp hdecision
        cases reaches with
        | true => cases hdecided
        | false => exact hdecided.symm
  funext x
  unfold resolvedParent
  cases hm : findRow accountId x db with
  | none =>
      unfold recordedParent
      rw [hm]
      rfl
  | some m =>
      obtain ⟨hmem, rfl, rfl⟩ := findRow_eq_some_iff.mp hm
      rw [recordedParent_of_mem hmem, Option.bind_some]
      obtain ⟨decision, hdecision, -, hdecided⟩ := hsettled.clean m hmem (hrest m hmem rfl)
      rw [hdecided]
      rw [decideLink_eq] at hdecision
      cases hholder : holderDecision m db with
      | root => rw [hholder] at hdecision; cases hdecision; rfl
      | pending => rw [hholder] at hdecision; cases hdecision; rfl
      | ambiguous => rw [hholder] at hdecision; cases hdecision; rfl
      | linked parentId =>
          rw [hholder] at hdecision
          obtain ⟨reaches, hreaches, rfl⟩ := Option.map_eq_some_iff.mp hdecision
          cases reaches with
          | false => rfl
          | true =>
              -- a way back would be a cycle of links that the holders give
              obtain ⟨reaches', hreaches', hmeets⟩ : ∃ reaches',
                  chainReaches m.accountId parentId m.id db = some reaches' ∧ _ :=
                chainReaches_eq_some (hsettled.acyclic m.accountId) parentId
              obtain rfl : true = reaches' := Option.some.inj (hreaches.symm.trans hreaches')
              obtain ⟨k, -, hup⟩ := hmeets.mp rfl
              have hback := ancestor_mono hrecorded hup
              have hlinked : resolvedParent m.accountId db m.id = some parentId := by
                unfold resolvedParent
                rw [hm, Option.bind_some, hholder]
                rfl
              exact absurd ⟨k, by rw [ancestor_succ_of_eq_some hlinked, hback]⟩ (hacyclic m.id)

/-! ## Runs -/

section

variable {parseHeaderBlock : Bytes → ImportedHeaders}

/-- Whether a transaction reads the mail servers, breaks no way back to a row at rest, and detaches a
survivor alone; and whether the chains of the account are shallow before it. -/
def LinkEvent.Orderly (source : MailSource) (parseHeaderBlock : Bytes → ImportedHeaders)
    (accountId : Uuid) (e : LinkEvent) (db : Database) : Prop :=
  e.Reads source parseHeaderBlock db ∧ e.Quiet db ∧ e.Detached accountId db

theorem traced_empty : Traced source Database.empty where
  row _ ho := (List.not_mem_nil ho).elim
  occurrence _ hm := (List.not_mem_nil hm).elim
  columns _ ho := (List.not_mem_nil ho).elim
  digest _ ho := (List.not_mem_nil ho).elim
  alone _ ho := (List.not_mem_nil ho).elim
  place _ ho := (List.not_mem_nil ho).elim
  bytes _ hm := (List.not_mem_nil hm).elim

/-- What holds in an orderly run. -/
theorem LinkRun.orderly
    (h : LinkRun parseHeaderBlock (LinkEvent.Orderly source parseHeaderBlock accountId)
      Database.empty db) (hshallow : Shallow accountId db) :
    Traced source db ∧ Settled db ∧ Threaded accountId db ∧ Named db := by
  induction h with
  | start =>
      exact ⟨traced_empty, settled_empty, threaded_empty, fun m hm => (List.not_mem_nil hm).elim⟩
  | next _ horderly hstep ih =>
      obtain ⟨hreads, hquiet, hdetached⟩ := horderly
      obtain ⟨htraced, hsettled, hthreaded, hnamed⟩ := ih hdetached.1
      exact ⟨htraced.step hreads hstep, hsettled.step hquiet hstep,
        hthreaded.step hnamed hdetached hshallow hstep⟩

/-- Two identifiers are those of counterparts. -/
def SameRow (accountId : Uuid) (db₁ db₂ : Database) (x y : Uuid) : Prop :=
  ∃ m₁ m₂, m₁.id = x ∧ m₂.id = y ∧ Counterparts accountId db₁ db₂ m₁ m₂

/-- The holders give counterparts to counterparts as their parents. -/
theorem exists_resolvedParent (hsame : FilesSame accountId db₁ db₂) (htraced₁ : Traced source db₁)
    (htraced₂ : Traced source db₂) {x y z : Uuid} (hxy : SameRow accountId db₁ db₂ x y)
    (hparent : resolvedParent accountId db₁ x = some z) :
    ∃ w, resolvedParent accountId db₂ y = some w ∧ SameRow accountId db₁ db₂ z w := by
  obtain ⟨m₁, m₂, rfl, rfl, h⟩ := hxy
  unfold resolvedParent at hparent
  rw [findRow_eq_some_iff.mpr ⟨h.left.1, rfl, h.left.2⟩, Option.bind_some] at hparent
  have hlinked : holderDecision m₁ db₁ = .linked z := by
    cases hholder : holderDecision m₁ db₁ with
    | root => rw [hholder] at hparent; cases hparent
    | pending => rw [hholder] at hparent; cases hparent
    | ambiguous => rw [hholder] at hparent; cases hparent
    | linked parentId =>
        rw [hholder] at hparent
        rw [Option.some.inj hparent]
  obtain ⟨identifier, -, hholder⟩ := holder_of_linked hlinked
  obtain ⟨m₁', hm₁', rfl, haccount, -⟩ := mem_holders.mp hholder
  obtain ⟨m₂', h'⟩ := hsame.exists_counterpart htraced₁ htraced₂ hm₁' (haccount.trans h.left.2)
  refine ⟨m₂'.id, ?_, m₁', m₂', rfl, rfl, h'⟩
  unfold resolvedParent
  rw [findRow_eq_some_iff.mpr ⟨h.right.1, rfl, h.right.2⟩, Option.bind_some,
    h.linked hsame htraced₁ htraced₂ h' hlinked]
  rfl

theorem SameRow.symm {x y : Uuid} (h : SameRow accountId db₁ db₂ x y) :
    SameRow accountId db₂ db₁ y x := by
  obtain ⟨m₁, m₂, hx, hy, h⟩ := h
  exact ⟨m₂, m₁, hy, hx, h.symm⟩

theorem SameRow.unique (hsame : FilesSame accountId db₁ db₂) (htraced₁ : Traced source db₁)
    (htraced₂ : Traced source db₂) {x y z : Uuid} (h : SameRow accountId db₁ db₂ x y)
    (h' : SameRow accountId db₁ db₂ x z) : y = z := by
  obtain ⟨m₁, m₂, rfl, rfl, h⟩ := h
  obtain ⟨m₁', m₂', hid, rfl, h'⟩ := h'
  obtain rfl : m₁' = m₁ := Table.eq_of_key_eq h'.left.1 h.left.1 hid
  rw [h.unique h' hsame htraced₁ htraced₂]

/-- Orders of filing. Two orderly runs that file the same mail of an account, in which the links that
the holders give have no cycle at the end, agree once they are at rest: the rows are counterparts
one by one, and counterparts have counterparts as their parents and are in one thread in the one
database exactly when they are in the other. -/
theorem orders_agree
    (hrun₁ : LinkRun parseHeaderBlock (LinkEvent.Orderly source parseHeaderBlock accountId)
      Database.empty db₁)
    (hrun₂ : LinkRun parseHeaderBlock (LinkEvent.Orderly source parseHeaderBlock accountId)
      Database.empty db₂)
    (hshallow₁ : Shallow accountId db₁) (hshallow₂ : Shallow accountId db₂)
    (hrest₁ : ∀ m ∈ db₁.messages, m.accountId = accountId → m.threadDirty = false)
    (hrest₂ : ∀ m ∈ db₂.messages, m.accountId = accountId → m.threadDirty = false)
    (hsame : FilesSame accountId db₁ db₂) (hacyclic : Acyclic (resolvedParent accountId db₁)) :
    (∀ m₁ ∈ db₁.messages, m₁.accountId = accountId →
      ∃ m₂, Counterparts accountId db₁ db₂ m₁ m₂) ∧
    (∀ m₂ ∈ db₂.messages, m₂.accountId = accountId →
      ∃ m₁, Counterparts accountId db₁ db₂ m₁ m₂) ∧
    ∀ m₁ m₂ m₁' m₂', Counterparts accountId db₁ db₂ m₁ m₂ →
      Counterparts accountId db₁ db₂ m₁' m₂' → (m₁ = m₁' ↔ m₂ = m₂') ∧
        (m₁.parentMessageId = some m₁'.id ↔ m₂.parentMessageId = some m₂'.id) ∧
        (m₁.threadId = m₁'.threadId ↔ m₂.threadId = m₂'.threadId) := by
  obtain ⟨htraced₁, hsettled₁, hthreaded₁, -⟩ := hrun₁.orderly hshallow₁
  obtain ⟨htraced₂, hsettled₂, hthreaded₂, -⟩ := hrun₂.orderly hshallow₂
  refine ⟨fun m₁ hm₁ haccount => hsame.exists_counterpart htraced₁ htraced₂ hm₁ haccount,
    fun m₂ hm₂ haccount => ?_, fun m₁ m₂ m₁' m₂' h h' => ?_⟩
  · obtain ⟨m₁, h⟩ := hsame.symm.exists_counterpart htraced₂ htraced₁ hm₂ haccount
    exact ⟨m₁, h.symm⟩
  -- the recorded links are those that the holders give
  have hacyclic₂ : Acyclic (resolvedParent accountId db₂) := by
    refine hacyclic.of_same (SameRow accountId db₂ db₁)
      (fun hsameRow hparent => exists_resolvedParent hsame.symm htraced₂ htraced₁ hsameRow hparent)
      (fun x y hparent => ?_)
      (fun hsameRow hsameRow' => hsameRow.unique hsame.symm htraced₂ htraced₁ hsameRow')
    obtain ⟨m, hm, -⟩ := Option.bind_eq_some_iff.mp hparent
    obtain ⟨hmem, rfl, haccount⟩ := findRow_eq_some_iff.mp hm
    obtain ⟨m₁, hcounter⟩ := hsame.symm.exists_counterpart htraced₂ htraced₁ hmem haccount
    exact ⟨m₁.id, m, m₁, rfl, rfl, hcounter⟩
  have hlinks₁ := hsettled₁.recordedParent_eq hrest₁ hacyclic
  have hlinks₂ := hsettled₂.recordedParent_eq hrest₂ hacyclic₂
  have hforth : ∀ {x y z}, SameRow accountId db₁ db₂ x y →
      recordedParent accountId db₁ x = some z →
      ∃ w, recordedParent accountId db₂ y = some w ∧ SameRow accountId db₁ db₂ z w := by
    intro x y z hxy hparent
    rw [hlinks₁] at hparent
    rw [hlinks₂]
    exact exists_resolvedParent hsame htraced₁ htraced₂ hxy hparent
  have hback : ∀ {x y z}, SameRow accountId db₂ db₁ x y →
      recordedParent accountId db₂ x = some z →
      ∃ w, recordedParent accountId db₁ y = some w ∧ SameRow accountId db₂ db₁ z w := by
    intro x y z hxy hparent
    rw [hlinks₂] at hparent
    rw [hlinks₁]
    exact exists_resolvedParent hsame.symm htraced₂ htraced₁ hxy hparent
  have huniq : ∀ {x y z}, SameRow accountId db₁ db₂ x y → SameRow accountId db₁ db₂ x z → y = z :=
    fun h h' => h.unique hsame htraced₁ htraced₂ h'
  have huniq' : ∀ {x y z}, SameRow accountId db₂ db₁ x y → SameRow accountId db₂ db₁ x z → y = z :=
    fun h h' => h.unique hsame.symm htraced₂ htraced₁ h'
  have hrow : SameRow accountId db₁ db₂ m₁.id m₂.id := ⟨m₁, m₂, rfl, rfl, h⟩
  have hrow' : SameRow accountId db₁ db₂ m₁'.id m₂'.id := ⟨m₁', m₂', rfl, rfl, h'⟩
  have hrecorded₁ : recordedParent accountId db₁ m₁.id = m₁.parentMessageId :=
    h.left.2 ▸ recordedParent_of_mem h.left.1
  have hrecorded₂ : recordedParent accountId db₂ m₂.id = m₂.parentMessageId :=
    h.right.2 ▸ recordedParent_of_mem h.right.1
  refine ⟨⟨?_, ?_⟩, ⟨?_, ?_⟩, ?_⟩
  · rintro rfl
    exact h.unique h' hsame htraced₁ htraced₂
  · rintro rfl
    exact h.symm.unique h'.symm hsame.symm htraced₂ htraced₁
  · intro hparent
    obtain ⟨w, hw, hsameRow⟩ := hforth hrow (hrecorded₁.trans hparent)
    rw [← hrecorded₂, hw, huniq hsameRow hrow']
  · intro hparent
    obtain ⟨w, hw, hsameRow⟩ := hback hrow.symm (hrecorded₂.trans hparent)
    rw [← hrecorded₁, hw, huniq' hsameRow hrow'.symm]
  · rw [hthreaded₁.same_thread_iff hshallow₁ hrest₁ h.left.1 h.left.2 h'.left.1 h'.left.2,
      hthreaded₂.same_thread_iff hshallow₂ hrest₂ h.right.1 h.right.2 h'.right.1 h'.right.2]
    have hnone : ∀ {x y}, SameRow accountId db₁ db₂ x y → recordedParent accountId db₁ x = none →
        recordedParent accountId db₂ y = none := by
      intro x y hxy hx
      cases hy : recordedParent accountId db₂ y with
      | none => rfl
      | some w =>
          obtain ⟨z, hz, -⟩ := hback hxy.symm hy
          rw [hx] at hz
          cases hz
    have hnone' : ∀ {x y}, SameRow accountId db₂ db₁ x y → recordedParent accountId db₂ x = none →
        recordedParent accountId db₁ y = none := by
      intro x y hxy hx
      cases hy : recordedParent accountId db₁ y with
      | none => rfl
      | some w =>
          obtain ⟨z, hz, -⟩ := hforth hxy.symm hy
          rw [hx] at hz
          cases hz
    constructor
    · rintro ⟨r, hr, hr'⟩
      obtain ⟨s, hs, hrs⟩ := hr.of_same (SameRow accountId db₁ db₂) hrow hforth hnone
      obtain ⟨s', hs', hrs'⟩ := hr'.of_same (SameRow accountId db₁ db₂) hrow' hforth hnone
      exact ⟨s, hs, huniq hrs hrs' ▸ hs'⟩
    · rintro ⟨r, hr, hr'⟩
      obtain ⟨s, hs, hrs⟩ := hr.of_same (SameRow accountId db₂ db₁) hrow.symm hback hnone'
      obtain ⟨s', hs', hrs'⟩ := hr'.of_same (SameRow accountId db₂ db₁) hrow'.symm hback hnone'
      exact ⟨s, hs, huniq' hrs hrs' ▸ hs'⟩

end

/-- In a shallow account a row without a parent may be reconciled at any time. -/
theorem Shallow.reconcilesWell (h : Shallow accountId db)
    (hnone : ∀ m ∈ db.messages, recordedParent m.accountId db messageId = none) :
    ReconcilesWell accountId messageId db := by
  refine ⟨fun row _ parentId _ n hn hup => ?_, fun row _ => .inr (offReturns_of_none hnone)⟩
  obtain ⟨k, rfl⟩ := Nat.exists_eq_add_of_le hn
  rw [ancestor_add, h parentId] at hup
  cases hup

/-- The rows of a sample have no parent, or only one above. -/
def IsFlat (db : Database) : Prop := ∀ m ∈ db.messages.rows, m.accountId = 1 ∧
  m.parentMessageId.bind (recordedParent 1 db) = none

theorem IsFlat.shallow (h : IsFlat db) : Shallow 1 db :=
  shallow_of_flat fun m hm _ => (h m hm).2

theorem IsFlat.reconcilesWell (h : IsFlat db) (hnone : recordedParent 1 db messageId = none) :
    ReconcilesWell 1 messageId db := by
  refine h.shallow.reconcilesWell fun m hm => ?_
  rw [(h m hm).1]
  exact hnone

/-- The mail servers of a sample: a message and its reply. -/
def sampleSource : MailSource where
  headers place := sampleHeaders (if place.uid = 1 then [] else [1])
  digest _ := "digest"
  parsed _ := sampleLoopParsed

/-- The message and its reply in one window, the reply reconciled first. -/
def sampleTogether : Database := reconciledBy 1 1 10 samplePairReplied

/-- The reply alone, reconciled while its parent is missing. -/
def sampleReplyAlone : Database :=
  reconciledBy 1 21 31 (leftBy (importWindow sampleHeaders 1 3 7
    [(⟨21, 21, 0⟩, ⟨2, true, false, 0, 0, [1]⟩)]) Database.empty)

/-- Then the message, and both reconciled. -/
def sampleApart : Database :=
  reconciledBy 1 21 33 (reconciledBy 1 22 32 (leftBy (importWindow sampleHeaders 1 3 7
    [(⟨22, 22, 0⟩, ⟨1, true, false, 0, 0, []⟩)]) sampleReplyAlone))

/-- Both orders link the reply to the message and put them into one thread. -/
theorem orders_agree_sample : recordedParent 1 sampleTogether 2 = some 1 ∧
    recordedParent 1 sampleApart 21 = some 22 ∧
    ∀ m₁ m₂ m₁' m₂', Counterparts 1 sampleTogether sampleApart m₁ m₂ →
      Counterparts 1 sampleTogether sampleApart m₁' m₂' →
        (m₁.threadId = m₁'.threadId ↔ m₂.threadId = m₂'.threadId) := by
  have hempty : IsFlat Database.empty := fun m hm => (List.not_mem_nil hm).elim
  have hadded : IsFlat samplePairAdded := by unfold IsFlat; decide +kernel
  have hreplied : IsFlat samplePairReplied := by unfold IsFlat; decide +kernel
  have htogether : IsFlat sampleTogether := by unfold IsFlat; decide +kernel
  have hrun₁ : LinkRun sampleHeaders (LinkEvent.Orderly sampleSource sampleHeaders 1)
      Database.empty sampleTogether := by
    refine ((LinkRun.start.imports ⟨?_, trivial, hempty.shallow, trivial⟩
      (by decide +kernel)).reconciles ⟨trivial, hadded.reconcilesWell (by decide +kernel),
      hadded.shallow, trivial⟩ (by decide +kernel)).reconciles ⟨trivial,
      hreplied.reconcilesWell (by decide +kernel), hreplied.shallow, trivial⟩ (by decide +kernel)
    unfold LinkEvent.Reads
    decide +kernel
  have hreply : IsFlat (leftBy (importWindow sampleHeaders 1 3 7
      [(⟨21, 21, 0⟩, ⟨2, true, false, 0, 0, [1]⟩)]) Database.empty) := by
    unfold IsFlat
    decide +kernel
  have halone : IsFlat sampleReplyAlone := by unfold IsFlat; decide +kernel
  have hboth : IsFlat (leftBy (importWindow sampleHeaders 1 3 7
      [(⟨22, 22, 0⟩, ⟨1, true, false, 0, 0, []⟩)]) sampleReplyAlone) := by
    unfold IsFlat
    decide +kernel
  have hlast : IsFlat (reconciledBy 1 22 32 (leftBy (importWindow sampleHeaders 1 3 7
      [(⟨22, 22, 0⟩, ⟨1, true, false, 0, 0, []⟩)]) sampleReplyAlone)) := by
    unfold IsFlat
    decide +kernel
  have hapart : IsFlat sampleApart := by unfold IsFlat; decide +kernel
  have hrun₂ : LinkRun sampleHeaders (LinkEvent.Orderly sampleSource sampleHeaders 1)
      Database.empty sampleApart := by
    refine (((((LinkRun.start.imports ⟨?_, trivial, hempty.shallow, trivial⟩
      (by decide +kernel)).reconciles ⟨trivial, hreply.reconcilesWell (by decide +kernel),
      hreply.shallow, trivial⟩ (by decide +kernel)).imports ⟨?_, trivial, halone.shallow, trivial⟩
      (by decide +kernel)).reconciles ⟨trivial, hboth.reconcilesWell (by decide +kernel),
      hboth.shallow, trivial⟩ (by decide +kernel)).reconciles ⟨trivial,
      hlast.reconcilesWell (by decide +kernel), hlast.shallow, trivial⟩ (by decide +kernel))
    · unfold LinkEvent.Reads
      decide +kernel
    · unfold LinkEvent.Reads
      decide +kernel
  have hrest₁ : ∀ m ∈ sampleTogether.messages.rows, m.threadDirty = false := by decide +kernel
  have hrest₂ : ∀ m ∈ sampleApart.messages.rows, m.threadDirty = false := by decide +kernel
  have hsame : FilesSame 1 sampleTogether sampleApart := by
    have hforth : ∀ o₁ ∈ sampleTogether.messageOccurrences.rows, o₁.accountId = 1 →
        ∃ o₂ ∈ sampleApart.messageOccurrences.rows, o₂.accountId = 1 ∧ o₂.place = o₁.place := by
      decide +kernel
    have hback : ∀ o₂ ∈ sampleApart.messageOccurrences.rows, o₂.accountId = 1 →
        ∃ o₁ ∈ sampleTogether.messageOccurrences.rows, o₁.accountId = 1 ∧ o₁.place = o₂.place := by
      decide +kernel
    -- no bytes are known in either database
    have hnone₁ : ∀ m ∈ sampleTogether.messages.rows, m.originalSha256 = none := by decide +kernel
    have hnone₂ : ∀ m ∈ sampleApart.messages.rows, m.originalSha256 = none := by decide +kernel
    refine ⟨hforth, hback, fun _ _ _ _ _ m₁ hm₁ _ m₂ hm₂ _ => ?_⟩
    rw [hnone₁ m₁ hm₁, hnone₂ m₂ hm₂]
  have hacyclic : Acyclic (resolvedParent 1 sampleTogether) := by
    refine Acyclic.of_lt fun a b hab => ?_
    obtain ⟨m, hm, hparent⟩ := Option.bind_eq_some_iff.mp hab
    obtain ⟨hmem, rfl, -⟩ := findRow_eq_some_iff.mp hm
    have hless : ∀ m ∈ sampleTogether.messages.rows,
        (holderDecision m sampleTogether).parentId.all (· < m.id) = true := by
      decide +kernel
    have hb := hless m hmem
    rw [hparent] at hb
    simpa using hb
  obtain ⟨-, -, hagree⟩ := orders_agree hrun₁ hrun₂ htogether.shallow hapart.shallow
    (fun m hm _ => hrest₁ m hm) (fun m hm _ => hrest₂ m hm) hsame hacyclic
  exact ⟨by decide +kernel, by decide +kernel, fun m₁ m₂ m₁' m₂' h h' =>
    (hagree m₁ m₂ m₁' m₂' h h').2.2⟩

end MailHub
