import MailHub.Sync.Keeping

/-!
# What synchronization commits

One specification for each transaction of folder synchronization: what it does to the folder row
and to the occurrences of the folder.
-/

namespace MailHub.FolderSync

open Relational Interleaving Ordering

variable {s : SyncServices} {accountId folderId : Uuid} {g : ℕ} {db db' : Database}
  {locked : Folder}

/-! ## Reported changes -/

/-- The generation change that a batch reports. -/
def BackfillBatchOutcome.change : BackfillBatchOutcome → Option (ℕ × ℕ)
  | .generationChanged _ recorded observed => some (recorded, observed)
  | _ => none

/-- The generation change that a part of a poll reports. -/
def PassOutcome.change {α : Type} : PassOutcome α → Option (ℕ × ℕ)
  | .generationChanged recorded observed => some (recorded, observed)
  | .ok _ => none

/-- The generation change that a poll reports. -/
def PollOutcome.change : PollOutcome → Option (ℕ × ℕ)
  | .generationChanged _ recorded observed => some (recorded, observed)
  | _ => none

/-- The generation change that an inventory reports. -/
def InventoryOutcome.change : InventoryOutcome → Option (ℕ × ℕ)
  | .generationChanged _ recorded observed => some (recorded, observed)
  | _ => none

/-! ## The folder row -/

theorem findFolder_eq_some : findFolder accountId folderId db = some locked ↔
    locked ∈ db.folders ∧ locked.id = folderId ∧ locked.accountId = accountId := by
  unfold findFolder
  simp only [Option.filter_eq_some_iff, Table.find?_eq_some_iff, beq_iff_eq, and_assoc]
  exact Iff.rfl

/-- A locked row is the row of the folder. -/
theorem lockFolder_ok : (lockFolder accountId folderId).run db = .ok (locked, db') ↔
    findFolder accountId folderId db = some locked ∧ db = db' := by
  unfold lockFolder
  cases hrow : findFolder accountId folderId db with
  | none => simp [hrow]
  | some row => simp [hrow]

@[simp] theorem updateFolder_run (F : Folder → Folder) (hF : ∀ row, (F row).id = row.id) :
    (updateFolder folderId F hF).run db =
      .ok ((), { db with folders := db.folders.update (·.id == folderId) F hF }) := rfl

@[simp] theorem recordFolderEvent_run (type : String) : (recordFolderEvent folderId type).run db =
    .ok ((), { db with events := db.events ++ [⟨.system, type, "folder", folderId⟩] }) := rfl

theorem mem_updateFolder {F : Folder → Folder} (hF : ∀ row, (F row).id = row.id) {f' : Folder} :
    f' ∈ db.folders.update (·.id == folderId) F hF ↔
      ∃ f ∈ db.folders, (if f.id = folderId then F f else f) = f' := by
  rw [Table.mem_update]
  simp only [beq_iff_eq]

/-- Recording a change leaves folders and occurrences alone. -/
theorem generationChanged_ok {recorded observed : ℕ} {outcome : BackfillBatchOutcome}
    (hrun : (generationChanged folderId recorded observed).run db = .ok (outcome, db')) :
    outcome = .generationChanged folderId recorded observed ∧ db'.folders = db.folders ∧
      db'.messageOccurrences = db.messageOccurrences := by
  obtain ⟨rfl, rfl⟩ : .generationChanged folderId recorded observed = outcome ∧ _ = db' := by
    simpa [generationChanged] using hrun
  exact ⟨rfl, rfl, rfl⟩

/-! ## Importing a batch -/

/-- The row that a record makes in a folder generation. -/
structure MadeFrom (s : SyncServices) (account folder : Uuid) (g : ℕ) (db : Database)
    (record : MailboxHeaders) (o : MessageOccurrence) : Prop where
  accountId : o.accountId = account
  folderId : o.folderId = folder
  uidvalidity : o.uidvalidity = g
  uid : o.uid = record.uid
  internalDate : o.internalDate = record.internalDate
  unread : o.unread = record.unread
  flagged : o.flagged = record.flagged
  active : o.isActive = true
  /-- The message row holds the normalized headers of the record. -/
  message : ∃ received, importedRow o.messageId account received
    (s.parseHeaderBlock record.rawHeaders) record ∈ db.messages

/-- What the import of some records does to the folders and the occurrences. -/
structure Imports (s : SyncServices) (accountId folderId : Uuid) (g : ℕ)
    (records : List MailboxHeaders) (db db' : Database) : Prop where
  folders : db'.folders = db.folders
  rows : ∀ o ∈ db.messageOccurrences, o ∈ db'.messageOccurrences
  rows_from : ∀ o' ∈ db'.messageOccurrences, o' ∈ db.messageOccurrences ∨
    ∃ record ∈ records, MadeFrom s accountId folderId g db' record o'
  rows_unique : (∀ o ∈ db.messageOccurrences, ∀ o' ∈ db.messageOccurrences, o.id = o'.id → o = o') →
    ∀ o ∈ db'.messageOccurrences, ∀ o' ∈ db'.messageOccurrences, o.id = o'.id → o = o'
  /-- Every record has a row in the end. -/
  present : ∀ record ∈ records, record.uid ∈ copies folderId g db'

theorem MadeFrom.mono {record : MailboxHeaders} {o : MessageOccurrence}
    (h : MadeFrom s accountId folderId g db record o)
    (hmessages : ∀ id received header, importedRow id accountId received header record ∈ db.messages →
      importedRow id accountId received header record ∈ db'.messages) :
    MadeFrom s accountId folderId g db' record o := by
  obtain ⟨received, hmem⟩ := h.message
  exact ⟨h.accountId, h.folderId, h.uidvalidity, h.uid, h.internalDate, h.unread, h.flagged,
    h.active, received, hmessages _ _ _ hmem⟩

/-- One record is imported unless its UID has a row. -/
theorem importRecord_ok {ids : ImportIds} {record : MailboxHeaders} {outcome : Bool × Option String}
    (hrun : (importRecord s accountId folderId g ids record).run db = .ok (outcome, db')) :
    Imports s accountId folderId g [record] db db' ∧ ∀ m ∈ db.messages, m ∈ db'.messages := by
  unfold importRecord importHeaderRecord at hrun
  simp [Tx.read] at hrun
  obtain ⟨⟨⟨o, ho, ⟨hfolder, hgen⟩, huid⟩, -, rfl⟩ | ⟨-, messages, hmessages, rows, hrows, hdb⟩,
    htaken⟩ := hrun
  · -- a replayed record changes nothing
    refine ⟨⟨rfl, fun o ho => ho, fun o' ho' => .inl ho', fun h => h, fun r hr => ?_⟩,
      fun m hm => hm⟩
    obtain rfl : r = record := by simpa using hr
    exact ⟨o, ho, hfolder, hgen, huid⟩
  · obtain ⟨htrue, hfolders, hmessages', hrows'⟩ : outcome.1 = true ∧ db'.folders = db.folders ∧
        db'.messages = messages ∧ db'.messageOccurrences = rows := by
      rcases hdb with ⟨-, rfl, rfl⟩ | ⟨-, rfl, rfl⟩ <;> exact ⟨rfl, rfl, rfl, rfl⟩
    have hfree := htaken htrue
    subst hmessages' hrows'
    refine ⟨⟨hfolders, fun o ho => (Table.mem_insert? hrows).mpr (.inl ho), fun o' ho' => ?_,
      fun hunique o₁ ho₁ o₂ ho₂ hid => ?_, fun r hr => ?_⟩,
      fun m hm => (Table.mem_insert? hmessages).mpr (.inl hm)⟩
    · refine ((Table.mem_insert? hrows).mp ho').imp_right fun hnew => ?_
      subst hnew
      exact ⟨record, List.mem_singleton_self record, rfl, rfl, rfl, rfl, rfl, rfl, rfl, rfl, ids.now,
        (Table.mem_insert? hmessages).mpr (.inr rfl)⟩
    · rcases (Table.mem_insert? hrows).mp ho₁ with hold₁ | rfl
      · rcases (Table.mem_insert? hrows).mp ho₂ with hold₂ | rfl
        · exact hunique o₁ hold₁ o₂ hold₂ hid
        · exact absurd hid (hfree o₁ hold₁)
      · rcases (Table.mem_insert? hrows).mp ho₂ with hold₂ | rfl
        · exact absurd hid.symm (hfree o₂ hold₂)
        · rfl
    · obtain rfl : r = record := by simpa using hr
      exact ⟨_, (Table.mem_insert? hrows).mpr (.inr rfl), rfl, rfl, rfl⟩

/-- Two imports in a row are one import. -/
theorem Imports.append {db₁ : Database} {records records' : List MailboxHeaders}
    (h : Imports s accountId folderId g records db db₁)
    (h' : Imports s accountId folderId g records' db₁ db')
    (hmessages : ∀ m ∈ db₁.messages, m ∈ db'.messages) :
    Imports s accountId folderId g (records ++ records') db db' where
  folders := h'.folders.trans h.folders
  rows o ho := h'.rows o (h.rows o ho)
  rows_from o' ho' := by
    rcases h'.rows_from o' ho' with hold | ⟨record, hrecord, hmade⟩
    · rcases h.rows_from o' hold with hold | ⟨record, hrecord, hmade⟩
      · exact .inl hold
      · exact .inr ⟨record, List.mem_append_left _ hrecord,
          hmade.mono fun _ _ _ hm => hmessages _ hm⟩
    · exact .inr ⟨record, List.mem_append_right _ hrecord, hmade⟩
  rows_unique hunique := h'.rows_unique (h.rows_unique hunique)
  present record hrecord := by
    rcases List.mem_append.mp hrecord with hrecord | hrecord
    · obtain ⟨o, ho, hplace⟩ := h.present record hrecord
      exact ⟨o, h'.rows o ho, hplace⟩
    · exact h'.present record hrecord

theorem importFrom_ok {newIds : ℕ → ImportIds} {n : ℕ} {counts counts' : ImportCounts}
    {records : List MailboxHeaders}
    (hrun : (importFrom s accountId folderId g newIds n counts records).run db =
      .ok (counts', db')) :
    Imports s accountId folderId g records db db' ∧ ∀ m ∈ db.messages, m ∈ db'.messages := by
  induction records generalizing n counts db with
  | nil =>
      obtain ⟨-, rfl⟩ : counts = counts' ∧ db = db' := by simpa [importFrom] using hrun
      exact ⟨⟨rfl, fun o ho => ho, fun o' ho' => .inl ho', fun h => h,
        fun r hr => absurd hr List.not_mem_nil⟩, fun m hm => hm⟩
  | cons record rest ih =>
      obtain ⟨outcome, db₁, hfirst, hrest⟩ : ∃ outcome db₁,
          (importRecord s accountId folderId g (newIds n) record).run db = .ok (outcome, db₁) ∧
          (importFrom s accountId folderId g newIds (n + 1) (counts.add outcome) rest).run db₁ =
            .ok (counts', db') := by
        simpa [importFrom] using hrun
      obtain ⟨himport, hmessages⟩ := importRecord_ok hfirst
      obtain ⟨himports, hmessages'⟩ := ih hrest
      exact ⟨himport.append himports hmessages', fun m hm => hmessages' m (hmessages m hm)⟩

/-- An imported row is a thread job already. -/
theorem importedRow_mem_markDirty {p : Message → Bool} {id received : ℕ}
    {header : ImportedHeaders} {record : MailboxHeaders}
    (h : importedRow id accountId received header record ∈ db.messages) :
    importedRow id accountId received header record ∈ (markDirty p db).messages := by
  simp only [markDirty, Table.mem_update]
  refine ⟨_, h, ?_⟩
  split <;> rfl

/-- What a batch import does. -/
theorem importBatch_ok {newIds : ℕ → ImportIds} {counts : ImportCounts}
    {records : List MailboxHeaders}
    (hrun : (importBatch s accountId folderId g newIds records).run db = .ok (counts, db')) :
    Imports s accountId folderId g records db db' := by
  unfold importBatch at hrun
  rw [StateT.run_bind] at hrun
  obtain ⟨⟨counts', db₁⟩, hfirst, hrun⟩ := bind_eq_ok.mp hrun
  obtain ⟨himports, -⟩ := importFrom_ok hfirst
  by_cases hnone : counts'.identifiers = []
  · obtain ⟨-, rfl⟩ : counts' = counts ∧ db₁ = db' := by simpa [hnone] using hrun
    exact himports
  · obtain ⟨-, rfl⟩ : counts' = counts ∧
        markDirty (ThreadJobMarking.marks ⟨[], counts'.identifiers.map some⟩ accountId) db₁ =
          db' := by
      simpa [hnone, markThreadJobsDirty_run] using hrun
    refine ⟨himports.folders, himports.rows, fun o' ho' => ?_, himports.rows_unique,
      himports.present⟩
    refine (himports.rows_from o' ho').imp_right ?_
    rintro ⟨record, hrecord, hmade⟩
    exact ⟨record, hrecord, hmade.mono fun _ _ _ hm => importedRow_mem_markDirty hm⟩

/-! ## Marking rows -/

/-- An update of rows that stay at their places keeps every row. -/
theorem rows_update {rows : Table MessageOccurrence} {p : MessageOccurrence → Bool}
    {F : MessageOccurrence → MessageOccurrence} (hlater : ∀ o, RowLater o (F o)) :
    ∀ o ∈ rows, ∃ o' ∈ rows.update p F fun o => (hlater o).key, RowLater o o' := by
  intro o ho
  refine ⟨_, Table.mem_update.mpr ⟨o, ho, rfl⟩, ?_⟩
  split
  · exact hlater o
  · exact .refl o

theorem rowLater_invalidated (now : Time) (o : MessageOccurrence) :
    RowLater o { o with invalidatedAt := some now } :=
  ⟨rfl, rfl, rfl, rfl, rfl, fun _ => rfl, fun h => h⟩

theorem rowLater_expunged (now : Time) (o : MessageOccurrence) :
    RowLater o { o with expungedAt := some now } :=
  ⟨rfl, rfl, rfl, rfl, rfl, fun h => h, fun _ => rfl⟩

/-- What marking rows expunged does. -/
structure Expunges (ids : List Uuid) (db db' : Database) : Prop where
  folders : db'.folders = db.folders
  rows : ∀ o ∈ db.messageOccurrences, ∃ o' ∈ db'.messageOccurrences, RowLater o o'
  /-- A row is as it was, or it was not expunged and its identifier was named. -/
  rows_from : ∀ o' ∈ db'.messageOccurrences, ∃ o ∈ db.messageOccurrences, RowLater o o' ∧
    o'.invalidatedAt = o.invalidatedAt ∧ (o' = o ∨ o.id ∈ ids)
  messages : db'.messages = db.messages

theorem Expunges.refl (ids : List Uuid) : Expunges ids db db :=
  ⟨rfl, fun o ho => ⟨o, ho, .refl o⟩, fun o ho => ⟨o, ho, .refl o, rfl, .inl rfl⟩, rfl⟩

theorem Expunges.trans {ids : List Uuid} {db₁ : Database} (h : Expunges ids db db₁)
    (h' : Expunges ids db₁ db') : Expunges ids db db' := by
  refine ⟨h'.folders.trans h.folders, fun o ho => ?_, fun o' ho' => ?_,
    h'.messages.trans h.messages⟩
  · obtain ⟨o₁, ho₁, hlater⟩ := h.rows o ho
    obtain ⟨o', ho', hlater'⟩ := h'.rows o₁ ho₁
    exact ⟨o', ho', hlater.trans hlater'⟩
  · obtain ⟨o₁, ho₁, hlater', hvalid', hnamed'⟩ := h'.rows_from o' ho'
    obtain ⟨o, ho, hlater, hvalid, hnamed⟩ := h.rows_from o₁ ho₁
    refine ⟨o, ho, hlater.trans hlater', hvalid'.trans hvalid, ?_⟩
    rcases hnamed' with rfl | hid
    · exact hnamed
    · exact .inr (hlater.id ▸ hid)

theorem expungeSlice_ok {now : Time} {slice : List Uuid} {n : ℕ}
    (hrun : (expungeSlice now slice).run db = .ok (n, db')) : Expunges slice db db' := by
  unfold expungeSlice at hrun
  obtain ⟨-, rfl⟩ : _ ∧ _ = db' := by simpa using hrun
  refine ⟨rfl, rows_update (rowLater_expunged now), fun o' ho' => ?_, rfl⟩
  simp only [Table.mem_update] at ho'
  obtain ⟨o, ho, rfl⟩ := ho'
  split
  next hnamed =>
    simp only [Bool.and_eq_true, decide_eq_true_eq] at hnamed
    exact ⟨o, ho, rowLater_expunged now o, rfl, .inr hnamed.1⟩
  next => exact ⟨o, ho, .refl o, rfl, .inl rfl⟩

theorem Expunges.mono {ids ids' : List Uuid} (h : Expunges ids db db') (hsub : ids ⊆ ids') :
    Expunges ids' db db' := by
  refine ⟨h.folders, h.rows, fun o' ho' => ?_, h.messages⟩
  obtain ⟨o, ho, hlater, hvalid, hnamed⟩ := h.rows_from o' ho'
  exact ⟨o, ho, hlater, hvalid, hnamed.imp_right fun hid => hsub hid⟩

/-- Marking slice by slice marks no other row. -/
theorem expungeRows_ok {now : Time} {ids : List Uuid} {n : ℕ}
    (hrun : (expungeRows now ids).run db = .ok (n, db')) : Expunges ids db db' := by
  have hslices : ∀ (parts : List (List Uuid)) (k : ℕ) (db : Database), parts.flatten ⊆ ids →
      (parts.foldlM (fun updated slice => do
        return updated + (← expungeSlice now slice)) k : Tx ℕ).run db = .ok (n, db') →
      Expunges ids db db' := by
    intro parts
    induction parts with
    | nil =>
        intro k db _ hrun
        obtain ⟨-, rfl⟩ : k = n ∧ db = db' := by simpa using hrun
        exact .refl ids
    | cons slice rest ih =>
        intro k db hsub hrun
        obtain ⟨m, db₁, hfirst, hrest⟩ : ∃ m db₁,
            (expungeSlice now slice).run db = .ok (m, db₁) ∧
            (rest.foldlM (fun updated slice => do
              return updated + (← expungeSlice now slice)) (k + m) : Tx ℕ).run db₁ =
                .ok (n, db') := by
          simpa using hrun
        have hslice : slice ⊆ ids := fun id hid => hsub (by simp [hid])
        have hothers : rest.flatten ⊆ ids := fun id hid => hsub (by
          rw [List.flatten_cons]
          exact List.mem_append_right _ hid)
        exact ((expungeSlice_ok hfirst).mono hslice).trans (ih _ _ hothers hrest)
  refine hslices _ 0 db ?_ hrun
  rw [flatten_slices (by decide)]
  exact fun _ h => h

/-! ## Transactions that leave the checkpoints alone -/

/-- Whatever writes neither folders nor occurrences leaves them as they are. -/
theorem Elsewhere.of_same (hfolders : db'.folders = db.folders)
    (hrows : db'.messageOccurrences = db.messageOccurrences) : Elsewhere db db' := by
  refine ⟨fun f hf => ⟨f, hfolders ▸ hf, rfl⟩, fun f hf => .inl ⟨f, hfolders ▸ hf, rfl⟩,
    fun o ho => ⟨o, hrows ▸ ho, .refl o⟩, fun o ho => ⟨o, hrows ▸ ho, .refl o, rfl⟩⟩

theorem Expunges.elsewhere {ids : List Uuid} (h : Expunges ids db db') : Elsewhere db db' := by
  refine ⟨fun f hf => ⟨f, h.folders ▸ hf, rfl⟩, fun f hf => .inl ⟨f, h.folders ▸ hf, rfl⟩, h.rows,
    fun o' ho' => ?_⟩
  obtain ⟨o, ho, hlater, hvalid, -⟩ := h.rows_from o' ho'
  exact ⟨o, ho, hlater, hvalid⟩

/-- The commit of expunges marks only rows that were named, under the recorded generation. -/
theorem commitExpunges_ok {now : Time} {ids : List Uuid} {marked : Option ℕ}
    (hrun : (commitExpunges accountId folderId g now ids).run db = .ok (marked, db')) :
    Expunges ids db db' ∧ (db' = db ∨ ∃ locked, findFolder accountId folderId db = some locked ∧
      locked.uidvalidity = some g) := by
  unfold commitExpunges at hrun
  rw [StateT.run_bind] at hrun
  obtain ⟨⟨locked, db₁⟩, hlock, hrun⟩ := bind_eq_ok.mp hrun
  obtain ⟨hfind, rfl⟩ := lockFolder_ok.mp hlock
  by_cases hgen : locked.uidvalidity = some g
  · obtain ⟨n, db₁, hexpunge, -, rfl⟩ : ∃ n db₁, (expungeRows now ids).run db = .ok (n, db₁) ∧
        some n = marked ∧ db₁ = db' := by
      simpa [hgen] using hrun
    exact ⟨expungeRows_ok hexpunge, .inr ⟨locked, hfind, hgen⟩⟩
  · obtain ⟨-, rfl⟩ : none = marked ∧ db = db' := by simpa [hgen] using hrun
    exact ⟨.refl ids, .inl rfl⟩

theorem rowLater_observed (changes : List FlagChange) (o : MessageOccurrence) :
    RowLater o (observeRow changes o) := by
  unfold observeRow
  split
  · exact .refl o
  · exact ⟨rfl, rfl, rfl, rfl, rfl, fun h => h, fun h => h⟩

theorem observeRow_marks (changes : List FlagChange) (o : MessageOccurrence) :
    (observeRow changes o).invalidatedAt = o.invalidatedAt ∧
      (observeRow changes o).expungedAt = o.expungedAt := by
  unfold observeRow
  split <;> exact ⟨rfl, rfl⟩

/-- The commit of flags marks no row. -/
theorem commitFlags_ok {changes : List FlagChange} {written : Option ℕ}
    (hrun : (commitFlags accountId folderId g changes).run db = .ok (written, db')) :
    Elsewhere db db' ∧ ∀ o' ∈ db'.messageOccurrences, ∃ o ∈ db.messageOccurrences,
      RowLater o o' ∧ o'.expungedAt = o.expungedAt := by
  unfold commitFlags at hrun
  rw [StateT.run_bind] at hrun
  obtain ⟨⟨locked, db₁⟩, hlock, hrun⟩ := bind_eq_ok.mp hrun
  obtain ⟨hfind, rfl⟩ := lockFolder_ok.mp hlock
  by_cases hgen : locked.uidvalidity = some g
  · obtain ⟨-, rfl⟩ : _ ∧ _ = db' := by simpa [hgen] using hrun
    have hfrom : ∀ o' ∈ db.messageOccurrences.update
        (fun o => o.isActive && (changeFor changes o).isSome) (observeRow changes)
        (observeRow_key changes), ∃ o ∈ db.messageOccurrences, RowLater o o' ∧
          o'.invalidatedAt = o.invalidatedAt ∧ o'.expungedAt = o.expungedAt := by
      intro o' ho'
      obtain ⟨o, ho, rfl⟩ := Table.mem_update.mp ho'
      split
      · exact ⟨o, ho, rowLater_observed changes o, observeRow_marks changes o⟩
      · exact ⟨o, ho, .refl o, rfl, rfl⟩
    refine ⟨⟨fun f hf => ⟨f, hf, rfl⟩, fun f hf => .inl ⟨f, hf, rfl⟩,
      rows_update (rowLater_observed changes), fun o' ho' => ?_⟩, fun o' ho' => ?_⟩
    · obtain ⟨o, ho, hlater, hvalid, -⟩ := hfrom o' ho'
      exact ⟨o, ho, hlater, hvalid⟩
    · obtain ⟨o, ho, hlater, -, hexpunged⟩ := hfrom o' ho'
      exact ⟨o, ho, hlater, hexpunged⟩
  · obtain ⟨-, rfl⟩ : none = written ∧ db = db' := by simpa [hgen] using hrun
    exact ⟨.of_same rfl rfl, fun o ho => ⟨o, ho, .refl o, rfl⟩⟩

/-! ## Transactions that move the checkpoints -/

/-- A change of the folder row alone. -/
theorem folderEdit_row {F : Folder → Folder} (hF : ∀ row, (F row).id = row.id)
    {added : MessageOccurrence → Prop} (hfolders : db'.folders =
      db.folders.update (·.id == folderId) F hF)
    (hrows : db'.messageOccurrences = db.messageOccurrences) :
    FolderEdit folderId F added db db' := by
  refine ⟨fun f' => ?_, fun o ho => ⟨o, hrows ▸ ho, .refl o⟩,
    fun o ho => .inl ⟨o, hrows ▸ ho, .refl o, rfl, .inl rfl⟩, fun h => hrows ▸ h⟩
  rw [hfolders]
  exact mem_updateFolder hF

/-- What the first contact of a folder commits: nothing, or a whole set of checkpoints on a row
without a boundary. -/
theorem initializeCheckpoints_ok {folder : Folder} {mailbox : SelectedFolder}
    {result : Initialization}
    (hrun : (initializeCheckpoints folder mailbox).run db = .ok (result, db')) :
    ∃ locked, findFolder folder.accountId folder.id db = some locked ∧
      ((∃ held, locked.uidvalidity = some held ∧ held ≠ mailbox.uidValidity ∧
          result = .generationChanged mailbox.uidValidity held ∧ db' = db) ∨
        (locked.uidvalidity = some mailbox.uidValidity ∧ ∃ effective,
          toInitialized locked = .ok effective ∧ result = .initialized false effective ∧ db' = db) ∨
        ((∀ g, locked.uidvalidity = some g → g = mailbox.uidValidity) ∧
          (locked.uidvalidity.isSome → locked.backfillBeforeUid = none) ∧
          (∃ effective, result = .initialized true effective) ∧
          FolderEdit folder.id (initializedRow mailbox) (fun _ => False) db db')) := by
  unfold initializeCheckpoints at hrun
  rw [StateT.run_bind] at hrun
  obtain ⟨⟨locked, db₁⟩, hlock, hrun⟩ := bind_eq_ok.mp hrun
  obtain ⟨hfind, rfl⟩ := lockFolder_ok.mp hlock
  refine ⟨locked, hfind, ?_⟩
  dsimp only at hrun
  cases hheld : locked.uidvalidity.filter (· ≠ mailbox.uidValidity) with
  | some held =>
      rw [hheld] at hrun
      obtain ⟨hsome, hne⟩ := Option.filter_eq_some_iff.mp hheld
      obtain ⟨rfl, rfl⟩ : .generationChanged mailbox.uidValidity held = result ∧ db = db' := by
        simpa using hrun
      exact .inl ⟨held, hsome, by simpa using hne, rfl, rfl⟩
  | none =>
      rw [hheld] at hrun
      have hsame : ∀ g, locked.uidvalidity = some g → g = mailbox.uidValidity := by
        intro g hg
        have hcheck := Option.filter_eq_none_iff.mp hheld g hg
        simpa using hcheck
      by_cases hdone : locked.uidvalidity.isSome = true ∧ locked.backfillBeforeUid.isSome = true
      · obtain ⟨effective, heffective, rfl, rfl⟩ : ∃ effective,
            toInitialized locked = .ok effective ∧ .initialized false effective = result ∧
              db = db' := by
          simpa [hdone] using hrun
        obtain ⟨g, hg⟩ := Option.isSome_iff_exists.mp hdone.1
        exact .inr (.inl ⟨by rw [hg, hsame g hg], effective, heffective, rfl, rfl⟩)
      · refine .inr (.inr ⟨hsame, fun hsome => ?_, ?_⟩)
        · rw [not_and, Bool.not_eq_true, Option.isSome_eq_false_iff] at hdone
          simpa using hdone hsome
        · obtain ⟨effective, -, rfl, rfl⟩ : ∃ effective,
              toInitialized (initializedRow mailbox locked) = .ok effective ∧
                .initialized true effective = result ∧ _ = db' := by
            simpa [hdone] using hrun
          exact ⟨⟨effective, rfl⟩, folderEdit_row (initializedRow_id mailbox) rfl rfl⟩

/-- A folder is closed out under the generation that was selected. -/
theorem closeOut_ok {mailbox : SelectedFolder}
    (hrun : (closeOut accountId folderId mailbox).run db = .ok ((), db')) :
    db' = db ∨ ∃ locked, findFolder accountId folderId db = some locked ∧
      locked.uidvalidity = some mailbox.uidValidity ∧
      FolderEdit folderId closedRow (fun _ => False) db db' := by
  unfold closeOut at hrun
  rw [StateT.run_bind] at hrun
  obtain ⟨⟨locked, db₁⟩, hlock, hrun⟩ := bind_eq_ok.mp hrun
  obtain ⟨hfind, rfl⟩ := lockFolder_ok.mp hlock
  dsimp only at hrun
  by_cases hopen : locked.uidvalidity = some mailbox.uidValidity ∧ locked.backfillComplete = false
  · obtain rfl : _ = db' := by simpa [hopen] using hrun
    exact .inr ⟨locked, hfind, hopen.1, folderEdit_row closedRow_id rfl rfl⟩
  · obtain rfl : db = db' := by simpa [hopen] using hrun
    exact .inl rfl

/-- An import with a change of the folder row. -/
theorem folderEdit_import {F : Folder → Folder} (hF : ∀ row, (F row).id = row.id)
    {records : List MailboxHeaders} {db₁ : Database}
    (himports : Imports s accountId folderId g records db db₁)
    (hfolders : db'.folders = db₁.folders.update (·.id == folderId) F hF)
    (hrows : db'.messageOccurrences = db₁.messageOccurrences)
    (hmessages : db'.messages = db₁.messages) :
    FolderEdit folderId F
      (fun o => ∃ record ∈ records, MadeFrom s accountId folderId g db' record o) db db' := by
  refine ⟨fun f' => ?_, fun o ho => ⟨o, hrows ▸ himports.rows o ho, .refl o⟩, fun o' ho' => ?_,
    fun h => hrows ▸ himports.rows_unique h⟩
  · rw [hfolders, himports.folders]
    exact mem_updateFolder hF
  · rcases himports.rows_from o' (hrows ▸ ho') with hold | ⟨record, hrecord, hmade⟩
    · exact .inl ⟨o', hold, .refl o', rfl, .inl rfl⟩
    · exact .inr ⟨record, hrecord, hmade.mono fun _ _ _ hm => hmessages ▸ hm⟩

/-- What the commit of a window does: nothing under another generation, and otherwise it imports
the records and moves the boundary below the window. -/
theorem commitWindow_ok {mailbox : SelectedFolder} {low high found : ℕ} {newIds : ℕ → ImportIds}
    {records : List MailboxHeaders} {outcome : BackfillBatchOutcome}
    (hrun : (commitWindow s accountId folderId mailbox low high found newIds records).run db =
      .ok (outcome, db')) :
    ∃ locked, findFolder accountId folderId db = some locked ∧
      ((locked.uidvalidity ≠ some mailbox.uidValidity ∧
          outcome = .generationChanged folderId mailbox.uidValidity
            (locked.uidvalidity.getD mailbox.uidValidity) ∧
          db'.folders = db.folders ∧ db'.messageOccurrences = db.messageOccurrences) ∨
        (locked.uidvalidity = some mailbox.uidValidity ∧
          (∀ record ∈ records, record.uid ∈ copies folderId mailbox.uidValidity db') ∧
          outcome.change = none ∧
          FolderEdit folderId
            (windowRow (min (locked.backfillBeforeUid.getD low) low)
              (decide (min (locked.backfillBeforeUid.getD low) low ≤ 1) ||
                locked.backfillComplete))
            (fun o => ∃ record ∈ records,
              MadeFrom s accountId folderId mailbox.uidValidity db' record o) db db')) := by
  unfold commitWindow at hrun
  rw [StateT.run_bind] at hrun
  obtain ⟨⟨locked, db₁⟩, hlock, hrun⟩ := bind_eq_ok.mp hrun
  obtain ⟨hfind, rfl⟩ := lockFolder_ok.mp hlock
  dsimp only at hrun
  refine ⟨locked, hfind, ?_⟩
  generalize min (locked.backfillBeforeUid.getD low) low = beforeUid at hrun ⊢
  generalize (decide (beforeUid ≤ 1) || locked.backfillComplete) = complete at hrun ⊢
  by_cases hgen : locked.uidvalidity = some mailbox.uidValidity
  · right
    obtain ⟨counts, db₁, himport, rfl, rfl⟩ : ∃ counts db₁,
        (importBatch s accountId folderId mailbox.uidValidity newIds records).run db =
          .ok (counts, db₁) ∧ _ = outcome ∧ _ = db' := by
      simpa [hgen] using hrun
    have himports := importBatch_ok himport
    exact ⟨hgen, himports.present, rfl, folderEdit_import (windowRow_id _ _) himports rfl rfl rfl⟩
  · left
    obtain ⟨rfl, rfl⟩ : .generationChanged folderId mailbox.uidValidity
        (locked.uidvalidity.getD mailbox.uidValidity) = outcome ∧ _ = db' := by
      simpa [hgen, generationChanged] using hrun
    exact ⟨hgen, rfl, rfl, rfl⟩

/-- What the commit of arrivals does. -/
theorem commitArrivals_ok {covered : ℕ} {newIds : ℕ → ImportIds}
    {records : List MailboxHeaders} {result : Option ImportCounts}
    (hrun : (commitArrivals s accountId folderId g covered newIds records).run db =
      .ok (result, db')) :
    ∃ locked, findFolder accountId folderId db = some locked ∧
      ((result = none ∧ db' = db) ∨
        (locked.uidvalidity = some g ∧ result.isSome ∧
          (∀ record ∈ records, record.uid ∈ copies folderId g db') ∧
          FolderEdit folderId (scannedRow (max locked.arrivalScannedUid covered))
            (fun o => ∃ record ∈ records, MadeFrom s accountId folderId g db' record o) db db')) := by
  unfold commitArrivals at hrun
  rw [StateT.run_bind] at hrun
  obtain ⟨⟨locked, db₁⟩, hlock, hrun⟩ := bind_eq_ok.mp hrun
  obtain ⟨hfind, rfl⟩ := lockFolder_ok.mp hlock
  dsimp only at hrun
  refine ⟨locked, hfind, ?_⟩
  by_cases hgen : locked.uidvalidity = some g
  · right
    obtain ⟨counts, db₁, himport, rfl, rfl⟩ : ∃ counts db₁,
        (importBatch s accountId folderId g newIds records).run db = .ok (counts, db₁) ∧
          some counts = result ∧ _ = db' := by
      simpa [hgen] using hrun
    have himports := importBatch_ok himport
    exact ⟨hgen, rfl, himports.present, folderEdit_import (scannedRow_id _) himports rfl rfl rfl⟩
  · obtain ⟨rfl, rfl⟩ : none = result ∧ db = db' := by simpa [hgen] using hrun
    exact .inl ⟨rfl, rfl⟩

/-- What a reset does: nothing unless the folder holds the recorded generation, and otherwise it
moves the folder and leaves no valid row of the generation behind. -/
theorem resetFolderGeneration_ok {recorded observed : ℕ} {now : Time} {outcome : ResetOutcome}
    (hrun : (resetFolderGeneration accountId folderId recorded observed now).run db =
      .ok (outcome, db')) :
    ∃ locked, findFolder accountId folderId db = some locked ∧ (db' = db ∨
      (locked.uidvalidity = some recorded ∧ recorded ≠ observed ∧
        FolderEdit folderId (resetRow observed) (fun _ => False) db db' ∧
        ∀ o' ∈ db'.messageOccurrences, ∃ o ∈ db.messageOccurrences, RowLater o o' ∧
          o'.expungedAt = o.expungedAt ∧ (isValidIn accountId folderId recorded o = true →
            o'.invalidatedAt ≠ none))) := by
  unfold resetFolderGeneration at hrun
  rw [StateT.run_bind] at hrun
  obtain ⟨⟨locked, db₁⟩, hlock, hrun⟩ := bind_eq_ok.mp hrun
  obtain ⟨hfind, rfl⟩ := lockFolder_ok.mp hlock
  dsimp only at hrun
  refine ⟨locked, hfind, ?_⟩
  cases hheld : locked.uidvalidity with
  | none =>
      obtain ⟨-, rfl⟩ : _ = outcome ∧ db = db' := by simpa [hheld] using hrun
      exact .inl rfl
  | some held =>
      rw [hheld] at hrun
      by_cases hobserved : held = observed
      · obtain ⟨-, rfl⟩ : _ = outcome ∧ db = db' := by simpa [hobserved] using hrun
        exact .inl rfl
      · by_cases hrecorded : held = recorded
        · subst hrecorded
          obtain ⟨-, rfl⟩ : _ = outcome ∧ _ = db' := by simpa [hobserved] using hrun
          have hfrom : ∀ o' ∈ db.messageOccurrences.update (isValidIn accountId folderId held)
              (fun o => { o with invalidatedAt := some now }) fun _ => rfl,
              ∃ o ∈ db.messageOccurrences, RowLater o o' ∧ o'.expungedAt = o.expungedAt ∧
                (isValidIn accountId folderId held o = true → o'.invalidatedAt ≠ none) ∧
                (o'.invalidatedAt = o.invalidatedAt ∨
                  o.folderId = folderId ∧ o.uidvalidity = held) := by
            intro o' ho'
            simp only [Table.mem_update] at ho'
            obtain ⟨o, ho, rfl⟩ := ho'
            split
            next hvalid =>
              simp only [isValidIn, Bool.and_eq_true, beq_iff_eq] at hvalid
              exact ⟨o, ho, rowLater_invalidated now o, rfl, fun _ => Option.some_ne_none _,
                .inr ⟨hvalid.1.1.2, hvalid.1.2⟩⟩
            next hvalid => exact ⟨o, ho, .refl o, rfl, fun h => absurd h hvalid, .inl rfl⟩
          refine .inr ⟨rfl, hobserved, ⟨fun f' => mem_updateFolder (resetRow_id observed),
            rows_update (rowLater_invalidated now), fun o' ho' => ?_, fun hunique => ?_⟩,
            fun o' ho' => ?_⟩
          · obtain ⟨o, ho, hlater, hexpunged, -, hmoved⟩ := hfrom o' ho'
            refine .inl ⟨o, ho, hlater, hexpunged, hmoved.imp_right ?_⟩
            rintro ⟨hfolder, rfl⟩
            exact ⟨hfolder, fun f hgen => hobserved (Option.some.inj hgen).symm⟩
          · intro o₁ ho₁ o₂ ho₂ hid
            obtain ⟨r₁, hr₁, hlater₁, -⟩ := hfrom o₁ ho₁
            obtain ⟨r₂, hr₂, hlater₂, -⟩ := hfrom o₂ ho₂
            obtain rfl := hunique r₁ hr₁ r₂ hr₂ (hlater₁.id.symm.trans (hid.trans hlater₂.id))
            exact Table.eq_of_key_eq ho₁ ho₂ (hlater₁.key.trans hlater₂.key.symm)
          · obtain ⟨o, ho, hlater, hexpunged, hvalid, -⟩ := hfrom o' ho'
            exact ⟨o, ho, hlater, hexpunged, hvalid⟩
        · obtain ⟨-, rfl⟩ : _ = outcome ∧ db = db' := by simpa [hobserved, hrecorded] using hrun
          exact .inl rfl

/-- A folder without a generation has no valid row, and a change of its row makes none. -/
theorem Filed.invalid_contact {F : Folder → Folder} (h : Filed db) (hlocked : locked ∈ db.folders)
    (hid : locked.id = folderId) (hgen : locked.uidvalidity = none)
    (hedit : FolderEdit folderId F (fun _ => False) db db') :
    ∀ o' ∈ db'.messageOccurrences, o'.folderId = folderId → o'.invalidatedAt ≠ none := by
  intro o' ho' hfolder hnone
  rcases hedit.rows_from o' ho' with ⟨o, ho, hrow, -⟩ | hnew
  · obtain ⟨f', hf', hfid, hf'gen⟩ := h.valid o ho (hrow.valid hnone)
    obtain rfl := folder_unique hf' hlocked
      (hfid.trans (hrow.folderId.symm.trans (hfolder.trans hid.symm)))
    simp [hgen] at hf'gen
  · exact hnew

/-- A reset leaves no valid row in its folder: such a row would be of the recorded generation. -/
theorem Filed.invalid_reset {recorded : ℕ} (h : Filed db)
    (hfind : findFolder accountId folderId db = some locked)
    (hgen : locked.uidvalidity = some recorded)
    (hfrom : ∀ o' ∈ db'.messageOccurrences, ∃ o ∈ db.messageOccurrences, RowLater o o' ∧
      o'.expungedAt = o.expungedAt ∧ (isValidIn accountId folderId recorded o = true →
        o'.invalidatedAt ≠ none)) :
    ∀ o' ∈ db'.messageOccurrences, o'.folderId = folderId → o'.invalidatedAt ≠ none := by
  obtain ⟨hlocked, hid, haccount⟩ := findFolder_eq_some.mp hfind
  intro o' ho' hfolder hnone
  obtain ⟨o, ho, hrow, -, hmarked⟩ := hfrom o' ho'
  have hvalid := hrow.valid hnone
  obtain ⟨f₁, hf₁, hf₁id, hf₁gen⟩ := h.valid o ho hvalid
  obtain ⟨f₂, hf₂, hf₂id, hf₂account⟩ := h.owned o ho
  have hofolder : o.folderId = folderId := hrow.folderId.symm.trans hfolder
  obtain rfl := folder_unique hf₁ hlocked (hf₁id.trans (hofolder.trans hid.symm))
  obtain rfl := folder_unique hf₂ hf₁ (hf₂id.trans hf₁id.symm)
  have hogen : o.uidvalidity = recorded := Option.some.inj (hf₁gen.symm.trans hgen)
  refine hmarked ?_ hnone
  simp [isValidIn, ← hf₂account, haccount, hofolder, hogen, hvalid]

/-- What the commit of an inventory does: it imports the repairs and marks the absent rows. -/
theorem commitInventory_ok {now : Time} {newIds : ℕ → ImportIds} {records : List MailboxHeaders}
    {ids : List Uuid} {result : Option InventoryCommit}
    (hrun : (commitInventory s accountId folderId g now newIds records ids).run db =
      .ok (result, db')) :
    ∃ locked, findFolder accountId folderId db = some locked ∧ (db' = db ∨
      (locked.uidvalidity = some g ∧ ∃ db₁, Imports s accountId folderId g records db db₁ ∧
        Expunges ids db₁ db')) := by
  unfold commitInventory at hrun
  rw [StateT.run_bind] at hrun
  obtain ⟨⟨locked, db₁⟩, hlock, hrun⟩ := bind_eq_ok.mp hrun
  obtain ⟨hfind, rfl⟩ := lockFolder_ok.mp hlock
  dsimp only at hrun
  refine ⟨locked, hfind, ?_⟩
  by_cases hgen : locked.uidvalidity = some g
  · right
    obtain ⟨counts, db₁, himport, n, db₂, hexpunge, -, rfl⟩ : ∃ counts db₁,
        (importBatch s accountId folderId g newIds records).run db = .ok (counts, db₁) ∧
        ∃ n db₂, (expungeRows now ids).run db₁ = .ok (n, db₂) ∧ _ = result ∧ _ = db' := by
      simpa [hgen] using hrun
    have hexpunges := expungeRows_ok hexpunge
    exact ⟨hgen, db₁, importBatch_ok himport, hexpunges.folders, hexpunges.rows,
      hexpunges.rows_from, hexpunges.messages⟩
  · obtain ⟨-, rfl⟩ : none = result ∧ db = db' := by simpa [hgen] using hrun
    exact .inl rfl

end MailHub.FolderSync
