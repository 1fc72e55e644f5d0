import MailHub.Sync.Workers

/-!
# What folder synchronization keeps

The invariant of the folder rows and their occurrences against the servers, and what a worker can
rely on while others run. The parts that speak of the order of generations are kept only while no
reset follows a refused first contact of an older generation; they are claimed for the folders that
are `strict`.
-/

namespace MailHub.FolderSync

open Relational Interleaving Ordering

variable {strict : Uuid → Prop} {s t u : Succession ℕ} {f f₁ f₂ f₃ : Folder} {db db' : Database}

/-! ## Folder rows later on -/

/-- The checkpoints of one generation later on: the boundary goes down, the scanned range goes up,
and a complete folder stays complete. -/
structure CheckpointsLater (f f' : Folder) : Prop where
  before : ∀ b, f.backfillBeforeUid = some b → ∃ b' ≤ b, f'.backfillBeforeUid = some b'
  scanned : f.arrivalScannedUid ≤ f'.arrivalScannedUid
  complete : f.backfillComplete = true → f'.backfillComplete = true

theorem CheckpointsLater.refl (f : Folder) : CheckpointsLater f f :=
  ⟨fun b hb => ⟨b, Nat.le_refl b, hb⟩, Nat.le_refl _, fun h => h⟩

theorem CheckpointsLater.trans (h₁ : CheckpointsLater f₁ f₂) (h₂ : CheckpointsLater f₂ f₃) :
    CheckpointsLater f₁ f₃ := by
  refine ⟨fun b hb => ?_, Nat.le_trans h₁.scanned h₂.scanned, fun h => h₂.complete (h₁.complete h)⟩
  obtain ⟨b', hle, hb'⟩ := h₁.before b hb
  obtain ⟨b'', hle', hb''⟩ := h₂.before b' hb'
  exact ⟨b'', Nat.le_trans hle' hle, hb''⟩

/-- A folder row later on: it keeps its place, it never goes back to an older generation, and
within one generation its checkpoints only advance. -/
structure FolderLater (strict : Uuid → Prop) (s : Succession ℕ) (f f' : Folder) : Prop where
  id : f'.id = f.id
  place : placeOf f' = placeOf f
  later : strict f.id → ∀ g, f.uidvalidity = some g → ∃ g', f'.uidvalidity = some g' ∧
    (g = g' ∧ CheckpointsLater f f' ∨ s.Older g g')

theorem FolderLater.trans (h₁ : FolderLater strict s f₁ f₂) (h₂ : FolderLater strict s f₂ f₃) :
    FolderLater strict s f₁ f₃ := by
  refine ⟨h₂.id.trans h₁.id, h₂.place.trans h₁.place, fun hs g hg => ?_⟩
  obtain ⟨g₂, hg₂, hstep₁⟩ := h₁.later hs g hg
  obtain ⟨g₃, hg₃, hstep₂⟩ := h₂.later (h₁.id.symm ▸ hs) g₂ hg₂
  refine ⟨g₃, hg₃, ?_⟩
  rcases hstep₁ with ⟨rfl, hsame₁⟩ | hold₁
  · rcases hstep₂ with ⟨rfl, hsame₂⟩ | hold₂
    · exact .inl ⟨rfl, hsame₁.trans hsame₂⟩
    · exact .inr hold₂
  · rcases hstep₂ with ⟨rfl, -⟩ | hold₂
    · exact .inr hold₁
    · exact .inr (hold₁.trans hold₂)

theorem FolderLater.mono (h : FolderLater strict s f₁ f₂) (hst : Succession.Later s t) :
    FolderLater strict t f₁ f₂ := by
  refine ⟨h.id, h.place, fun hs g hg => ?_⟩
  obtain ⟨g', hg', hstep⟩ := h.later hs g hg
  exact ⟨g', hg', hstep.imp_right fun hold => hold.later hst⟩

/-- A row that keeps its generation and advances its checkpoints. -/
theorem FolderLater.of_same (hid : f₂.id = f₁.id) (hplace : placeOf f₂ = placeOf f₁)
    (hgen : f₂.uidvalidity = f₁.uidvalidity) (hlater : CheckpointsLater f₁ f₂) :
    FolderLater strict s f₁ f₂ :=
  ⟨hid, hplace, fun _ g hg => ⟨g, by rw [hgen, hg], .inl ⟨rfl, hlater⟩⟩⟩

theorem FolderLater.refl (f : Folder) : FolderLater strict s f f :=
  .of_same rfl rfl rfl (.refl f)

/-! ## The invariant -/

/-- The UIDs of a folder generation that have a row, in whatever state. -/
def copies (folderId : Uuid) (g : ℕ) (db : Database) : Set ℕ :=
  { uid | ∃ o ∈ db.messageOccurrences, o.folderId = folderId ∧ o.uidvalidity = g ∧ o.uid = uid }

/-- What holds of one folder row against the collections at its place. -/
structure RowSound (strict : Uuid → Prop) (s : Succession ℕ) (db : Database) (f : Folder) : Prop where
  /-- The recorded generation is one that the server had. -/
  known : ∀ g, f.uidvalidity = some g → g ∈ s.past
  /-- Without a boundary nothing is scanned. -/
  fresh : strict f.id → f.backfillBeforeUid = none →
    f.arrivalScannedUid = 0 ∧ f.backfillComplete = false
  /-- A complete folder is scanned down to the first UID. -/
  complete : strict f.id → f.backfillComplete = true → ∃ b ≤ 1, f.backfillBeforeUid = some b
  /-- Whatever the server has between the two checkpoints has a row. -/
  covered : strict f.id → ∀ g b, f.uidvalidity = some g → f.backfillBeforeUid = some b →
    s.Within g fun a => b ≤ a.next ∧ f.arrivalScannedUid < a.next ∧
      a.Covers (copies f.id g db) b f.arrivalScannedUid

/-- What holds of the occurrences whatever the servers answer. -/
structure Filed (db : Database) : Prop where
  /-- A row identifier names one occurrence. -/
  rows_unique : ∀ o ∈ db.messageOccurrences, ∀ o' ∈ db.messageOccurrences, o.id = o'.id → o = o'
  /-- Occurrences belong to the account of their folder. -/
  owned : ∀ o ∈ db.messageOccurrences,
    ∃ f ∈ db.folders, f.id = o.folderId ∧ f.accountId = o.accountId
  /-- A valid occurrence carries the current generation of its folder. -/
  valid : ∀ o ∈ db.messageOccurrences, o.invalidatedAt = none →
    ∃ f ∈ db.folders, f.id = o.folderId ∧ f.uidvalidity = some o.uidvalidity

/-- The invariant of the folder rows and their occurrences. -/
structure Coherent (strict : Uuid → Prop) (w : SyncWorld) : Prop where
  filed : Filed w.store
  /-- Every folder row agrees with the servers. -/
  folders : ∀ f ∈ w.store.folders,
    RowSound strict (w.outside.succession (placeOf f)) w.store f
  /-- What a folder has left is older than what it holds. -/
  left : ∀ folderId, strict folderId → ∀ g ∈ w.outside.left folderId, ∃ f ∈ w.store.folders,
    f.id = folderId ∧ ∃ g', f.uidvalidity = some g' ∧
      (w.outside.succession (placeOf f)).Older g g'

/-! ## What workers rely on -/

/-- The database later on. -/
structure StoreLater (strict : Uuid → Prop) (o : MailServers) (db db' : Database) : Prop where
  rows : ∀ r ∈ db.messageOccurrences, ∃ r' ∈ db'.messageOccurrences, RowLater r r'
  folders : ∀ f ∈ db.folders, ∃ f' ∈ db'.folders,
    FolderLater strict (o.succession (placeOf f)) f f'

/-- What worker `i` relies on while others run. -/
structure Rely (strict : Uuid → Prop) (i : ℕ) (w w' : SyncWorld) : Prop where
  servers : ∀ place, Succession.Later (w.outside.succession place) (w'.outside.succession place)
  session : w'.outside.sessions i = w.outside.sessions i
  refused : w'.outside.refused i = w.outside.refused i
  store : StoreLater strict w'.outside w.store w'.store

theorem StoreLater.refl {o : MailServers} : StoreLater strict o db db :=
  ⟨fun r hr => ⟨r, hr, .refl r⟩, fun f hf => ⟨f, hf, .refl f⟩⟩

theorem StoreLater.trans {o o' : MailServers} {db₁ db₂ db₃ : Database}
    (h₁ : StoreLater strict o db₁ db₂) (h₂ : StoreLater strict o' db₂ db₃)
    (hservers : ∀ place, Succession.Later (o.succession place) (o'.succession place)) :
    StoreLater strict o' db₁ db₃ := by
  refine ⟨fun r hr => ?_, fun f hf => ?_⟩
  · obtain ⟨r₂, hr₂, hlater₁⟩ := h₁.rows r hr
    obtain ⟨r₃, hr₃, hlater₂⟩ := h₂.rows r₂ hr₂
    exact ⟨r₃, hr₃, hlater₁.trans hlater₂⟩
  · obtain ⟨f₂, hf₂, hlater₁⟩ := h₁.folders f hf
    obtain ⟨f₃, hf₃, hlater₂⟩ := h₂.folders f₂ hf₂
    rw [hlater₁.place] at hlater₂
    exact ⟨f₃, hf₃, (hlater₁.mono (hservers _)).trans hlater₂⟩

theorem Rely.refl (i : ℕ) (w : SyncWorld) : Rely strict i w w :=
  ⟨fun _ => .refl _, rfl, rfl, .refl⟩

theorem Rely.trans {i : ℕ} {w₁ w₂ w₃ : SyncWorld} (h₁ : Rely strict i w₁ w₂)
    (h₂ : Rely strict i w₂ w₃) : Rely strict i w₁ w₃ :=
  ⟨fun place => (h₁.servers place).trans (h₂.servers place), h₂.session.trans h₁.session,
    h₂.refused.trans h₁.refused, h₁.store.trans h₂.store h₂.servers⟩

/-! ## Servers -/

variable {o o' : MailServers} {place : Place} {e : ServerEvent}

theorem succession_update {folder : ServerFolder} (place' : Place) :
    ({ o with folders := Function.update o.folders place folder } : MailServers).succession place' =
      if place' = place then folder.succession else o.succession place' := by
  unfold MailServers.succession
  by_cases h : place' = place
  · subst h
    simp
  · simp [h]

/-- Whatever happens on a server, every place is a later state of itself. -/
theorem later_advance {s : SyncServices} {t : Place × ServerEvent}
    (h : (syncSystem s).advance t o = some o') (place : Place) :
    Succession.Later (o.succession place) (o'.succession place) := by
  obtain ⟨folder, hafter, rfl⟩ := Option.map_eq_some_iff.mp h
  rw [succession_update]
  split
  next heq =>
    subst heq
    exact ServerFolder.later_after hafter
  next => exact .refl _

/-- What holds of a row against a place holds later on, while its copies are kept. -/
theorem RowSound.mono (h : RowSound strict s db f) (hst : Succession.Later s t)
    (hcopies : ∀ g, copies f.id g db ⊆ copies f.id g db') : RowSound strict t db' f where
  known g hg := hst.past_extends.subset (h.known g hg)
  fresh := h.fresh
  complete := h.complete
  covered hs g b hg hb := by
    refine ((h.covered hs g b hg hb).later hst ?_).mono ?_
    · rintro a a' hlater ⟨hnext, hscanned, hcovers⟩
      exact ⟨Nat.le_trans hnext hlater.next_le, Nat.lt_of_lt_of_le hscanned hlater.next_le,
        hcovers.later hlater hscanned⟩
    · rintro a ⟨hnext, hscanned, hcovers⟩
      exact ⟨hnext, hscanned, hcovers.mono (hcopies g)⟩

theorem copies_mono {folderId : Uuid} {g : ℕ} (h : ∀ r ∈ db.messageOccurrences,
    ∃ r' ∈ db'.messageOccurrences, RowLater r r') : copies folderId g db ⊆ copies folderId g db' := by
  rintro uid ⟨r, hr, hfolder, hgen, huid⟩
  obtain ⟨r', hr', hlater⟩ := h r hr
  exact ⟨r', hr', hlater.folderId.trans hfolder, hlater.uidvalidity.trans hgen,
    hlater.uid.trans huid⟩

/-- The invariant survives changes of the servers. -/
theorem Coherent.servers {w : SyncWorld} (h : Coherent strict w)
    (hservers : ∀ place, Succession.Later (w.outside.succession place) (o.succession place))
    (hleft : o.left = w.outside.left) : Coherent strict ⟨w.store, o⟩ where
  filed := h.filed
  folders f hf := (h.folders f hf).mono (hservers _) fun _ => subset_rfl
  left folderId hs g hg := by
    have hg' : g ∈ w.outside.left folderId := hleft ▸ hg
    obtain ⟨f, hf, hid, g', hg', hold⟩ := h.left folderId hs g hg'
    exact ⟨f, hf, hid, g', hg', hold.later (hservers _)⟩

/-! ## Commits -/

theorem generationOf_eq_some {folderId : Uuid} {g : ℕ} : generationOf folderId db = some g ↔
    ∃ f ∈ db.folders, f.id = folderId ∧ f.uidvalidity = some g := by
  unfold generationOf
  rw [Option.bind_eq_some_iff]
  constructor
  · rintro ⟨f, hf, hg⟩
    exact ⟨f, Table.mem_of_find? hf, Table.key_of_find? hf, hg⟩
  · rintro ⟨f, hf, hid, hg⟩
    exact ⟨f, Table.find?_eq_some_iff.mpr ⟨hf, hid⟩, hg⟩

theorem of_mem_leftAfter {left : Uuid → List ℕ} {folderId : Uuid} {g : ℕ}
    (h : g ∈ leftAfter db db' left folderId) : g ∈ left folderId ∨
      generationOf folderId db = some g ∧ generationOf folderId db' ≠ some g := by
  unfold leftAfter at h
  split at h
  next g₀ hg₀ =>
    split at h
    · exact .inl h
    next hmoved =>
      rcases List.mem_cons.mp h with rfl | h
      · exact .inr ⟨hg₀, hmoved⟩
      · exact .inl h
  · exact .inl h

theorem leftAfter_same {left : Uuid → List ℕ} (h : db'.folders = db.folders) :
    leftAfter db db' left = left := by
  have hgen : ∀ folderId, generationOf folderId db' = generationOf folderId db := by
    intro folderId
    simp [generationOf, h]
  funext folderId
  unfold leftAfter
  rw [hgen]
  cases generationOf folderId db <;> simp

/-- A commit after which the rows agree with the servers keeps the invariant. -/
theorem Coherent.commit {w : SyncWorld} {i : ℕ} {tag : Option SyncTag} (h : Coherent strict w)
    (hstore : StoreLater strict w.outside w.store db') (hfiled : Filed db')
    (hfolders : ∀ f ∈ db'.folders, RowSound strict (w.outside.succession (placeOf f)) db' f) :
    Coherent strict ⟨db', w.outside.observe i tag w.store db'⟩ := by
  refine ⟨hfiled, hfolders, fun folderId hs g hg => ?_⟩
  -- the row as the commit found it held a generation that is no older
  have hheld : ∃ f ∈ w.store.folders, f.id = folderId ∧ ∃ g', f.uidvalidity = some g' ∧
      ((w.outside.succession (placeOf f)).Older g g' ∨
        g = g' ∧ generationOf folderId db' ≠ some g) := by
    rcases of_mem_leftAfter hg with hleft | ⟨hgen, hmoved⟩
    · obtain ⟨f, hf, hid, g', hg', hold⟩ := h.left folderId hs g hleft
      exact ⟨f, hf, hid, g', hg', .inl hold⟩
    · obtain ⟨f, hf, hid, hg'⟩ := generationOf_eq_some.mp hgen
      exact ⟨f, hf, hid, g, hg', .inr ⟨rfl, hmoved⟩⟩
  obtain ⟨f, hf, hid, g', hg', hheld⟩ := hheld
  obtain ⟨f', hf', hlater⟩ := hstore.folders f hf
  obtain ⟨g'', hg'', hstep⟩ := hlater.later (hid.symm ▸ hs) g' hg'
  refine ⟨f', hf', hlater.id.trans hid, g'', hg'', ?_⟩
  change (w.outside.succession (placeOf f')).Older g g''
  rw [hlater.place]
  rcases hheld with hold | ⟨rfl, hmoved⟩
  · rcases hstep with ⟨rfl, -⟩ | hnew
    · exact hold
    · exact hold.trans hnew
  · rcases hstep with ⟨rfl, -⟩ | hnew
    · exact absurd (generationOf_eq_some.mpr ⟨f', hf', hlater.id.trans hid, hg''⟩) hmoved
    · exact hnew

/-- The row of a folder identifier is unique. -/
theorem folder_unique {f f' : Folder} (hf : f ∈ db.folders) (hf' : f' ∈ db.folders)
    (hid : f.id = f'.id) : f = f' := Table.eq_of_key_eq hf hf' hid

/-- A transaction on one folder that changes its row by `F` and adds rows. -/
structure FolderEdit (folderId : Uuid) (F : Folder → Folder)
    (added : MessageOccurrence → Prop) (db db' : Database) : Prop where
  folders : ∀ f', f' ∈ db'.folders ↔ ∃ f ∈ db.folders, (if f.id = folderId then F f else f) = f'
  rows : ∀ o ∈ db.messageOccurrences, ∃ o' ∈ db'.messageOccurrences, RowLater o o'
  /-- A row is only invalidated when the folder leaves its generation. -/
  rows_from : ∀ o' ∈ db'.messageOccurrences, (∃ o ∈ db.messageOccurrences, RowLater o o' ∧
    o'.expungedAt = o.expungedAt ∧ (o'.invalidatedAt = o.invalidatedAt ∨
      o.folderId = folderId ∧ ∀ f, (F f).uidvalidity ≠ some o.uidvalidity)) ∨ added o'
  rows_unique : (∀ o ∈ db.messageOccurrences, ∀ o' ∈ db.messageOccurrences, o.id = o'.id → o = o') →
    ∀ o ∈ db'.messageOccurrences, ∀ o' ∈ db'.messageOccurrences, o.id = o'.id → o = o'

section

variable {w : SyncWorld} {folderId : Uuid} {F : Folder → Folder} {added : MessageOccurrence → Prop}
  {locked : Folder}

/-- The store after a transaction on one folder. -/
theorem FolderEdit.storeLater (hedit : FolderEdit folderId F added w.store db')
    (hlocked : locked ∈ w.store.folders) (hid : locked.id = folderId)
    (hlater : FolderLater strict (w.outside.succession (placeOf locked)) locked (F locked)) :
    StoreLater strict w.outside w.store db' := by
  refine ⟨hedit.rows, fun f hf => ⟨_, (hedit.folders _).mpr ⟨f, hf, rfl⟩, ?_⟩⟩
  split
  next heq =>
    obtain rfl := folder_unique hf hlocked (heq.trans hid.symm)
    exact hlater
  next => exact .refl f

/-- The occurrences after a transaction on one folder. -/
theorem FolderEdit.filed {db : Database} (h : Filed db) (hedit : FolderEdit folderId F added db db')
    (hlocked : locked ∈ db.folders) (hid : locked.id = folderId) (hFid : (F locked).id = locked.id)
    (hFaccount : (F locked).accountId = locked.accountId)
    (hadded : ∀ o', added o' → o'.folderId = folderId ∧ o'.accountId = locked.accountId ∧
      (F locked).uidvalidity = some o'.uidvalidity)
    (hvalid : (F locked).uidvalidity = locked.uidvalidity ∨
      ∀ o' ∈ db'.messageOccurrences, o'.folderId = folderId → o'.invalidatedAt ≠ none) :
    Filed db' := by
  have hF : F locked ∈ db'.folders := (hedit.folders _).mpr ⟨locked, hlocked, by simp [hid]⟩
  -- the folder of an old row stays, and only the locked one changes
  have hstays : ∀ f ∈ db.folders, ∃ f' ∈ db'.folders, f'.id = f.id ∧ f'.accountId = f.accountId ∧
      (f' = f ∨ f = locked ∧ f' = F locked) := by
    intro f hf
    by_cases hfolder : f.id = folderId
    · obtain rfl := folder_unique hf hlocked (hfolder.trans hid.symm)
      exact ⟨F f, hF, hFid, hFaccount, .inr ⟨rfl, rfl⟩⟩
    · exact ⟨f, (hedit.folders f).mpr ⟨f, hf, by simp [hfolder]⟩, rfl, rfl, .inl rfl⟩
  refine ⟨hedit.rows_unique h.rows_unique, fun o' ho' => ?_, fun o' ho' hnone => ?_⟩
  · rcases hedit.rows_from o' ho' with ⟨o, ho, hrow, -⟩ | hnew
    · obtain ⟨f, hf, hfid, hfaccount⟩ := h.owned o ho
      obtain ⟨f', hf', hid', haccount', -⟩ := hstays f hf
      exact ⟨f', hf', hid'.trans (hfid.trans hrow.folderId.symm),
        by rw [haccount', hfaccount, hrow.accountId]⟩
    · obtain ⟨hfolder, haccount, -⟩ := hadded o' hnew
      exact ⟨F locked, hF, hFid.trans (hid.trans hfolder.symm), hFaccount.trans haccount.symm⟩
  · rcases hedit.rows_from o' ho' with ⟨o, ho, hrow, -⟩ | hnew
    · obtain ⟨f, hf, hfid, hgen⟩ := h.valid o ho (hrow.valid hnone)
      obtain ⟨f', hf', hid', -, hcases⟩ := hstays f hf
      refine ⟨f', hf', hid'.trans (hfid.trans hrow.folderId.symm), ?_⟩
      rcases hcases with rfl | ⟨rfl, rfl⟩
      · rw [hgen, hrow.uidvalidity]
      · rcases hvalid with hsame | hnone'
        · rw [hsame, hgen, hrow.uidvalidity]
        · exact absurd hnone (hnone' o' ho' (by rw [hrow.folderId, ← hfid, hid]))
    · obtain ⟨hfolder, -, hgen⟩ := hadded o' hnew
      exact ⟨F locked, hF, hFid.trans (hid.trans hfolder.symm), hgen⟩

/-- The invariant after a transaction on one folder. -/
theorem FolderEdit.coherent {i : ℕ} {tag : Option SyncTag} (h : Coherent strict w)
    (hedit : FolderEdit folderId F added w.store db') (hlocked : locked ∈ w.store.folders)
    (hid : locked.id = folderId)
    (hlater : FolderLater strict (w.outside.succession (placeOf locked)) locked (F locked))
    (hadded : ∀ o', added o' → o'.folderId = folderId ∧ o'.accountId = locked.accountId ∧
      (F locked).uidvalidity = some o'.uidvalidity)
    (hvalid : (F locked).uidvalidity = locked.uidvalidity ∨
      ∀ o' ∈ db'.messageOccurrences, o'.folderId = folderId → o'.invalidatedAt ≠ none)
    (hsound : RowSound strict (w.outside.succession (placeOf locked)) db' (F locked)) :
    Coherent strict ⟨db', w.outside.observe i tag w.store db'⟩ := by
  have hstore := hedit.storeLater hlocked hid hlater
  have hFplace : placeOf (F locked) = placeOf locked := hlater.place
  refine h.commit hstore (hedit.filed h.filed hlocked hid hlater.id (congrArg Prod.fst hFplace)
    hadded hvalid) fun f' hf' => ?_
  obtain ⟨f, hf, rfl⟩ := (hedit.folders f').mp hf'
  split
  next heq =>
    obtain rfl := folder_unique hf hlocked (heq.trans hid.symm)
    rw [hFplace]
    exact hsound
  next => exact (h.folders f hf).mono (.refl _) fun g => copies_mono hedit.rows

/-- The occurrences after a transaction of another service. -/
theorem Filed.elsewhere {db : Database} (h : Filed db) (hother : Elsewhere db db') : Filed db' := by
  refine ⟨fun o₁ ho₁ o₂ ho₂ hid => ?_, fun o' ho' => ?_, fun o' ho' hnone => ?_⟩
  · obtain ⟨r₁, hr₁, hrow₁, -⟩ := hother.rows_from o₁ ho₁
    obtain ⟨r₂, hr₂, hrow₂, -⟩ := hother.rows_from o₂ ho₂
    obtain rfl := h.rows_unique r₁ hr₁ r₂ hr₂ (hrow₁.id.symm.trans (hid.trans hrow₂.id))
    exact Table.eq_of_key_eq ho₁ ho₂ (hrow₁.key.trans hrow₂.key.symm)
  · obtain ⟨o, ho, hrow, -⟩ := hother.rows_from o' ho'
    obtain ⟨f, hf, hfid, hfaccount⟩ := h.owned o ho
    obtain ⟨f', hf', hcheck⟩ := hother.folders f hf
    simp only [checkpointsOf, Folder.mk.injEq] at hcheck
    exact ⟨f', hf', hcheck.1.trans (hfid.trans hrow.folderId.symm),
      by rw [hcheck.2.1, hfaccount, hrow.accountId]⟩
  · obtain ⟨o, ho, hrow, hsame⟩ := hother.rows_from o' ho'
    obtain ⟨f, hf, hfid, hgen⟩ := h.valid o ho (hsame ▸ hnone)
    obtain ⟨f', hf', hcheck⟩ := hother.folders f hf
    simp only [checkpointsOf, Folder.mk.injEq] at hcheck
    exact ⟨f', hf', hcheck.1.trans (hfid.trans hrow.folderId.symm),
      by rw [hcheck.2.2.2.2.1, hgen, hrow.uidvalidity]⟩

/-- A transaction of another service keeps the invariant. -/
theorem Coherent.elsewhere {i : ℕ} {tag : Option SyncTag} (h : Coherent strict w)
    (hother : Elsewhere w.store db') :
    StoreLater strict w.outside w.store db' ∧
      Coherent strict ⟨db', w.outside.observe i tag w.store db'⟩ := by
  have hlater : ∀ f f' : Folder, checkpointsOf f' = checkpointsOf f →
      FolderLater strict (w.outside.succession (placeOf f)) f f' := by
    intro f f' hsame
    simp only [checkpointsOf, Folder.mk.injEq] at hsame
    obtain ⟨hid, haccount, hname, -, hgen, hscanned, -, hbefore, hcomplete⟩ := hsame
    refine .of_same hid (by rw [placeOf, placeOf, haccount, hname]) hgen ⟨fun b hb => ?_, ?_, ?_⟩
    · exact ⟨b, Nat.le_refl b, hbefore.trans hb⟩
    · exact hscanned.ge
    · exact fun hc => hcomplete.trans hc
  have hstore : StoreLater strict w.outside w.store db' := by
    refine ⟨hother.rows, fun f hf => ?_⟩
    obtain ⟨f', hf', hsame⟩ := hother.folders f hf
    exact ⟨f', hf', hlater f f' hsame⟩
  refine ⟨hstore, h.commit hstore (h.filed.elsewhere hother) fun f' hf' => ?_⟩
  rcases hother.folders_from f' hf' with ⟨f, hf, hsame⟩ | hnew
  · have hsound := (h.folders f hf).mono (.refl _) fun g => copies_mono hother.rows
    have hplace := (hlater f f' hsame).place
    simp only [checkpointsOf, Folder.mk.injEq] at hsame
    obtain ⟨hid, -, -, -, hgen, hscanned, -, hbefore, hcomplete⟩ := hsame
    rw [hplace]
    refine ⟨fun g hg => hsound.known g (hgen ▸ hg), fun hs hb => ?_, fun hs hc => ?_,
      fun hs g b hg hb => ?_⟩
    · rw [hscanned, hcomplete]
      exact hsound.fresh (hid ▸ hs) (hbefore.symm.trans hb)
    · rw [hbefore]
      exact hsound.complete (hid ▸ hs) (hcomplete.symm.trans hc)
    · rw [hscanned, hid]
      exact hsound.covered (hid ▸ hs) g b (hgen.symm.trans hg) (hbefore.symm.trans hb)
  · refine ⟨fun g hg => ?_, fun _ _ => ⟨hnew.arrivalScannedUid, hnew.backfillComplete⟩,
      fun _ hc => ?_, fun _ g b hg _ => ?_⟩
    · simp [hnew.uidvalidity] at hg
    · simp [hnew.backfillComplete] at hc
    · simp [hnew.uidvalidity] at hg

end

end MailHub.FolderSync
