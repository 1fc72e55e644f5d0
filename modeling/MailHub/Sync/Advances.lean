import MailHub.Sync.Knowledge

/-!
# What the commits of synchronization keep

Every transaction of folder synchronization keeps the invariant and accounts for its rows, given
what its worker knows. The import of a window moves the boundary down over a range that the worker
listed; the import of arrivals moves the scanned range up to a bound that had been given.
-/

namespace MailHub.FolderSync

open Relational Interleaving Ordering

variable {strict : Uuid → Prop} {s : SyncServices} {i : ℕ} {t : Option SyncTag} {w : SyncWorld}
  {db' : Database} {accountId folderId : Uuid} {f locked : Folder} {g low high : ℕ}
  {records : List MailboxHeaders} {newIds : ℕ → ImportIds}

/-! ## Accounting -/

/-- An occurrence that is no longer new and not marked either. -/
theorem expungedAt_of_active {o : MessageOccurrence} (h : o.isActive = true) :
    o.expungedAt = none := by
  simp only [MessageOccurrence.isActive, Bool.and_eq_true, Option.isNone_iff_eq_none] at h
  exact h.1

theorem invalidatedAt_of_active {o : MessageOccurrence} (h : o.isActive = true) :
    o.invalidatedAt = none := by
  simp only [MessageOccurrence.isActive, Bool.and_eq_true, Option.isNone_iff_eq_none] at h
  exact h.2

/-- Rows that stay, rows that are gone and rows that were fetched; only a folder that was contacted
gets a boundary. -/
theorem accounted_of_from (hw : Coherent strict w)
    (hfrom : ∀ o' ∈ db'.messageOccurrences,
      (∃ o ∈ w.store.messageOccurrences, RowLater o o' ∧
        (o'.expungedAt = o.expungedAt ∨ IsGone i w o) ∧
        (o'.invalidatedAt = o.invalidatedAt ∨ generationOf o.folderId db' ≠ some o.uidvalidity)) ∨
      (∃ f ∈ w.store.folders, f.uidvalidity = some o'.uidvalidity ∧
        ∃ record, Fetched i w (placeOf f) o'.uidvalidity record ∧
          MadeFrom s f.accountId f.id o'.uidvalidity db' record o'))
    (hcontact : ∀ f ∈ w.store.folders, ∀ f' ∈ db'.folders, f'.id = f.id → strict f.id →
      f.backfillBeforeUid = none → f'.backfillBeforeUid ≠ none → IsContacted i w f f') :
    Accounted s strict i t w (committed i t w db') := by
  refine ⟨fun o' ho' hactive => ?_, fun _ o ho o' ho' hrow hnone hsome => ?_,
    fun o ho o' ho' hrow hnone hsome => ?_, hcontact⟩
  · rcases hfrom o' ho' with ⟨o, ho, hrow, -⟩ | hmade
    · exact .inl ⟨o, ho, hrow, hrow.active hactive⟩
    · exact .inr hmade
  · rcases hfrom o' ho' with ⟨r, hr, hrow', hwhy, -⟩ | ⟨f, -, -, record, -, hmade⟩
    · obtain rfl := hw.filed.rows_unique r hr o ho (hrow'.id.symm.trans hrow.id)
      rcases hwhy with hsame | hgone
      · exact absurd (hsame.trans hnone) hsome
      · exact hgone
    · exact absurd (expungedAt_of_active hmade.active) hsome
  · rcases hfrom o' ho' with ⟨r, hr, hrow', -, hwhy⟩ | ⟨f, -, -, record, -, hmade⟩
    · obtain rfl := hw.filed.rows_unique r hr o ho (hrow'.id.symm.trans hrow.id)
      rcases hwhy with hsame | hleft
      · exact absurd (hsame.trans hnone) hsome
      · exact hleft
    · exact absurd (invalidatedAt_of_active hmade.active) hsome

/-- Another service gives no folder a boundary. -/
theorem Elsewhere.unopened {db : Database} {f' : Folder} (hother : Elsewhere db db')
    (hf : f ∈ db.folders) (hf' : f' ∈ db'.folders) (hid : f'.id = f.id)
    (hnone : f.backfillBeforeUid = none) : f'.backfillBeforeUid = none := by
  rcases hother.folders_from f' hf' with ⟨f₀, hf₀, hsame⟩ | hnew
  · simp only [checkpointsOf, Folder.mk.injEq] at hsame
    obtain rfl := folder_unique hf₀ hf (hsame.1.symm.trans hid)
    rw [hsame.2.2.2.2.2.2.2.1, hnone]
  · exact hnew.backfillBeforeUid

/-- A transaction of another service. -/
theorem commits_elsewhere (hw : Coherent strict w) (hother : Elsewhere w.store db') :
    Commits s strict i none w db' := by
  obtain ⟨hstore, hcoherent⟩ := hw.elsewhere hother
  refine ⟨hstore, hcoherent, fun o' ho' hactive => ?_, fun h => absurd h Bool.false_ne_true,
    fun o ho o' ho' hrow hnone hsome => ?_, fun f hf f' hf' hid _ hnone hsome =>
      absurd (hother.unopened hf hf' hid hnone) hsome⟩
  · obtain ⟨o, ho, hrow, -⟩ := hother.rows_from o' ho'
    exact .inl ⟨o, ho, hrow, hrow.active hactive⟩
  · obtain ⟨r, hr, hrow', hsame⟩ := hother.rows_from o' ho'
    obtain rfl := hw.filed.rows_unique r hr o ho (hrow'.id.symm.trans hrow.id)
    exact absurd (hsame.trans hnone) hsome

/-- A transaction that marks rows which are gone. -/
theorem commits_marking (hw : Coherent strict w) (hother : Elsewhere w.store db')
    (hmarks : ∀ o' ∈ db'.messageOccurrences, ∃ o ∈ w.store.messageOccurrences, RowLater o o' ∧
      (o'.expungedAt = o.expungedAt ∨ IsGone i w o)) : Commits s strict i t w db' := by
  obtain ⟨hstore, hcoherent⟩ := hw.elsewhere hother
  refine ⟨hstore, hcoherent, accounted_of_from hw (fun o' ho' => ?_)
    fun f hf f' hf' hid _ hnone hsome => absurd (hother.unopened hf hf' hid hnone) hsome⟩
  obtain ⟨o, ho, hrow, hwhy⟩ := hmarks o' ho'
  obtain ⟨r, hr, hrow', hsame⟩ := hother.rows_from o' ho'
  obtain rfl := hw.filed.rows_unique r hr o ho (hrow'.id.symm.trans hrow.id)
  exact .inl ⟨r, ho, hrow, hwhy, .inl hsame⟩

/-- A transaction that writes neither folders nor occurrences. -/
theorem commits_same (hw : Coherent strict w) (hfolders : db'.folders = w.store.folders)
    (hrows : db'.messageOccurrences = w.store.messageOccurrences) :
    Commits s strict i t w db' :=
  commits_marking hw (.of_same hfolders hrows) fun o ho => ⟨o, hrows ▸ ho, .refl o, .inl rfl⟩

/-- A transaction on one folder that adds only rows that were fetched under its generation. -/
theorem commits_edit {F : Folder → Folder} {added : MessageOccurrence → Prop}
    (hw : Coherent strict w) (hedit : FolderEdit folderId F added w.store db')
    (hfind : findFolder accountId folderId w.store = some locked)
    (hlater : FolderLater strict (w.outside.succession (placeOf locked)) locked (F locked))
    (hadded : ∀ o', added o' → locked.uidvalidity = some o'.uidvalidity ∧
      (F locked).uidvalidity = some o'.uidvalidity ∧
      ∃ record, Fetched i w (placeOf locked) o'.uidvalidity record ∧
        MadeFrom s accountId folderId o'.uidvalidity db' record o')
    (hvalid : (F locked).uidvalidity = locked.uidvalidity ∨
      ∀ o' ∈ db'.messageOccurrences, o'.folderId = folderId → o'.invalidatedAt ≠ none)
    (hsound : RowSound strict (w.outside.succession (placeOf locked)) db' (F locked))
    (hcontact : strict locked.id → locked.backfillBeforeUid = none →
      (F locked).backfillBeforeUid ≠ none → IsContacted i w locked (F locked)) :
    Commits s strict i t w db' := by
  obtain ⟨hlocked, rfl, rfl⟩ := findFolder_eq_some.mp hfind
  refine ⟨hedit.storeLater hlocked rfl hlater, hedit.coherent hw hlocked rfl hlater
    (fun o' ho' => ?_) hvalid hsound, accounted_of_from hw (fun o' ho' => ?_)
      fun f hf f' hf' hid hs hnone hsome => ?_⟩
  · obtain ⟨-, hgen, record, -, hmade⟩ := hadded o' ho'
    exact ⟨hmade.folderId, hmade.accountId, hgen⟩
  · rcases hedit.rows_from o' ho' with ⟨o, ho, hrow, hsame, hmoved⟩ | hnew
    · refine .inl ⟨o, ho, hrow, .inl hsame, hmoved.imp_right ?_⟩
      rintro ⟨hfolder, hleft⟩ hgen
      obtain ⟨f', hf', hid, hgen'⟩ := generationOf_eq_some.mp hgen
      obtain ⟨f, hf, rfl⟩ := (hedit.folders f').mp hf'
      by_cases heq : f.id = locked.id
      · rw [if_pos heq] at hgen'
        exact hleft f hgen'
      · rw [if_neg heq] at hid
        exact heq (hid.trans hfolder)
    · obtain ⟨hgen, -, record, hfetched, hmade⟩ := hadded o' hnew
      exact .inr ⟨locked, hlocked, hgen, record, hfetched, hmade⟩
  · obtain ⟨f₀, hf₀, rfl⟩ := (hedit.folders f').mp hf'
    by_cases heq : f₀.id = locked.id
    · obtain rfl := folder_unique hf₀ hlocked heq
      rw [if_pos heq] at hid hsome ⊢
      obtain rfl := folder_unique hf hf₀ (hid.symm.trans hlater.id)
      exact hcontact hs hnone hsome
    · rw [if_neg heq] at hid hsome
      obtain rfl := folder_unique hf₀ hf hid
      exact absurd hnone hsome

/-- An import of records that were fetched under the generation of the folder. -/
theorem commits_import {F : Folder → Folder} (hw : Coherent strict w)
    (hedit : FolderEdit folderId F
      (fun o => ∃ record ∈ records, MadeFrom s accountId folderId g db' record o) w.store db')
    (hfind : findFolder accountId folderId w.store = some locked)
    (hgen : locked.uidvalidity = some g) (hkeeps : (F locked).uidvalidity = locked.uidvalidity)
    (hlater : FolderLater strict (w.outside.succession (placeOf locked)) locked (F locked))
    (hfetched : ∀ record ∈ records, Fetched i w (placeOf locked) g record)
    (hsound : RowSound strict (w.outside.succession (placeOf locked)) db' (F locked))
    (hopen : strict locked.id → locked.backfillBeforeUid = none →
      (F locked).backfillBeforeUid = none) :
    Commits s strict i t w db' := by
  refine commits_edit hw hedit hfind hlater (fun o' ho' => ?_) (.inl hkeeps) hsound
    fun hs hnone hsome => absurd (hopen hs hnone) hsome
  obtain ⟨record, hrecord, hmade⟩ := ho'
  rw [hkeeps, hmade.uidvalidity]
  exact ⟨hgen, hgen, record, hfetched record hrecord, hmade⟩

/-! ## Checkpoints -/

/-- What the row that is locked still has of the row that was read, under the same generation. -/
theorem Loaded.checkpoints (hs : strict f.id) (hf : Loaded strict f w) (hl : locked ∈ w.store.folders)
    (hid : locked.id = f.id) (hg : f.uidvalidity = some g) (hg' : locked.uidvalidity = some g) :
    CheckpointsLater f locked := by
  obtain ⟨g', hg₂, hstep⟩ := (hf.laterRow hl hid).later hs g hg
  obtain rfl : g = g' := by rw [hg'] at hg₂; exact Option.some.inj hg₂
  rcases hstep with ⟨-, hlater⟩ | hold
  · exact hlater
  · exact absurd rfl hold.ne

/-- The first contact of a folder keeps the discipline. -/
theorem initializedRow_sound {mailbox : SelectedFolder} (hlocked : locked ∈ w.store.folders)
    (hw : Coherent strict w) (hpos : 0 < mailbox.uidNext)
    (hgiven : (w.outside.succession (placeOf locked)).Within mailbox.uidValidity fun a =>
      mailbox.uidNext ≤ a.next)
    (hsame : ∀ g, locked.uidvalidity = some g → g = mailbox.uidValidity)
    (hopen : locked.uidvalidity.isSome → locked.backfillBeforeUid = none) :
    FolderLater strict (w.outside.succession (placeOf locked)) locked
        (initializedRow mailbox locked) ∧
      RowSound strict (w.outside.succession (placeOf locked)) db'
        (initializedRow mailbox locked) := by
  refine ⟨⟨rfl, rfl, fun hs g hg => ⟨mailbox.uidValidity, rfl, .inl ⟨hsame g hg, ?_⟩⟩⟩, ?_⟩
  · have hnone : locked.backfillBeforeUid = none := hopen (by simp [hg])
    obtain ⟨hscanned, hcomplete⟩ := (hw.folders locked hlocked).fresh hs hnone
    refine ⟨fun b hb => ?_, ?_, fun hc => ?_⟩
    · simp [hnone] at hb
    · rw [hscanned]
      exact Nat.zero_le _
    · simp [hcomplete] at hc
  · refine ⟨fun g hg => ?_, fun _ hb => ?_, fun _ hc => ?_, fun _ g b hg hb => ?_⟩
    · obtain rfl : mailbox.uidValidity = g := Option.some.inj hg
      exact hgiven.mem
    · simp [initializedRow] at hb
    · have hzero : mailbox.uidNext - 1 = 0 := by simpa [initializedRow] using hc
      exact ⟨mailbox.uidNext - 1 + 1, by omega, rfl⟩
    · obtain rfl : mailbox.uidValidity = g := Option.some.inj hg
      obtain rfl : mailbox.uidNext - 1 + 1 = b := Option.some.inj hb
      refine hgiven.mono fun a ha => ?_
      change mailbox.uidNext - 1 + 1 ≤ a.next ∧ mailbox.uidNext - 1 < a.next ∧
        a.Covers _ (mailbox.uidNext - 1 + 1) (mailbox.uidNext - 1)
      exact ⟨by omega, by omega, Numbered.covers_of_lt (by omega)⟩

/-- A window moves the boundary down over the range that was listed and imported. -/
theorem windowRow_sound {before : ℕ} (hw : Coherent strict w) (hf : Loaded strict f w)
    (hlocked : locked ∈ w.store.folders) (hid : locked.id = f.id)
    (hgen : f.uidvalidity = some g) (hgen' : locked.uidvalidity = some g)
    (hbefore : f.backfillBeforeUid = some before) (hhigh : high + 1 = before)
    (hlisted : strict f.id →
      Listed (placeOf f) g low high { uid | ∃ m ∈ records, m.uid = uid } w)
    (hpresent : ∀ record ∈ records, record.uid ∈ copies locked.id g db')
    (hrows : ∀ r ∈ w.store.messageOccurrences, ∃ r' ∈ db'.messageOccurrences, RowLater r r') :
    FolderLater strict (w.outside.succession (placeOf locked)) locked
        (windowRow (min (locked.backfillBeforeUid.getD low) low)
          (decide (min (locked.backfillBeforeUid.getD low) low ≤ 1) || locked.backfillComplete)
          locked) ∧
      RowSound strict (w.outside.succession (placeOf locked)) db'
        (windowRow (min (locked.backfillBeforeUid.getD low) low)
          (decide (min (locked.backfillBeforeUid.getD low) low ≤ 1) || locked.backfillComplete)
          locked) := by
  have hplace := (hf.laterRow hlocked hid).place
  have hsound := hw.folders locked hlocked
  -- within one generation the locked boundary is no higher than the one that was read
  have hbound : strict locked.id → ∃ b ≤ before, locked.backfillBeforeUid = some b := fun hs =>
    (hf.checkpoints (hid ▸ hs) hlocked hid hgen hgen').before before hbefore
  refine ⟨.of_same rfl rfl rfl ⟨fun b hb => ?_, Nat.le_refl _, fun hc => ?_⟩,
    ⟨hsound.known, fun _ hb => ?_, fun hs hc => ?_, fun hs g' b hg' hb => ?_⟩⟩
  · refine ⟨_, ?_, rfl⟩
    rw [hb]
    exact Nat.min_le_left _ _
  · simp only [windowRow, hc, Bool.or_true]
  · simp [windowRow] at hb
  · obtain ⟨b, hle, hb⟩ := hbound hs
    refine ⟨_, ?_, rfl⟩
    simp only [windowRow, Bool.or_eq_true, decide_eq_true_eq] at hc
    rcases hc with hle | hdone
    · exact hle
    · obtain ⟨b', hle', hb'⟩ := hsound.complete hs hdone
      rw [hb', Option.getD_some]
      exact Nat.le_trans (Nat.min_le_left _ _) hle'
  · obtain rfl : g = g' := by
      rw [← Option.some.injEq, ← hgen']
      exact hg'
    obtain ⟨b₀, hle, hb₀⟩ := hbound hs
    obtain rfl : min b₀ low = b := by simpa [windowRow, hb₀] using hb
    have hrange := (hsound.covered hs g b₀ hgen' hb₀).and (hplace ▸ hlisted (hid ▸ hs))
    refine hrange.mono ?_
    rintro a ⟨⟨hnext, hscanned, hold⟩, hhighnext, hnew⟩
    refine ⟨Nat.le_trans (Nat.min_le_left _ _) hnext, hscanned, ?_⟩
    have hold' : a.Covers (copies locked.id g db') b₀ locked.arrivalScannedUid :=
      hold.mono (copies_mono hrows)
    change a.Covers (copies locked.id g db') (min b₀ low) locked.arrivalScannedUid
    by_cases hlow : b₀ ≤ low
    · rw [Nat.min_eq_left hlow]
      exact hold'
    · rw [Nat.min_eq_right (by omega)]
      refine Numbered.Covers.join (hnew.mono ?_) hold' (by omega)
      rintro uid ⟨m, hm, rfl⟩
      exact hpresent m hm

/-- Arrivals move the scanned range up over what was listed and imported. -/
theorem scannedRow_sound {covered : ℕ} (hw : Coherent strict w) (hf : Loaded strict f w)
    (hlocked : locked ∈ w.store.folders) (hid : locked.id = f.id)
    (hgen : f.uidvalidity = some g) (hgen' : locked.uidvalidity = some g)
    (hopen : f.backfillBeforeUid.isSome)
    (hlisted : strict f.id → Listed (placeOf f) g (f.arrivalScannedUid + 1) covered
      (copies locked.id g db') w)
    (hrows : ∀ r ∈ w.store.messageOccurrences, ∃ r' ∈ db'.messageOccurrences, RowLater r r') :
    FolderLater strict (w.outside.succession (placeOf locked)) locked
        (scannedRow (max locked.arrivalScannedUid covered) locked) ∧
      RowSound strict (w.outside.succession (placeOf locked)) db'
        (scannedRow (max locked.arrivalScannedUid covered) locked) := by
  have hplace := (hf.laterRow hlocked hid).place
  have hsound := hw.folders locked hlocked
  refine ⟨.of_same rfl rfl rfl ⟨fun b hb => ⟨b, Nat.le_refl b, hb⟩, Nat.le_max_left _ _, id⟩,
    ⟨hsound.known, fun hs hb => ?_, hsound.complete, fun hs g' b hg' hb => ?_⟩⟩
  · obtain ⟨before, hbefore⟩ := Option.isSome_iff_exists.mp hopen
    obtain ⟨b, -, hb'⟩ := (hf.checkpoints (hid ▸ hs) hlocked hid hgen hgen').before before hbefore
    have hnone : locked.backfillBeforeUid = none := hb
    simp [hb'] at hnone
  · obtain rfl : g = g' := by
      rw [← Option.some.injEq, ← hgen']
      exact hg'
    have hle := (hf.checkpoints (hid ▸ hs) hlocked hid hgen hgen').scanned
    have hrange := (hsound.covered hs g b hgen' hb).and (hplace ▸ hlisted (hid ▸ hs))
    refine hrange.mono ?_
    rintro a ⟨⟨hnext, hscanned, hold⟩, hcovered, hnew⟩
    refine ⟨hnext, Nat.max_lt.mpr ⟨hscanned, hcovered⟩, ?_⟩
    have hold' : a.Covers (copies locked.id g db') b locked.arrivalScannedUid :=
      hold.mono (copies_mono hrows)
    change a.Covers (copies locked.id g db') b (max locked.arrivalScannedUid covered)
    by_cases hmax : covered ≤ locked.arrivalScannedUid
    · rw [Nat.max_eq_left hmax]
      exact hold'
    · rw [Nat.max_eq_right (by omega)]
      exact Numbered.Covers.join hold' hnew (by omega)

/-! ## Transactions -/

variable {ids : List Uuid} {now : Time}

/-- A first contact, with what it says about a folder that is taken over. -/
theorem commits_initialize {mailbox : SelectedFolder} {result : Initialization}
    (hw : Coherent strict w) (hf : Loaded strict f w) (hpos : 0 < mailbox.uidNext)
    (hgiven : (w.outside.succession (placeOf f)).Within mailbox.uidValidity fun a =>
      mailbox.uidNext ≤ a.next)
    (hfolder : (w.outside.sessions i).folder = some (placeOf f))
    (hselected : (w.outside.sessions i).selected = some mailbox)
    (hrun : (initializeCheckpoints f mailbox).run w.store = .ok (result, db')) :
    Commits s strict i (some (.contact f.id mailbox.uidValidity)) w db' ∧
      ((∃ held, result = .generationChanged mailbox.uidValidity held ∧
          Justified strict i f.id mailbox.uidValidity held
            (committed i (some (.contact f.id mailbox.uidValidity)) w db')) ∨
        (∃ effective, result = .initialized true effective) ∨
        ∃ locked ∈ w.store.folders, locked.id = f.id ∧ placeOf locked = placeOf f ∧
          locked.uidvalidity = some mailbox.uidValidity ∧ db' = w.store ∧
            ∃ effective, toInitialized locked = .ok effective ∧
              result = .initialized false effective) := by
  obtain ⟨locked, hfind, hcases⟩ := initializeCheckpoints_ok hrun
  obtain ⟨hlocked, hid, -⟩ := findFolder_eq_some.mp hfind
  have hplace := (hf.laterRow hlocked hid).place
  rcases hcases with ⟨held, hheld, hne, rfl, rfl⟩ | ⟨hgen, effective, hok, rfl, rfl⟩ |
    ⟨hsame, hopen, hfresh, hedit⟩
  · refine ⟨commits_same hw rfl rfl, .inl ⟨held, rfl, locked, hlocked, hid, ?_, fun _ => ?_⟩⟩
    · exact (hw.folders locked hlocked).known held hheld
    · -- the record names the refused contact
      have hgeneration : generationOf f.id w.store = some held :=
        generationOf_eq_some.mpr ⟨locked, hlocked, hid, hheld⟩
      refine .inr (.inr ?_)
      simp [MailServers.observe, refusedAfter, hgeneration, Option.filter, hne]
  · exact ⟨commits_same hw rfl rfl, .inr (.inr ⟨locked, hlocked, hid, hplace, hgen, rfl,
      effective, hok, rfl⟩)⟩
  · obtain ⟨hlater, hsound⟩ := initializedRow_sound hlocked hw hpos (hplace ▸ hgiven)
      hsame hopen
    have hcontacted : IsContacted i w locked (initializedRow mailbox locked) := by
      refine ⟨hplace ▸ hfolder, mailbox, hselected, rfl, ?_⟩
      change mailbox.uidNext ≤ mailbox.uidNext - 1 + 1
      omega
    refine ⟨commits_edit hw hedit hfind hlater (fun _ h => h.elim) ?_ hsound
      fun _ _ _ => hcontacted, .inr (.inl hfresh)⟩
    cases hgen : locked.uidvalidity with
    | some g => exact .inl (by rw [hsame g hgen]; rfl)
    | none =>
        exact .inr (hw.filed.invalid_contact hlocked hid hgen hedit)

/-- Closing a folder out needs a boundary that went down to the first UID. -/
theorem commits_closeOut {mailbox : SelectedFolder} {before : ℕ} (hw : Coherent strict w)
    (hf : Loaded strict f w) (hid : f.id = folderId)
    (hgen : f.uidvalidity = some mailbox.uidValidity) (hbefore : f.backfillBeforeUid = some before)
    (hdone : before ≤ 1)
    (hrun : (closeOut accountId folderId mailbox).run w.store = .ok ((), db')) :
    Commits s strict i t w db' := by
  rcases closeOut_ok hrun with rfl | ⟨locked, hfind, hgen', hedit⟩
  · exact commits_same hw rfl rfl
  · obtain ⟨hlocked, hlid, -⟩ := findFolder_eq_some.mp hfind
    have hsound := (hw.folders locked hlocked).mono (.refl _) fun _ => copies_mono hedit.rows
    have hsame : locked.id = f.id := hlid.trans hid.symm
    have hbound : strict locked.id → ∃ b ≤ before, locked.backfillBeforeUid = some b := fun hs =>
      (hf.checkpoints (hsame ▸ hs) hlocked hsame hgen hgen').before before hbefore
    refine commits_edit hw hedit hfind ?_ (fun _ h => h.elim) (.inl rfl)
      ⟨hsound.known, fun hs hb => ?_, fun hs _ => ?_, hsound.covered⟩
      fun _ hnone hsome => absurd hnone hsome
    · exact .of_same rfl rfl rfl ⟨fun b hb => ⟨b, Nat.le_refl b, hb⟩, Nat.le_refl _, fun _ => rfl⟩
    · obtain ⟨b, -, hb'⟩ := hbound hs
      have hnone : locked.backfillBeforeUid = none := hb
      simp [hb'] at hnone
    · obtain ⟨b, hle, hb⟩ := hbound hs
      exact ⟨b, Nat.le_trans hle hdone, hb⟩

/-- The commit of a window. -/
theorem commits_window {mailbox : SelectedFolder} {before found : ℕ}
    {outcome : BackfillBatchOutcome} (hw : Coherent strict w) (hf : Loaded strict f w)
    (hid : f.id = folderId) (hgen : f.uidvalidity = some mailbox.uidValidity)
    (hbefore : f.backfillBeforeUid = some before) (hhigh : high + 1 = before)
    (hlisted : strict f.id → Listed (placeOf f) mailbox.uidValidity low high
      { uid | ∃ m ∈ records, m.uid = uid } w)
    (hfetched : ∀ record ∈ records, Fetched i w (placeOf f) mailbox.uidValidity record)
    (hrun : (commitWindow s accountId folderId mailbox low high found newIds records).run w.store =
      .ok (outcome, db')) :
    Commits s strict i t w db' ∧ Reports strict i folderId outcome.change w := by
  obtain ⟨locked, hfind, ⟨-, rfl, hfolders, hrows⟩ | ⟨hgen', hpresent, hno, hedit⟩⟩ :=
    commitWindow_ok hrun
  · obtain ⟨hlocked, hlid, -⟩ := findFolder_eq_some.mp hfind
    refine ⟨commits_same hw hfolders hrows, ?_⟩
    rintro _ _ ⟨⟩
    exact hid ▸ hf.justified_of_locked hw hlocked (hlid.trans hid.symm) hgen
  · obtain ⟨hlocked, hlid, -⟩ := findFolder_eq_some.mp hfind
    have hplace := (hf.laterRow hlocked (hlid.trans hid.symm)).place
    obtain ⟨hlater, hsound⟩ := windowRow_sound hw hf hlocked (hlid.trans hid.symm) hgen hgen' hbefore
      hhigh hlisted (hlid ▸ hpresent) hedit.rows
    refine ⟨commits_import hw hedit hfind hgen' rfl hlater (hplace ▸ hfetched) hsound
      fun hs hnone => ?_, ?_⟩
    · have hsame : locked.id = f.id := hlid.trans hid.symm
      obtain ⟨b, -, hb⟩ :=
        (hf.checkpoints (hsame ▸ hs) hlocked hsame hgen hgen').before before hbefore
      simp [hnone] at hb
    · rw [hno]
      exact .none

/-- The commit of arrivals; without one the folder has moved. -/
theorem commits_arrivals {covered : ℕ} {result : Option ImportCounts} (hw : Coherent strict w)
    (hf : Loaded strict f w) (hid : f.id = folderId) (hgen : f.uidvalidity = some g)
    (hopen : f.backfillBeforeUid.isSome)
    (hlisted : strict f.id → ∀ db₂, (∀ record ∈ records, record.uid ∈ copies folderId g db₂) →
      (∀ r ∈ w.store.messageOccurrences, ∃ r' ∈ db₂.messageOccurrences, RowLater r r') →
        Listed (placeOf f) g (f.arrivalScannedUid + 1) covered (copies folderId g db₂) w)
    (hfetched : ∀ record ∈ records, Fetched i w (placeOf f) g record)
    (hrun : (commitArrivals s accountId folderId g covered newIds records).run w.store =
      .ok (result, db')) :
    Commits s strict i t w db' ∧
      (result = none ∨ ∀ record ∈ records, record.uid ∈ copies folderId g db') := by
  obtain ⟨locked, hfind, ⟨rfl, rfl⟩ | ⟨hgen', -, hpresent, hedit⟩⟩ := commitArrivals_ok hrun
  · exact ⟨commits_same hw rfl rfl, .inl rfl⟩
  · obtain ⟨hlocked, hlid, -⟩ := findFolder_eq_some.mp hfind
    have hplace := (hf.laterRow hlocked (hlid.trans hid.symm)).place
    obtain ⟨hlater, hsound⟩ := scannedRow_sound hw hf hlocked (hlid.trans hid.symm) hgen hgen' hopen
      (fun hs => hlid ▸ hlisted hs db' hpresent hedit.rows) hedit.rows
    exact ⟨commits_import hw hedit hfind hgen' rfl hlater (hplace ▸ hfetched) hsound
      fun _ hnone => hnone, .inr hpresent⟩

/-- A reset that is justified and not late. -/
theorem commits_reset {recorded observed : ℕ} {outcome : ResetOutcome} (hw : Coherent strict w)
    (hj : Justified strict i folderId recorded observed w)
    (hlate : Timely strict i w (some (.reset folderId recorded observed)))
    (hrun : (resetFolderGeneration accountId folderId recorded observed now).run w.store =
      .ok (outcome, db')) :
    Commits s strict i (some (.reset folderId recorded observed)) w db' := by
  obtain ⟨locked, hfind, rfl | ⟨hgen, hne, hedit, hfrom⟩⟩ := resetFolderGeneration_ok hrun
  · exact commits_same hw rfl rfl
  · obtain ⟨hlocked, hlid, haccount⟩ := findFolder_eq_some.mp hfind
    obtain ⟨f, hf, hid, hmem, hforward⟩ := hj
    obtain rfl := folder_unique hf hlocked (hid.trans hlid.symm)
    have hold : strict folderId → (w.outside.succession (placeOf f)).Older recorded observed := by
      intro hs
      rcases hforward hs with heq | hold | hrefused
      · exact absurd heq hne
      · exact hold
      · have hheld : generationOf folderId w.store = some recorded :=
          generationOf_eq_some.mpr ⟨f, hf, hid, hgen⟩
        have hno := hlate _ rfl hs
        simp [isLate, hrefused, hheld] at hno
    refine commits_edit hw hedit hfind ⟨rfl, rfl, fun hs g hg => ?_⟩ (fun _ h => h.elim)
      (.inr (hw.filed.invalid_reset hfind hgen hfrom))
      ⟨fun g hg => ?_, fun _ _ => ⟨rfl, rfl⟩, fun _ hc => ?_, fun _ g b _ hb => ?_⟩
      fun _ _ hsome => absurd rfl hsome
    · obtain rfl : recorded = g := Option.some.inj (hgen.symm.trans hg)
      exact ⟨observed, rfl, .inr (hold (hid ▸ hs))⟩
    · obtain rfl : observed = g := Option.some.inj hg
      exact hmem
    · simp [resetRow] at hc
    · simp [resetRow] at hb

/-- The commit of expunges marks what is gone. -/
theorem commits_expunges {marked : Option ℕ} (hw : Coherent strict w)
    (hgone : ∀ o ∈ w.store.messageOccurrences, o.id ∈ ids → IsGone i w o)
    (hrun : (commitExpunges accountId folderId g now ids).run w.store = .ok (marked, db')) :
    Commits s strict i t w db' := by
  have hexpunges := (commitExpunges_ok hrun).1
  refine commits_marking hw hexpunges.elsewhere fun o' ho' => ?_
  obtain ⟨o, ho, hrow, -, hwhy⟩ := hexpunges.rows_from o' ho'
  exact ⟨o, ho, hrow, hwhy.imp (congrArg _) (hgone o ho)⟩

/-- The commit of flags marks nothing. -/
theorem commits_flags {changes : List FlagChange} {written : Option ℕ} (hw : Coherent strict w)
    (hrun : (commitFlags accountId folderId g changes).run w.store = .ok (written, db')) :
    Commits s strict i t w db' := by
  obtain ⟨hother, hfrom⟩ := commitFlags_ok hrun
  refine commits_marking hw hother fun o' ho' => ?_
  obtain ⟨o, ho, hrow, hsame⟩ := hfrom o' ho'
  exact ⟨o, ho, hrow, .inl hsame⟩

/-- The commit of an inventory imports what was fetched and marks what is gone. -/
theorem commits_inventory {result : Option InventoryCommit} (hw : Coherent strict w)
    (hgone : ∀ o ∈ w.store.messageOccurrences, o.id ∈ ids → IsGone i w o)
    (hnamed : ∀ id ∈ ids, ∃ o ∈ w.store.messageOccurrences, o.id = id)
    (hfetched : ∀ f ∈ w.store.folders, f.id = folderId →
      ∀ record ∈ records, Fetched i w (placeOf f) g record)
    (hrun : (commitInventory s accountId folderId g now newIds records ids).run w.store =
      .ok (result, db')) : Commits s strict i t w db' := by
  obtain ⟨locked, hfind, rfl | ⟨hgen, db₁, himports, hexpunges⟩⟩ := commitInventory_ok hrun
  · exact commits_same hw rfl rfl
  · obtain ⟨hlocked, hid, -⟩ := findFolder_eq_some.mp hfind
    have hedit : FolderEdit folderId id
        (fun o => ∃ record ∈ records, MadeFrom s accountId folderId g db₁ record o)
        w.store db₁ := by
      refine ⟨fun f' => by simp [himports.folders], fun o ho => ⟨o, himports.rows o ho, .refl o⟩,
        fun o' ho' => ?_, himports.rows_unique⟩
      exact (himports.rows_from o' ho').imp_left fun hold => ⟨o', hold, .refl o', rfl, .inl rfl⟩
    have hfirst : Commits s strict i none w db₁ :=
      commits_import hw hedit hfind hgen rfl (.refl _) (hfetched locked hlocked hid)
        ((hw.folders locked hlocked).mono (.refl _) fun _ => copies_mono hedit.rows)
        fun _ hnone => hnone
    obtain ⟨hstore, hcoherent⟩ : StoreLater strict (committed i none w db₁).outside db₁ db' ∧
        Coherent strict (committed i t (committed i none w db₁) db') :=
      hfirst.coherent.elsewhere hexpunges.elsewhere
    have hleft : (committed i t w db').outside.left =
        (committed i t (committed i none w db₁) db').outside.left := by
      simp only [MailServers.observe, leftAfter_same himports.folders,
        leftAfter_same hexpunges.folders,
        leftAfter_same (hexpunges.folders.trans himports.folders)]
    refine ⟨hfirst.store.trans (hstore.trans .refl fun _ => .refl _) fun _ => .refl _,
      hcoherent.servers (fun _ => .refl _) hleft, accounted_of_from hw (fun o' ho' => ?_)
        fun f hf f' hf' hfid _ hnone hsome => ?_⟩
    rotate_left
    · rw [hexpunges.folders, himports.folders] at hf'
      obtain rfl := folder_unique hf' hf hfid
      exact absurd hnone hsome
    obtain ⟨o₁, ho₁, hrow, hvalid, hwhy⟩ := hexpunges.rows_from o' ho'
    rcases himports.rows_from o₁ ho₁ with hold | ⟨record, hrecord, hmade⟩
    · exact .inl ⟨o₁, hold, hrow, hwhy.imp (congrArg _) (hgone o₁ hold), .inl hvalid⟩
    · rcases hwhy with rfl | hmarked
      · refine .inr ⟨locked, hlocked, by rw [hgen, hmade.uidvalidity], record, ?_, ?_⟩
        · rw [hmade.uidvalidity]
          exact hfetched locked hlocked hid record hrecord
        · rw [hmade.uidvalidity, (findFolder_eq_some.mp hfind).2.2, hid]
          exact hmade.mono fun _ _ _ hm => hexpunges.messages ▸ hm
      · -- a name among the marked ones is the name of a row that was there before
        obtain ⟨o, ho, hsame⟩ := hnamed _ hmarked
        obtain rfl :=
          himports.rows_unique hw.filed.rows_unique o (himports.rows o ho) o₁ ho₁ hsame
        exact .inl ⟨o, ho, hrow, .inr (hgone o ho hmarked), .inl hvalid⟩

end MailHub.FolderSync
