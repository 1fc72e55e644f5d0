import MailHub.Sync.Guarantee

/-!
# What a synchronization worker knows

A worker reads rows, selects folders, searches and fetches, and commits later. What each of these
tells about a generation stays true while others run, because a generation that is left never comes
back and a UID that is gone stays gone.
-/

namespace MailHub.FolderSync

open Relational Interleaving Ordering

variable {strict : Uuid → Prop} {s : SyncServices} {i : ℕ} {w w' w₂ : SyncWorld} {o o' : MailServers}
  {f locked : Folder} {place : Place} {box : Mailbox} {g h low high : ℕ} {uids : Set ℕ}

/-! ## Rows -/

/-- The row `f` was read before: what held of it still holds, and the folder has a row that is `f`
later on. -/
structure Loaded (strict : Uuid → Prop) (f : Folder) (w : SyncWorld) : Prop where
  sound : RowSound strict (w.outside.succession (placeOf f)) w.store f
  later : ∃ f' ∈ w.store.folders, FolderLater strict (w.outside.succession (placeOf f)) f f'

theorem Loaded.onward (hf : Loaded strict f w) (hw : Onward strict w w') : Loaded strict f w' := by
  refine ⟨hf.sound.mono (hw.servers _) fun _ => copies_mono hw.store.rows, ?_⟩
  obtain ⟨f', hf', hlater⟩ := hf.later
  obtain ⟨f₂, hf₂, hlater₂⟩ := hw.store.folders f' hf'
  rw [hlater.place] at hlater₂
  exact ⟨f₂, hf₂, (hlater.mono (hw.servers _)).trans hlater₂⟩

theorem Coherent.loaded (hw : Coherent strict w) (hf : f ∈ w.store.folders) : Loaded strict f w :=
  ⟨hw.folders f hf, f, hf, .refl f⟩

/-- The row that a transaction locks is the row that was read, later on. -/
theorem Loaded.laterRow (hf : Loaded strict f w) (hl : locked ∈ w.store.folders)
    (hid : locked.id = f.id) :
    FolderLater strict (w.outside.succession (placeOf f)) f locked := by
  obtain ⟨f', hf', hlater⟩ := hf.later
  obtain rfl := folder_unique hl hf' (hid.trans hlater.id.symm)
  exact hlater

/-! ## Selections -/

theorem current_of_box (hbox : (o.folders place).box = some box) :
    (o.succession place).current = some (box.uidValidity, box.numbered) := by
  simp [MailServers.succession, ServerFolder.succession, hbox]

theorem mem_past_of_box (hbox : (o.folders place).box = some box) :
    box.uidValidity ∈ (o.succession place).past :=
  List.mem_of_getLast? ((o.folders place).current box hbox)

/-- Whatever holds of the mailbox that is there holds within every generation that it can have. -/
theorem within_of_box {P : Numbered → Prop} (hbox : (o.folders place).box = some box)
    (hg : g ∈ (o.succession place).past) (hP : g = box.uidValidity → P box.numbered) :
    (o.succession place).Within g P := by
  refine ⟨hg, fun a ha => ?_⟩
  rw [current_of_box hbox, Option.some.injEq, Prod.mk.injEq] at ha
  obtain ⟨rfl, rfl⟩ := ha
  exact hP rfl

/-- A generation that was known is the selected one or older. -/
theorem eq_or_older_of_box (hbox : (o.folders place).box = some box)
    (hg : g ∈ (o.succession place).past) :
    g = box.uidValidity ∨ (o.succession place).Older g box.uidValidity :=
  or_iff_not_imp_left.mpr fun hne => ServerFolder.older_current hbox hg hne

/-- The UIDs below the one that a selection reports have been given. -/
theorem given_of_box (hbox : (o.folders place).box = some box)
    (hg : g ∈ (o.succession place).past) :
    (o.succession place).Within g fun a => box.state.uidNext ≤ a.next :=
  within_of_box hbox hg fun _ => Nat.le_refl _

/-! ## Searches and fetches -/

/-- Among the members of a generation, those in a range of given UIDs are listed. -/
def Listed (place : Place) (g low high : ℕ) (uids : Set ℕ) (w : SyncWorld) : Prop :=
  (w.outside.succession place).Within g fun a => high < a.next ∧ a.Covers uids low high

theorem Listed.onward (hl : Listed place g low high uids w) (hw : Onward strict w w') :
    Listed place g low high uids w' :=
  Succession.Within.later hl (hw.servers place) fun _ _ hlater ⟨hnext, hcovers⟩ =>
    ⟨Nat.lt_of_lt_of_le hnext hlater.next_le, hcovers.later hlater hnext⟩

/-- A listing of a smaller range, as far as it is known. -/
theorem Listed.narrow {high' : ℕ} {uids' : Set ℕ} (hl : Listed place g low high uids w)
    (hle : high' ≤ high) (hsub : ∀ uid ∈ uids, low ≤ uid → uid ≤ high' → uid ∈ uids') :
    Listed place g low high' uids' w := by
  refine Succession.Within.mono hl fun a ⟨hnext, hcovers⟩ => ⟨Nat.lt_of_le_of_lt hle hnext, ?_⟩
  exact fun uid hmem hlow hhigh =>
    hsub uid (hcovers uid hmem hlow (Nat.le_trans hhigh hle)) hlow hhigh

/-- A search lists the members of the generation, if it reads that generation. -/
theorem listed_of_search {answer : List ℕ} (hbox : (w.outside.folders place).box = some box)
    (hgiven : (w.outside.succession place).Within g fun a => high < a.next)
    (hanswer : ∀ uid, uid ∈ answer ↔ uid ∈ box.numbered.present ∧ low ≤ uid ∧ uid ≤ high) :
    Listed place g low high { uid | uid ∈ answer } w := by
  refine within_of_box hbox hgiven.mem fun hg => ⟨?_, fun uid hmem hlow hhigh => ?_⟩
  · exact hgiven.holds _ (by rw [current_of_box hbox, hg])
  · exact (hanswer uid).mpr ⟨hmem, hlow, hhigh⟩

/-- A fetch answers what is still there of what it asked for. -/
theorem Listed.fetched {asked : List ℕ} {records : List MailboxHeaders}
    (hl : Listed place g low high uids w) (hbox : (w.outside.folders place).box = some box)
    (hanswer : ∀ m, m ∈ records ↔ m ∈ box.messages ∧ m.uid ∈ asked) :
    Listed place g low high
      { uid | uid ∈ uids ∧ (uid ∈ asked → ∃ m ∈ records, m.uid = uid) } w := by
  refine within_of_box hbox hl.mem fun hg => ?_
  obtain ⟨hnext, hcovers⟩ := hl.holds _ (by rw [current_of_box hbox, hg])
  refine ⟨hnext, fun uid hmem hlow hhigh => ⟨hcovers uid hmem hlow hhigh, fun hasked => ?_⟩⟩
  obtain ⟨m, hm, rfl⟩ := hmem
  exact ⟨m, (hanswer m).mpr ⟨hm, hasked⟩, rfl⟩

/-- The records were fetched under one generation, which is `g` if `g` is still there. -/
def Taken (i : ℕ) (place : Place) (g : ℕ) (records : List MailboxHeaders) (w : SyncWorld) : Prop :=
  ∃ h, (∀ record ∈ records, Fetched i w place h record) ∧
    (w.outside.succession place).Within g fun _ => h = g

variable {records : List MailboxHeaders}

theorem Fetched.stable {record : MailboxHeaders} (hf : Fetched i w place g record)
    (hr : Rely strict i w w') : Fetched i w' place g record := by
  unfold Fetched
  rw [hr.session]
  exact hf

theorem Taken.later (ht : Taken i place g records w)
    (hservers : ∀ place, Succession.Later (w.outside.succession place) (w'.outside.succession place))
    (hfetched : (w.outside.sessions i).fetched ⊆ (w'.outside.sessions i).fetched) :
    Taken i place g records w' := by
  obtain ⟨h, hrecords, hwithin⟩ := ht
  exact ⟨h, fun record hr => hfetched (hrecords record hr),
    hwithin.later (hservers place) fun _ _ _ heq => heq⟩

theorem Taken.stable (ht : Taken i place g records w) (hr : Rely strict i w w') :
    Taken i place g records w' :=
  ht.later hr.servers (by rw [hr.session]; exact List.Subset.refl _)

/-- Nothing was fetched. -/
theorem Taken.nil (hg : g ∈ (w.outside.succession place).past) : Taken i place g [] w :=
  ⟨g, fun _ hr => absurd hr List.not_mem_nil, hg, fun _ _ => rfl⟩

/-- While the generation is there, the records are its own. -/
theorem Taken.current (ht : Taken i place g records w)
    (hbox : (w.outside.folders place).box = some box) (hg : box.uidValidity = g) :
    ∀ record ∈ records, Fetched i w place g record := by
  obtain ⟨h, hrecords, hwithin⟩ := ht
  obtain rfl : h = g := hwithin.holds _ (by rw [current_of_box hbox, hg])
  exact hrecords

/-! ## Absent rows -/

/-- Rows of a folder generation that a listing of the UIDs up to a bound does not have. -/
def Absent (folderId : Uuid) (g bound : ℕ) (present : List ℕ) (ids : List Uuid) (w : SyncWorld) :
    Prop :=
  ∀ id ∈ ids, ∃ o ∈ w.store.messageOccurrences, o.id = id ∧ o.folderId = folderId ∧
    o.uidvalidity = g ∧ 1 ≤ o.uid ∧ o.uid ≤ bound ∧ o.uid ∉ present

variable {folderId : Uuid} {bound : ℕ} {present : List ℕ} {ids : List Uuid}

theorem Absent.onward (ha : Absent folderId g bound present ids w) (hw : Onward strict w w') :
    Absent folderId g bound present ids w' := by
  intro id hid
  obtain ⟨o, ho, rfl, hfolder, hgen, hpos, hbound, hnot⟩ := ha id hid
  obtain ⟨o', ho', hrow⟩ := hw.store.rows o ho
  exact ⟨o', ho', hrow.id, hrow.folderId.trans hfolder, hrow.uidvalidity.trans hgen,
    hrow.uid ▸ hpos, hrow.uid ▸ hbound, hrow.uid ▸ hnot⟩

/-- What a listing of the own generation does not have is gone. -/
theorem Absent.isGone {state : SelectedFolder} (ha : Absent folderId g bound present ids w)
    (hw : Coherent strict w) (hf : Loaded strict f w) (hid : f.id = folderId)
    (hlisted : Listed (placeOf f) g 1 bound { uid | uid ∈ present } w)
    (hsearched : 1 ≤ bound →
      (w.outside.sessions i).searched = some ⟨state, 1, bound, present⟩)
    (hstate : state.uidValidity = g) (hbound : bound < state.uidNext)
    {o : MessageOccurrence} (ho : o ∈ w.store.messageOccurrences) (hnamed : o.id ∈ ids) :
    IsGone i w o := by
  obtain ⟨o', ho', hsame, hfolder, rfl, hpos, hle, hnot⟩ := ha o.id hnamed
  obtain rfl := hw.filed.rows_unique o' ho' o ho hsame
  obtain ⟨f', hf', hrow⟩ := hf.later
  refine ⟨⟨f', hf', hrow.id.trans (hid.trans hfolder.symm), ?_⟩, ?_⟩
  · rw [hrow.place]
    exact Succession.Within.mono hlisted fun a ⟨_, hcovers⟩ hmem => hnot (hcovers _ hmem hpos hle)
  · exact ⟨_, hsearched (Nat.le_trans hpos hle), hstate, Nat.lt_of_le_of_lt hle hbound, hpos, hle,
      hnot⟩

/-! ## Generation changes -/

/-- A reported change of a folder leads forward, unless it is what a refused first contact of the
worker found. -/
def Justified (strict : Uuid → Prop) (i : ℕ) (folderId : Uuid) (recorded observed : ℕ)
    (w : SyncWorld) : Prop :=
  ∃ f ∈ w.store.folders, f.id = folderId ∧ observed ∈ (w.outside.succession (placeOf f)).past ∧
    (strict folderId → recorded = observed ∨ (w.outside.succession (placeOf f)).Older recorded observed ∨
      w.outside.refused i = some (folderId, recorded, observed))

/-- What an operation reports about the generation of a folder is justified. -/
def Reports (strict : Uuid → Prop) (i : ℕ) (folderId : Uuid) (change : Option (ℕ × ℕ))
    (w : SyncWorld) : Prop :=
  ∀ recorded observed, change = some (recorded, observed) →
    Justified strict i folderId recorded observed w

variable {recorded observed : ℕ} {change : Option (ℕ × ℕ)}

theorem Justified.onward (hj : Justified strict i folderId recorded observed w)
    (hw : Onward strict w w') (hrefused : w'.outside.refused i = w.outside.refused i) :
    Justified strict i folderId recorded observed w' := by
  obtain ⟨f, hf, hid, hmem, hlater⟩ := hj
  obtain ⟨f', hf', hrow⟩ := hw.store.folders f hf
  refine ⟨f', hf', hrow.id.trans hid, ?_, fun hs => ?_⟩
  · rw [hrow.place]
    exact (hw.servers _).past_extends.subset hmem
  · rw [hrow.place, hrefused]
    exact (hlater hs).imp_right fun h => h.imp_left fun hold => hold.later (hw.servers _)

theorem Reports.stable (hc : Reports strict i folderId change w) (hr : Rely strict i w w') :
    Reports strict i folderId change w' :=
  fun r o hro => (hc r o hro).onward hr.onward hr.refused

theorem Reports.none : Reports strict i folderId none w := fun _ _ h => by simp at h

/-- A change to a generation that came later. -/
theorem Loaded.justified (hf : Loaded strict f w)
    (hmem : observed ∈ (w.outside.succession (placeOf f)).past)
    (hlater : strict f.id → recorded = observed ∨
      (w.outside.succession (placeOf f)).Older recorded observed) :
    Justified strict i f.id recorded observed w := by
  obtain ⟨f', hf', hrow⟩ := hf.later
  refine ⟨f', hf', hrow.id, by rwa [hrow.place], fun hs => ?_⟩
  rw [hrow.place]
  exact (hlater hs).imp_right .inl

/-- A change that a selection told. -/
theorem Loaded.justified_of_box (hf : Loaded strict f w)
    (hbox : (w.outside.folders (placeOf f)).box = some box)
    (hmem : recorded ∈ (w.outside.succession (placeOf f)).past) :
    Justified strict i f.id recorded box.uidValidity w :=
  hf.justified (mem_past_of_box hbox) fun _ => eq_or_older_of_box hbox hmem

/-- A change that a later row of the folder tells. -/
theorem Loaded.justified_of_locked (hf : Loaded strict f w) (hw : Coherent strict w)
    (hl : locked ∈ w.store.folders) (hid : locked.id = f.id) (hg : f.uidvalidity = some g) :
    Justified strict i f.id g (locked.uidvalidity.getD g) w := by
  have hrow := hf.laterRow hl hid
  refine hf.justified ?_ fun hs => ?_
  · cases hgen : locked.uidvalidity with
    | none => exact hf.sound.known g hg
    | some g' =>
        have hknown := (hw.folders locked hl).known g' hgen
        rwa [hrow.place] at hknown
  · obtain ⟨g', hg', hstep⟩ := hrow.later hs g hg
    rw [hg', Option.getD_some]
    exact hstep.imp_left And.left

end MailHub.FolderSync
