import MailHub.Sync.Walks

/-!
# Polls, inventories and cycles

Polls and inventories keep the discipline, and with them a whole cycle of an account. The arrivals
of a poll are imported window by window; what is marked expunged was missing from a listing that
was made under the generation of the folder.
-/

namespace MailHub.FolderSync

open Relational Interleaving Ordering

variable {strict : Uuid → Prop} {s : SyncServices} {i : ℕ} {w w' : SyncWorld} {accountId folderId : Uuid}
  {f : Folder} {g : ℕ}

/-! ## Arrivals -/

theorem flatten_arrivalWindows (uids : List ℕ) :
    (arrivalWindows s uids).flatten = uids.insertionSort (· ≤ ·) := by
  unfold arrivalWindows
  have hflat := flatten_slices s.arrivalBatch_pos (uids.insertionSort (· ≤ ·))
  split
  next hnil =>
    rw [hnil] at hflat
    simpa using hflat
  next => exact hflat

/-- What is left of the windows, with what was imported, covers the arrival range. -/
structure Arriving (f : Folder) (g bound : ℕ) (windows : List (List ℕ)) (w : SyncWorld) :
    Prop where
  listed : Listed (placeOf f) g (f.arrivalScannedUid + 1) bound
    { uid | uid ∈ copies f.id g w.store ∨ uid ∈ windows.flatten } w
  sorted : windows.flatten.Pairwise (· ≤ ·)
  bounded : ∀ uid ∈ windows.flatten, uid ≤ bound

/-- A window with whatever it covers is copied once its records are. -/
theorem Arriving.narrow {window : List ℕ} {rest : List (List ℕ)} {bound : ℕ}
    {records : List MailboxHeaders} {db : Database} {w₂ : SyncWorld}
    (ha : Arriving f g bound (window :: rest) w)
    (hl : Listed (placeOf f) g (f.arrivalScannedUid + 1) bound
      { uid | uid ∈ { uid | uid ∈ copies f.id g w.store ∨ uid ∈ (window :: rest).flatten } ∧
        (uid ∈ window → ∃ m ∈ records, m.uid = uid) } w₂)
    (hrecords : ∀ record ∈ records, record.uid ∈ copies f.id g db)
    (hcopies : copies f.id g w.store ⊆ copies f.id g db) :
    Listed (placeOf f) g (f.arrivalScannedUid + 1)
      (if rest = [] then bound else window.getLast?.getD 0) (copies f.id g db) w₂ := by
  have hwindow : ∀ uid ∈ window, uid ≤ bound := fun uid hmem =>
    ha.bounded uid (by rw [List.flatten_cons]; exact List.mem_append_left _ hmem)
  refine hl.narrow ?_ fun uid hmem hlow hhigh => ?_
  · split
    · exact Nat.le_refl _
    · cases hlast : window.getLast? with
      | none => exact Nat.zero_le _
      | some last => exact hwindow last (List.mem_of_getLast? hlast)
  · obtain ⟨hcopied | hleft, hfetched⟩ := hmem
    · exact hcopies hcopied
    · have hin : uid ∈ window := by
        rw [List.flatten_cons, List.mem_append] at hleft
        rcases hleft with hin | hbehind
        · exact hin
        · have hrest : rest ≠ [] := by
            rintro rfl
            simp at hbehind
          rw [if_neg hrest] at hhigh
          cases hlast : window.getLast? with
          | none =>
              rw [hlast, Option.getD_none] at hhigh
              omega
          | some last =>
              -- what stands behind the window is not below its last UID
              have hne : window ≠ [] := by
                rintro rfl
                simp at hlast
              rw [hlast, Option.getD_some] at hhigh
              have hle := last_le_of_behind ha.sorted hbehind hne
              rw [List.getLast?_eq_some_getLast hne, Option.some.injEq] at hlast
              have heq : uid = last := by omega
              exact heq ▸ hlast ▸ List.getLast_mem hne
      obtain ⟨m, hm, rfl⟩ := hfetched hin
      exact hrecords m hm

theorem runs_importWindows {bound : ℕ} {windows : List (List ℕ)} {counts : ArrivalCounts}
    (hv : Visiting strict i f g w) (hid : f.id = folderId) (hopen : f.backfillBeforeUid.isSome)
    (ha : strict f.id → Arriving f g bound windows w) :
    Runs s strict i (importWindows s accountId folderId g bound windows counts) w
      fun outcome w' => Visiting strict i f g w' ∧ Reports strict i folderId outcome.change w' := by
  induction windows generalizing w counts with
  | nil => exact .value fun w' hr _ => ⟨hv.stable hr, .none⟩
  | cons window rest ih =>
      unfold importWindows
      refine .fetchHeaders hv fun w₁ records honward₁ _ hv₁ _ hfetch htaken => ?_
      refine .revalidate hv₁ fun w₂ honward₂ hw₂ hv₂ box hbox hsession => ?_
      have htaken₂ := htaken.later honward₂.servers (by rw [hsession]; exact List.Subset.refl _)
      dsimp only
      split
      next =>
        refine .value fun w' hr _ => ⟨hv₂.stable hr, Reports.stable ?_ hr⟩
        rintro _ _ ⟨⟩
        exact hid ▸ hv₂.loaded.justified_of_box hbox hv₂.known
      next hsame =>
        have hfetched := htaken₂.current hbox (not_not.mp hsame)
        have hlisted := fun hs => (hfetch _ _ _ (ha hs).listed).onward honward₂
        refine .unrecorded (by simp) fun w₃ hr₃ _ newIds => ?_
        refine .transaction fun w₄ hr₄ hw₄ _ result db' hrun => ?_
        have hr := hr₃.trans hr₄
        have hv₄ := hv₂.stable hr
        have honward₄ : Onward strict w w₄ := (honward₁.trans honward₂).trans hr.onward
        obtain ⟨hcommits, hpresent⟩ := commits_arrivals (i := i) (t := some (.arrivals folderId))
          hw₄ hv₄.loaded hid hv₄.generation hopen
          (fun hs db₂ hrecords hrows => hid ▸ (ha hs).narrow ((hlisted hs).onward hr.onward)
            (hid ▸ hrecords) ((copies_mono honward₄.store.rows).trans (copies_mono hrows)))
          (fun record hrecord => (hfetched record hrecord).stable hr) hrun
        refine ⟨hcommits, fun hw₅ => ?_⟩
        have hv₅ := hv₄.committed hcommits
        cases result with
        | none =>
            refine .loadFolder fun w₆ hr₆ hw₆ moved hmoved hmid _ => ?_
            have hv₆ := hv₅.stable hr₆
            refine .value fun w' hr' _ => ⟨hv₆.stable hr', Reports.stable ?_ hr'⟩
            rintro _ _ ⟨⟩
            exact hid ▸ hv₆.loaded.justified_of_locked hw₆ hmoved (hmid.trans hid.symm)
              hv₆.generation
        | some committed =>
            refine ih hv₅ fun hs => ?_
            have harriving := ha hs
            have hrecords : ∀ record ∈ records, record.uid ∈ copies f.id g db' :=
              hid ▸ hpresent.resolve_left (Option.some_ne_none _)
            have hcopies : copies f.id g w.store ⊆ copies f.id g db' :=
              (copies_mono honward₄.store.rows).trans (copies_mono hcommits.store.rows)
            refine ⟨?_, ?_, fun uid hmem => ?_⟩
            · refine (((hlisted hs).onward hr.onward).narrow (Nat.le_refl _) ?_).onward
                hcommits.onward
              rintro uid ⟨hold | hleft, hwindow⟩ - -
              · exact .inl (hcopies hold)
              · rw [List.flatten_cons, List.mem_append] at hleft
                rcases hleft with hin | hbehind
                · obtain ⟨m, hm, rfl⟩ := hwindow hin
                  exact .inl (hrecords m hm)
                · exact .inr hbehind
            · have hsorted := harriving.sorted
              rw [List.flatten_cons] at hsorted
              exact (List.pairwise_append.mp hsorted).2.1
            · refine harriving.bounded uid ?_
              rw [List.flatten_cons]
              exact List.mem_append_right _ hmem

theorem runs_importArrivals {uidNext : ℕ} (hv : Visiting strict i f g w) (hid : f.id = folderId)
    (hopen : f.backfillBeforeUid.isSome) (hpos : 0 < uidNext)
    (hgiven : (w.outside.succession (placeOf f)).Within g fun a => uidNext ≤ a.next) :
    Runs s strict i (importArrivals s accountId folderId g f uidNext) w
      fun outcome w' => Visiting strict i f g w' ∧ Reports strict i folderId outcome.change w' := by
  unfold importArrivals
  dsimp only
  split
  · exact .value fun w' hr _ => ⟨hv.stable hr, .none⟩
  · refine .searchUids hv fun w₁ uids _ _ hv₁ _ hbounded hlisted => ?_
    refine runs_importWindows hv₁ hid hopen fun _ => ⟨?_, ?_, fun uid hmem => ?_⟩
    · refine (hlisted (hgiven.mono fun a ha => by omega)).narrow (Nat.le_refl _) ?_
      intro uid hmem _ _
      refine .inr ?_
      rw [flatten_arrivalWindows]
      exact (List.mem_insertionSort _).mpr hmem
    · rw [flatten_arrivalWindows]
      exact List.pairwise_insertionSort _ _
    · rw [flatten_arrivalWindows] at hmem
      exact hbounded uid ((List.mem_insertionSort _).mp hmem)

/-! ## Expunges -/

/-- The rows of a page are rows of the folder generation. -/
theorem mem_rowsAbove {uidAfter : ℕ} {db : Database} {o : MessageOccurrence} :
    o ∈ rowsAbove accountId folderId g uidAfter db ↔ o ∈ db.messageOccurrences ∧
      o.accountId = accountId ∧ o.folderId = folderId ∧ o.uidvalidity = g ∧ uidAfter < o.uid := by
  simp [rowsAbove, List.mem_insertionSort, Table.mem_select, and_assoc]

/-- The rows that a listing does not have are absent. -/
theorem absent_absentRows {bound uidAfter : ℕ} {present : List ℕ} {page : List MessageOccurrence}
    (hpage : ∀ o ∈ page, o ∈ rowsAbove accountId folderId g uidAfter w.store) :
    Absent folderId g bound present (absentRows bound present page) w := by
  intro id hid
  obtain ⟨o, ho, rfl⟩ := List.mem_map.mp hid
  obtain ⟨hmem, hcheck⟩ := List.mem_filter.mp ho
  obtain ⟨hrow, -, hfolder, hgen, hpos⟩ := mem_rowsAbove.mp (hpage o hmem)
  have hcheck' : o.uid ≤ bound ∧ o.uid ∉ present := by simpa using hcheck
  exact ⟨o, hrow, rfl, hfolder, hgen, by omega, hcheck'⟩

theorem Absent.append {bound : ℕ} {present : List ℕ} {ids ids' : List Uuid}
    (h : Absent folderId g bound present ids w) (h' : Absent folderId g bound present ids' w) :
    Absent folderId g bound present (ids ++ ids') w := fun id hid =>
  (List.mem_append.mp hid).elim (h id) (h' id)

theorem runs_findAbsent {bound : ℕ} {present : List ℕ} {pages uidAfter : ℕ} :
    Runs s strict i (findAbsent s accountId folderId g bound present pages uidAfter) w
      fun ids w' => Rely strict i w w' ∧ Absent folderId g bound present ids w' := by
  induction pages generalizing w uidAfter with
  | zero => exact True.intro
  | succ pages ih =>
      unfold findAbsent
      refine .query fun w₁ hr₁ _ => ?_
      split
      · exact .value fun w' hr _ => ⟨hr₁.trans hr, fun id hid => absurd hid List.not_mem_nil⟩
      · refine .bind ih fun ids w₂ _ ⟨hr₂, hrest⟩ => ?_
        have hpage : Absent folderId g bound present
            (absentRows bound present (activePage s accountId folderId g uidAfter w₁.store)) w₁ :=
          absent_absentRows fun o ho => List.mem_of_mem_filter (List.mem_of_mem_take ho)
        exact .value fun w' hr _ => ⟨(hr₁.trans hr₂).trans hr,
          ((hpage.onward hr₂.onward).append hrest).onward hr.onward⟩

theorem runs_markExpunges (hv : Visiting strict i f g w) (hid : f.id = folderId) :
    Runs s strict i (markExpunges s accountId folderId g) w
      fun outcome w' => Visiting strict i f g w' ∧ Reports strict i folderId outcome.change w' := by
  unfold markExpunges
  refine .revalidate hv fun w₁ _ hw₁ hv₁ box hbox hsession => ?_
  have hgiven : (w₁.outside.succession (placeOf f)).Within g
      fun a => box.state.uidNext - 1 < a.next :=
    (given_of_box hbox hv₁.known).mono fun a ha => by
      have hpos : 0 < box.state.uidNext := box.uidNext_pos
      omega
  have hstate : (w₁.outside.succession (placeOf f)).Within g fun _ => box.state.uidValidity = g :=
    within_of_box hbox hv₁.known fun heq => heq.symm
  refine .snapshot hv₁ hw₁ hgiven fun w₂ present honward₂ hw₂ hv₂ hsearched hlisted => ?_
  rw [hsession] at hsearched
  refine .bind runs_findAbsent fun ids w₃ hw₃ ⟨hr₃, habsent⟩ => ?_
  have hv₃ := hv₂.stable hr₃
  split
  · exact .value fun w' hr _ => ⟨hv₃.stable hr, .none⟩
  · refine .revalidate hv₃ fun w₄ honward₄ hw₄ hv₄ box₄ hbox₄ hsession₄ => ?_
    split
    next =>
      refine .value fun w' hr _ => ⟨hv₄.stable hr, Reports.stable ?_ hr⟩
      rintro _ _ ⟨⟩
      exact hid ▸ hv₄.loaded.justified_of_box hbox₄ hv₄.known
    next hsame =>
      have hlater : Onward strict w₂ w₄ := hr₃.onward.trans honward₄
      -- the listing was made under the generation that is still there
      have hown : box.state.uidValidity = g :=
        (hstate.later ((honward₂.trans hlater).servers _) fun _ _ _ h => h).holds _
          (by rw [current_of_box hbox₄, ← not_not.mp hsame]; rfl)
      refine .unrecorded (by simp) fun w₅ hr₅ _ now => ?_
      refine .transaction fun w₆ hr₆ hw₆ _ marked db' hrun => ?_
      have hr := hr₅.trans hr₆
      have hv₆ := hv₄.stable hr
      have hsearched₆ : 1 ≤ box.state.uidNext - 1 → (w₆.outside.sessions i).searched =
          some ⟨box.state, 1, box.state.uidNext - 1, present⟩ := fun hpos => by
        rw [hr.session, hsession₄]
        exact (congrArg SyncSession.searched hr₃.session).trans (hsearched hpos)
      have hcommits : Commits s strict i (some (.expunges folderId)) w₆ db' :=
        commits_expunges hw₆ (fun o ho hnamed =>
          ((habsent.onward honward₄).onward hr.onward).isGone hw₆ hv₆.loaded hid
            ((hlisted.onward hlater).onward hr.onward) hsearched₆ hown
            (by have hpos : 0 < box.state.uidNext := box.uidNext_pos
                omega) ho hnamed) hrun
      refine ⟨hcommits, fun _ => ?_⟩
      have hv₇ := hv₆.committed hcommits
      cases marked with
      | none =>
          refine .value fun w' hr' _ => ⟨hv₇.stable hr', Reports.stable ?_ hr'⟩
          rintro _ _ ⟨⟩
          exact hid ▸ hv₇.loaded.justified hv₇.known fun _ => .inl rfl
      | some count => exact .value fun w' hr' _ => ⟨hv₇.stable hr', .none⟩

/-! ## Flags -/

theorem runs_refreshPages {pages uidAfter : ℕ} {counts : FlagCounts}
    (hv : Visiting strict i f g w) (hid : f.id = folderId) :
    Runs s strict i (refreshPages s accountId folderId g pages uidAfter counts) w
      fun outcome w' => Visiting strict i f g w' ∧ Reports strict i folderId outcome.change w' := by
  induction pages generalizing w uidAfter counts with
  | zero => exact True.intro
  | succ pages ih =>
      unfold refreshPages
      refine .query fun w₁ hr₁ _ => ?_
      have hv₁ := hv.stable hr₁
      split
      · exact .value fun w' hr _ => ⟨hv₁.stable hr, .none⟩
      · refine .unrecorded (by simp) fun w₂ hr₂ _ answers => ?_
        have hv₂ := hv₁.stable hr₂
        dsimp only
        split
        · exact ih hv₂
        · refine .revalidate hv₂ fun w₃ _ hw₃ hv₃ box hbox _ => ?_
          split
          next =>
            refine .value fun w' hr _ => ⟨hv₃.stable hr, Reports.stable ?_ hr⟩
            rintro _ _ ⟨⟩
            exact hid ▸ hv₃.loaded.justified_of_box hbox hv₃.known
          next =>
            refine .transaction fun w₄ hr₄ hw₄ _ written db' hrun => ?_
            have hcommits : Commits s strict i (some (.flags folderId)) w₄ db' :=
              commits_flags hw₄ hrun
            refine ⟨hcommits, fun _ => ?_⟩
            have hv₅ := (hv₃.stable hr₄).committed hcommits
            cases written with
            | none =>
                refine .value fun w' hr' _ => ⟨hv₅.stable hr', Reports.stable ?_ hr'⟩
                rintro _ _ ⟨⟩
                exact hid ▸ hv₅.loaded.justified hv₅.known fun _ => .inl rfl
            | some applied => exact ih hv₅

/-! ## One poll -/

theorem runs_pollGeneration {mailbox : SelectedFolder} (hv : Visiting strict i f g w)
    (hid : f.id = folderId) (hopen : f.backfillBeforeUid.isSome) (hpos : 0 < mailbox.uidNext)
    (hgiven : (w.outside.succession (placeOf f)).Within g fun a => mailbox.uidNext ≤ a.next) :
    Runs s strict i (pollGeneration s accountId folderId f mailbox g) w
      fun outcome w' => Reports strict i folderId outcome.change w' := by
  unfold pollGeneration
  refine .bind (runs_importArrivals hv hid hopen hpos hgiven) fun arrivals w₁ _ ⟨hv₁, hc₁⟩ => ?_
  cases arrivals with
  | generationChanged recorded observed => exact .reports hc₁ fun _ h => h
  | ok arrivals =>
      refine .bind (runs_markExpunges hv₁ hid) fun expunged w₂ _ ⟨hv₂, hc₂⟩ => ?_
      cases expunged with
      | generationChanged recorded observed => exact .reports hc₂ fun _ h => h
      | ok expunged =>
          refine .bind (runs_refreshPages hv₂ hid) fun flags w₃ _ ⟨hv₃, hc₃⟩ => ?_
          cases flags with
          | generationChanged recorded observed => exact .reports hc₃ fun _ h => h
          | ok flags =>
              refine .transaction fun w₄ _ hw₄ _ _ db' hrun => ⟨?_, fun _ => ?_⟩
              · obtain rfl : _ = db' := by simpa using hrun
                exact commits_same hw₄ rfl rfl
              · exact .reports .none fun _ h => h

theorem runs_pollFolder : Runs s strict i (pollFolder s accountId folderId) w
    fun outcome w' => Reports strict i folderId outcome.change w' := by
  unfold pollFolder
  refine .loadFolder fun w₁ _ hw₁ f hf hid haccount => ?_
  refine .select fun w₂ honward _ box hbox hfolder _ => ?_
  have hloaded : Loaded strict f w₂ := (hw₁.loaded hf).onward honward
  rw [← haccount] at hbox hfolder
  cases hgen : f.uidvalidity with
  | none => exact .reports .none fun _ h => h
  | some recorded =>
      have hv : Visiting strict i f recorded w₂ := ⟨hloaded, hgen, hfolder⟩
      dsimp only
      split
      next =>
        refine .value fun w' hr _ => Reports.stable ?_ hr
        rintro _ _ ⟨⟩
        exact hid ▸ hloaded.justified_of_box hbox hv.known
      next =>
        split
        · exact .reports .none fun _ h => h
        next hopen =>
          exact runs_pollGeneration hv hid (by simpa [Option.isSome_iff_ne_none] using hopen)
            box.uidNext_pos (given_of_box hbox hv.known)

/-! ## Inventories -/

theorem runs_scanRows {bound : ℕ} {present : List ℕ} {pages uidAfter : ℕ} :
    Runs s strict i (scanRows accountId folderId g bound present pages uidAfter) w
      fun scan w' => Rely strict i w w' ∧ Absent folderId g bound present scan.absentIds w' := by
  induction pages generalizing w uidAfter with
  | zero => exact True.intro
  | succ pages ih =>
      unfold scanRows
      refine .query fun w₁ hr₁ _ => ?_
      split
      · exact .value fun w' hr _ => ⟨hr₁.trans hr, fun id hid => absurd hid List.not_mem_nil⟩
      · refine .bind ih fun scan w₂ _ ⟨hr₂, hrest⟩ => ?_
        have hpage : Absent folderId g bound present (absentRows bound present
            ((rowPage accountId folderId g uidAfter w₁.store).filter (·.isActive))) w₁ :=
          absent_absentRows fun o ho => List.mem_of_mem_take (List.mem_of_mem_filter ho)
        exact .value fun w' hr _ => ⟨(hr₁.trans hr₂).trans hr,
          ((hpage.onward hr₂.onward).append hrest).onward hr.onward⟩

theorem runs_inventoryGeneration {mailbox : SelectedFolder} (hv : Visiting strict i f g w)
    (hw : Coherent strict w) (hid : f.id = folderId) (hown : mailbox.uidValidity = g)
    (hpos : 0 < mailbox.uidNext)
    (hselected : (w.outside.sessions i).selected = some mailbox)
    (hgiven : (w.outside.succession (placeOf f)).Within g fun a => mailbox.uidNext ≤ a.next) :
    Runs s strict i (inventoryGeneration s accountId folderId f mailbox g) w
      fun outcome w' => Reports strict i folderId outcome.change w' := by
  unfold inventoryGeneration
  refine .snapshot hv hw (hgiven.mono fun a ha => by omega)
    fun w₁ present _ _ hv₁ hsearched hlisted => ?_
  rw [hselected] at hsearched
  refine .bind runs_scanRows fun scan w₂ hw₂ ⟨hr₂, habsent⟩ => ?_
  have hv₂ := hv₁.stable hr₂
  dsimp only
  generalize hmissed : (present.filter fun uid =>
    uid ∉ scan.known ∧ coveredRange f uid).insertionSort (· ≥ ·) = missed
  refine .fetchUnlessEmpty hv₂ hw₂ fun w₃ records honward₃ _ hv₃ hsame₃ _ htaken => ?_
  refine .revalidate hv₃ fun w₄ honward₄ _ hv₄ box hbox hsession => ?_
  have htaken₄ := htaken.later honward₄.servers (by rw [hsession]; exact List.Subset.refl _)
  split
  next =>
    refine .value fun w' hr _ => Reports.stable ?_ hr
    rintro _ _ ⟨⟩
    exact hid ▸ hv₄.loaded.justified_of_box hbox hv₄.known
  next hsame =>
    have hfetched := htaken₄.current hbox (not_not.mp hsame)
    refine .unrecorded (by simp) fun w₅ hr₅ _ newIds => ?_
    refine .unrecorded (by simp) fun w₆ hr₆ _ now => ?_
    refine .transaction fun w₇ hr₇ hw₇ _ result db' hrun => ?_
    have hr := (hr₅.trans hr₆).trans hr₇
    have honward : Onward strict w₂ w₇ := (honward₃.trans honward₄).trans hr.onward
    have hv₇ := hv₄.stable hr
    have habsent₇ := habsent.onward honward
    have hsearched₇ : 1 ≤ mailbox.uidNext - 1 → (w₇.outside.sessions i).searched =
        some ⟨mailbox, 1, mailbox.uidNext - 1, present⟩ := fun hle => by
      rw [hr.session, hsession, hsame₃]
      exact (congrArg SyncSession.searched hr₂.session).trans (hsearched hle)
    have hcommits : Commits s strict i (some (.inventory folderId)) w₇ db' := by
      refine commits_inventory hw₇ (fun o ho hnamed => ?_) (fun id hnamed => ?_)
        (fun f' hf' hf'id record hrecord => ?_) hrun
      · exact habsent₇.isGone hw₇ hv₇.loaded hid
          ((hlisted.onward hr₂.onward).onward honward) hsearched₇ hown (by omega) ho hnamed
      · obtain ⟨o, ho, hoid, -⟩ := habsent₇ id hnamed
        exact ⟨o, ho, hoid⟩
      · rw [(hv₇.loaded.laterRow hf' (hf'id.trans hid.symm)).place]
        exact (hfetched record hrecord).stable hr
    refine ⟨hcommits, fun _ => ?_⟩
    have hv₈ := hv₇.committed hcommits
    cases result with
    | none =>
        refine .value fun w' hr' _ => Reports.stable ?_ hr'
        rintro _ _ ⟨⟩
        exact hid ▸ hv₈.loaded.justified hv₈.known fun _ => .inl rfl
    | some done => exact .reports .none fun _ h => h

theorem runs_inventoryFolder : Runs s strict i (inventoryFolder s accountId folderId) w
    fun outcome w' => Reports strict i folderId outcome.change w' := by
  unfold inventoryFolder
  refine .loadFolder fun w₁ _ hw₁ f hf hid haccount => ?_
  refine .select fun w₂ honward hw₂ box hbox hfolder hselected => ?_
  have hloaded : Loaded strict f w₂ := (hw₁.loaded hf).onward honward
  rw [← haccount] at hbox hfolder
  cases hgen : f.uidvalidity with
  | none => exact .reports .none fun _ h => h
  | some recorded =>
      have hv : Visiting strict i f recorded w₂ := ⟨hloaded, hgen, hfolder⟩
      dsimp only
      split
      next =>
        refine .value fun w' hr _ => Reports.stable ?_ hr
        rintro _ _ ⟨⟩
        exact hid ▸ hloaded.justified_of_box hbox hv.known
      next hsame =>
        split
        · exact .reports .none fun _ h => h
        next =>
          exact runs_inventoryGeneration hv hw₂ hid (not_not.mp hsame).symm box.uidNext_pos
            hselected (given_of_box hbox hv.known)

/-! ## Cycles -/

/-- A program that keeps the discipline. -/
abbrev Keeps (s : SyncServices) (strict : Uuid → Prop) (i : ℕ) {α : Type} (p : SyncProgram α)
    (w : SyncWorld) : Prop := Runs s strict i p w fun _ _ => True

theorem Runs.done {α : Type} {a : α} : Keeps s strict i (pure a) w :=
  .value fun _ _ _ => True.intro

theorem Runs.attempt {α : Type} {p : SyncProgram α} (hp : Keeps s strict i p w) :
    Keeps s strict i p.attempt w :=
  Safe.attempt (Safe.mono hp (fun _ _ _ _ _ _ _ => True.intro) fun _ _ _ _ _ _ _ => True.intro)

/-- A reported change is applied. -/
theorem keeps_applyReset {recorded observed : ℕ}
    (hj : Justified strict i folderId recorded observed w) :
    Keeps s strict i (applyReset accountId folderId recorded observed) w := by
  refine .unrecorded (by simp) fun w₁ hr₁ _ now => ?_
  refine .transaction fun w₂ hr₂ hw₂ hlate outcome db' hrun => ⟨?_, fun _ => .done⟩
  have hr := hr₁.trans hr₂
  exact commits_reset hw₂ (hj.onward hr.onward hr.refused) hlate hrun

theorem keeps_loadFolder : Keeps s strict i (loadFolder accountId folderId) w :=
  .last (.loadFolder fun _ _ _ _ _ _ _ => .done)

theorem keeps_backfillWithin {budget : ℕ} {current : Folder} :
    Keeps s strict i (backfillWithin s accountId folderId budget current) w := by
  induction budget generalizing w current with
  | zero => exact .done
  | succ budget ih =>
      unfold backfillWithin
      split
      · exact .done
      refine .unrecorded (by simp) fun w₁ _ _ stopped => ?_
      split
      · exact .done
      refine .bind runs_runBatch fun outcome w₂ _ hreports => ?_
      split
      next folderId' recorded observed =>
        exact .bind (keeps_applyReset (hreports recorded observed rfl)) fun _ w₃ _ _ =>
          .bind keeps_loadFolder fun _ _ _ _ => ih
      next =>
        split
        · exact .done
        · exact ih

theorem keeps_runResetBackfill {budget : ℕ} :
    Keeps s strict i (runResetBackfill s accountId folderId budget) w :=
  .bind keeps_loadFolder fun _ _ _ _ => .bind keeps_backfillWithin fun _ _ _ _ => keeps_loadFolder

theorem keeps_pollStage {budget : ℕ} {current : Folder} :
    Keeps s strict i (pollStage s accountId folderId budget current) w := by
  unfold pollStage
  refine .unrecorded (by simp) fun w₁ _ _ stopped => ?_
  split
  · exact .done
  split
  · exact .done
  refine .unrecorded (by simp) fun w₂ _ _ due => ?_
  split
  · exact .done
  refine .bind runs_pollFolder fun outcome w₃ _ hreports => ?_
  cases outcome with
  | generationChanged id recorded observed =>
      exact .bind (keeps_applyReset (hreports recorded observed rfl)) fun _ _ _ _ =>
        keeps_runResetBackfill
  | polled | uninitialized => exact .done

theorem keeps_inventoryStage {budget : ℕ} {current : Folder} :
    Keeps s strict i (inventoryStage s accountId folderId budget current) w := by
  unfold inventoryStage
  refine .unrecorded (by simp) fun w₁ _ _ stopped => ?_
  split
  · exact .done
  split
  · exact .done
  refine .unrecorded (by simp) fun w₂ _ _ due => ?_
  split
  · exact .done
  refine .bind runs_inventoryFolder fun outcome w₃ _ hreports => ?_
  cases outcome with
  | generationChanged id recorded observed =>
      exact .bind (keeps_applyReset (hreports recorded observed rfl)) fun _ _ _ _ =>
        .bind keeps_runResetBackfill fun _ _ _ _ => .done
  | inventoried | uninitialized => exact .done

theorem keeps_synchronizeFolder {folder : Folder} :
    Keeps s strict i (synchronizeFolder s accountId folderId folder) w :=
  .bind keeps_backfillWithin fun _ _ _ _ => .bind keeps_loadFolder fun _ _ _ _ =>
    .bind keeps_pollStage fun _ _ _ _ => keeps_inventoryStage

theorem keeps_synchronizeFolders :
    Keeps s strict i (synchronizeFolders s accountId) w := by
  unfold synchronizeFolders
  refine .query fun w₁ _ _ => ?_
  refine .bind (Safe.forIn (R := fun _ _ => True) (fun _ _ _ => True.intro)
    (fun _ _ _ _ _ _ => True.intro) fun folder _ _ w₂ _ _ => ?_) fun _ _ _ _ => .done
  refine Runs.unrecorded (by simp) fun w₃ _ _ stopped => ?_
  split
  · exact .done
  · exact .bind (keeps_synchronizeFolder.attempt) fun _ _ _ _ => .done

/-! ## All operations -/

/-- Every operation keeps the discipline. -/
theorem keeps_program (op : SyncOp) : Keeps s strict i ((syncSystem s).program op) w := by
  cases op with
  | runBatch accountId folderId => exact .bind runs_runBatch fun _ _ _ _ => .done
  | pollFolder accountId folderId => exact .bind runs_pollFolder fun _ _ _ _ => .done
  | inventoryFolder accountId folderId => exact .bind runs_inventoryFolder fun _ _ _ _ => .done
  | synchronizeFolders accountId => exact keeps_synchronizeFolders
  | elsewhere f hf =>
      refine .lastTransaction fun w' _ hw' _ a db' hrun => ⟨?_, fun _ _ _ => True.intro⟩
      obtain rfl : f w'.store = db' := by simpa using hrun
      exact commits_elsewhere hw' (hf _)

end MailHub.FolderSync
