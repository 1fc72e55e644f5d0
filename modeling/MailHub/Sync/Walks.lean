import MailHub.Sync.Advances

/-!
# Synchronization step by step

Each program of folder synchronization keeps the discipline: along its statements a worker collects
what it knows, and every commit is made under what the worker knows by then.
-/

namespace MailHub.FolderSync

open Relational Interleaving Ordering

variable {strict : Uuid → Prop} {s : SyncServices} {i : ℕ} {w w' : SyncWorld} {accountId folderId : Uuid}
  {f : Folder} {g : ℕ} {α β : Type} {Q : α → SyncWorld → Prop} {R : β → SyncWorld → Prop}

/-! ## Requests -/

/-- Worker `i` has selected the folder of a row that was read under the generation `g`. -/
structure Visiting (strict : Uuid → Prop) (i : ℕ) (f : Folder) (g : ℕ) (w : SyncWorld) : Prop where
  loaded : Loaded strict f w
  generation : f.uidvalidity = some g
  folder : (w.outside.sessions i).folder = some (placeOf f)

theorem Visiting.onward (hv : Visiting strict i f g w) (hw : Onward strict w w')
    (hfolder : (w'.outside.sessions i).folder = (w.outside.sessions i).folder) :
    Visiting strict i f g w' :=
  ⟨hv.loaded.onward hw, hv.generation, hfolder.trans hv.folder⟩

theorem Visiting.stable (hv : Visiting strict i f g w) (hr : Rely strict i w w') :
    Visiting strict i f g w' := hv.onward hr.onward (by rw [hr.session])

theorem Visiting.known (hv : Visiting strict i f g w) :
    g ∈ (w.outside.succession (placeOf f)).past := hv.loaded.sound.known g hv.generation

/-- A commit leaves the session alone. -/
theorem Visiting.committed {tag : Option SyncTag} {db' : Database}
    (hv : Visiting strict i f g w) (hc : Commits s strict i tag w db') :
    Visiting strict i f g (committed i tag w db') := hv.onward hc.onward rfl

/-- The clock, the process and the flags of messages tell nothing that a proof needs. -/
theorem Runs.unrecorded {c : SyncCall} {k : c.Answer → SyncProgram β}
    (hc : c = .now ∨ c = .generateIds ∨ c = .aborted ∨ (∃ id, c = .pollDue id) ∨
      (∃ id, c = .inventoryDue id) ∨ ∃ uids, c = .fetchFlags uids)
    (hk : ∀ w', Rely strict i w w' → Coherent strict w' → ∀ a, Runs s strict i (k a) w' R) :
    Runs s strict i (SyncProgram.ask c >>= k) w R := by
  refine .ask fun w' hr hw' a o' hrespond _ => ?_
  obtain rfl := respond_unrecorded hrespond hc
  exact hk w' hr hw' a

theorem Runs.select {account : Uuid} {name : String} {k : SelectedFolder → SyncProgram β}
    (hk : ∀ w', Onward strict w w' → Coherent strict w' → ∀ box,
      (w'.outside.folders (account, name)).box = some box →
      (w'.outside.sessions i).folder = some (account, name) →
      (w'.outside.sessions i).selected = some box.state →
        Runs s strict i (k box.state) w' R) :
    Runs s strict i (SyncProgram.select account name >>= k) w R := by
  refine .ask fun w' hr hw' a o' hrespond hw₂ => ?_
  obtain ⟨hsame, hsession, box, hbox, rfl⟩ := respondSelect_ok hrespond
  exact hk ⟨w'.store, o'⟩ (hr.onward.trans hsame.onward) hw₂ box (by rwa [hsame.folders])
    (by rw [hsession]) (by rw [hsession])

theorem Runs.revalidate {k : SelectedFolder → SyncProgram β} (hv : Visiting strict i f g w)
    (hk : ∀ w', Onward strict w w' → Coherent strict w' → Visiting strict i f g w' → ∀ box,
      (w'.outside.folders (placeOf f)).box = some box →
      w'.outside.sessions i = { w.outside.sessions i with selected := some box.state } →
        Runs s strict i (k box.state) w' R) :
    Runs s strict i (SyncProgram.revalidate >>= k) w R := by
  refine .ask fun w' hr hw' a o' hrespond hw₂ => ?_
  obtain ⟨place, hplace, hrespond⟩ := respond_revalidate hrespond
  obtain ⟨hsame, hsession, box, hbox, rfl⟩ := respondSelect_ok hrespond
  obtain rfl : placeOf f = place := Option.some.inj ((hv.stable hr).folder.symm.trans hplace)
  have hsession' : o'.sessions i = { w.outside.sessions i with selected := some box.state } := by
    rw [hsession, hr.session, ← hv.folder]
  exact hk ⟨w'.store, o'⟩ (hr.onward.trans hsame.onward) hw₂
    (hv.onward (hr.onward.trans hsame.onward) (by rw [hsession'])) box (by rwa [hsame.folders])
    hsession'

theorem Runs.searchUids {low high : ℕ} {k : List ℕ → SyncProgram β}
    (hv : Visiting strict i f g w)
    (hk : ∀ w' uids, Onward strict w w' → Coherent strict w' → Visiting strict i f g w' →
      w'.outside.sessions i = { w.outside.sessions i with
        searched := (w.outside.sessions i).selected.map (⟨·, low, high, uids⟩) } →
      (∀ uid ∈ uids, uid ≤ high) →
      ((w.outside.succession (placeOf f)).Within g (fun a => high < a.next) →
        Listed (placeOf f) g low high { uid | uid ∈ uids } w') →
        Runs s strict i (k uids) w' R) :
    Runs s strict i (SyncProgram.searchUids low high >>= k) w R := by
  refine .ask fun w' hr hw' uids o' hrespond hw₂ => ?_
  obtain ⟨hsame, hsession, place, box, hplace, hbox, hanswer⟩ := respond_searchUids hrespond
  obtain rfl : placeOf f = place := Option.some.inj ((hv.stable hr).folder.symm.trans hplace)
  have honward : Onward strict w ⟨w'.store, o'⟩ := hr.onward.trans hsame.onward
  rw [hr.session] at hsession
  refine hk ⟨w'.store, o'⟩ uids honward hw₂ (hv.onward honward (by rw [hsession])) hsession
    (fun uid hmem => ((hanswer uid).mp hmem).2.2) fun hgiven => ?_
  refine listed_of_search (by rwa [hsame.folders]) ?_ hanswer
  exact hgiven.later (honward.servers _) fun _ _ hlater hlt =>
    Nat.lt_of_lt_of_le hlt hlater.next_le

theorem Runs.fetchHeaders {asked : List ℕ} {k : List MailboxHeaders → SyncProgram β}
    (hv : Visiting strict i f g w)
    (hk : ∀ w' records, Onward strict w w' → Coherent strict w' → Visiting strict i f g w' →
      (w'.outside.sessions i).searched = (w.outside.sessions i).searched →
      (∀ low high uids, Listed (placeOf f) g low high uids w → Listed (placeOf f) g low high
        { uid | uid ∈ uids ∧ (uid ∈ asked → ∃ m ∈ records, m.uid = uid) } w') →
      Taken i (placeOf f) g records w' → Runs s strict i (k records) w' R) :
    Runs s strict i (SyncProgram.fetchHeaders asked >>= k) w R := by
  refine .ask fun w' hr hw' records o' hrespond hw₂ => ?_
  obtain ⟨hsame, place, box, hplace, hbox, hanswer, hsession⟩ := respond_fetchHeaders hrespond
  obtain rfl : placeOf f = place := Option.some.inj ((hv.stable hr).folder.symm.trans hplace)
  have honward : Onward strict w ⟨w'.store, o'⟩ := hr.onward.trans hsame.onward
  rw [hr.session] at hsession
  have hbox' : (o'.folders (placeOf f)).box = some box := by rwa [hsame.folders]
  have hv' : Visiting strict i f g ⟨w'.store, o'⟩ := hv.onward honward (by rw [hsession])
  refine hk ⟨w'.store, o'⟩ records honward hw₂ hv' (by rw [hsession])
    (fun low high uids hl => (hl.onward honward).fetched hbox' hanswer)
    ⟨box.uidValidity, fun record hrecord => ?_, within_of_box hbox' hv'.known fun hg => hg.symm⟩
  change (placeOf f, box.uidValidity, record) ∈ (o'.sessions i).fetched
  rw [hsession]
  exact List.mem_append_right _ (List.mem_map.mpr ⟨record, hrecord, rfl⟩)

/-- A fetch is skipped when there is nothing to ask for. -/
theorem Runs.fetchUnlessEmpty {asked : List ℕ} {k : List MailboxHeaders → SyncProgram β}
    (hv : Visiting strict i f g w) (hw : Coherent strict w)
    (hk : ∀ w' records, Onward strict w w' → Coherent strict w' → Visiting strict i f g w' →
      (w'.outside.sessions i).searched = (w.outside.sessions i).searched →
      (∀ low high uids, Listed (placeOf f) g low high uids w → Listed (placeOf f) g low high
        { uid | uid ∈ uids ∧ (uid ∈ asked → ∃ m ∈ records, m.uid = uid) } w') →
      Taken i (placeOf f) g records w' → Runs s strict i (k records) w' R) :
    Runs s strict i
      (if asked = [] then pure [] >>= k else SyncProgram.fetchHeaders asked >>= k) w R := by
  split
  next hempty =>
    refine hk w [] (.refl w) hw hv rfl (fun low high uids hl => ?_) (.nil hv.known)
    exact hl.narrow (Nat.le_refl _) fun uid hmem _ _ => ⟨hmem, fun hasked => by simp [hempty] at hasked⟩
  next => exact .fetchHeaders hv hk

/-- The whole range of given UIDs is listed. -/
theorem Runs.snapshot {bound : ℕ} {k : List ℕ → SyncProgram β} (hv : Visiting strict i f g w)
    (hw : Coherent strict w)
    (hgiven : (w.outside.succession (placeOf f)).Within g fun a => bound < a.next)
    (hk : ∀ w' present, Onward strict w w' → Coherent strict w' → Visiting strict i f g w' →
      (1 ≤ bound → (w'.outside.sessions i).searched =
        (w.outside.sessions i).selected.map (⟨·, 1, bound, present⟩)) →
      Listed (placeOf f) g 1 bound { uid | uid ∈ present } w' →
        Runs s strict i (k present) w' R) :
    Runs s strict i
      (if bound ≥ 1 then SyncProgram.searchUids 1 bound >>= k else pure [] >>= k) w R := by
  split
  next =>
    refine .searchUids hv fun w' uids honward hw' hv' hsession _ hlisted => ?_
    exact hk w' uids honward hw' hv' (fun _ => by rw [hsession]) (hlisted hgiven)
  next hzero =>
    refine hk w [] (.refl w) hw hv (fun hpos => absurd hpos hzero) ?_
    exact Succession.Within.mono hgiven fun a hlt =>
      ⟨hlt, Numbered.covers_of_lt (Nat.lt_of_not_ge hzero)⟩

/-- A row that is loaded is a row of the folder at that moment. -/
theorem Runs.loadFolder {k : Folder → SyncProgram β}
    (hk : ∀ w', Rely strict i w w' → Coherent strict w' → ∀ f ∈ w'.store.folders,
      f.id = folderId → f.accountId = accountId → Runs s strict i (k f) w' R) :
    Runs s strict i (FolderSync.loadFolder accountId folderId >>= k) w R := by
  refine .assoc (.query fun w' hr hw' => ?_)
  cases hrow : findFolder accountId folderId w'.store with
  | none => exact .fails _
  | some row =>
      obtain ⟨hmem, hid, haccount⟩ := findFolder_eq_some.mp hrow
      exact hk w' hr hw' row hmem hid haccount

/-- A transaction that comes last. -/
theorem Runs.lastTransaction {tag : Option SyncTag} {t : Tx α}
    (hk : ∀ w', Rely strict i w w' → Coherent strict w' →
      Timely strict i w' tag → ∀ a db', t.run w'.store = .ok (a, db') →
        Commits s strict i tag w' db' ∧
          ∀ w₂, Rely strict i (committed i tag w' db') w₂ → Coherent strict w₂ → Q a w₂) :
    Runs s strict i (Program.transaction tag t) w Q :=
  .last (.transaction fun w' hr hw' hlate a db' hrun =>
    (hk w' hr hw' hlate a db' hrun).imp_right fun hQ _ => .value hQ)

/-- What a program reports is still justified later on. -/
theorem Runs.reports {a : α} {change : Option (ℕ × ℕ)} (hc : Reports strict i folderId change w)
    (hQ : ∀ w', Reports strict i folderId change w' → Q a w') :
    Runs s strict i (pure a) w Q :=
  .value fun w' hr _ => hQ w' (hc.stable hr)

/-! ## Backfill -/

theorem toInitialized_ok {effective : InitializedFolder}
    (h : toInitialized f = .ok effective) :
    f.uidvalidity = some effective.uidvalidity ∧
      f.backfillBeforeUid = some effective.backfillBeforeUid := by
  unfold toInitialized at h
  split at h
  next uidvalidity upper before hgen hupper hbefore =>
    obtain rfl := Except.ok.inj h
    exact ⟨hgen, hbefore⟩
  next => simp at h

/-- An observed change is recorded and reported. -/
theorem runs_generationChanged {recorded observed : ℕ}
    (hj : Justified strict i folderId recorded observed w) :
    Runs s strict i (SyncProgram.commit (.event folderId)
      (generationChanged folderId recorded observed)) w
      fun outcome w' => Reports strict i folderId outcome.change w' := by
  refine .lastTransaction fun w' hr hw' _ outcome db' hrun => ?_
  obtain ⟨rfl, hfolders, hrows⟩ := generationChanged_ok hrun
  have hcommits : Commits s strict i (some (.event folderId)) w' db' :=
    commits_same hw' hfolders hrows
  refine ⟨hcommits, fun w₂ hr₂ _ => ?_⟩
  rintro _ _ ⟨⟩
  have hj' := (hj.onward hr.onward hr.refused).onward hcommits.onward rfl
  exact hj'.onward hr₂.onward hr₂.refused

theorem runs_scanWindow {mailbox : SelectedFolder} {effective : InitializedFolder}
    (hv : Visiting strict i f mailbox.uidValidity w) (hid : f.id = folderId)
    (heffective : toInitialized f = .ok effective) :
    Runs s strict i (scanWindow s accountId folderId mailbox effective) w
      fun outcome w' => Reports strict i folderId outcome.change w' := by
  obtain ⟨-, hbefore⟩ := toInitialized_ok heffective
  unfold scanWindow
  split
  · exact .reports .none fun _ h => h
  dsimp only
  split
  next hlow =>
    refine .transaction fun w₁ hr₁ hw₁ _ _ db' hrun => ⟨?_, fun _ => .reports .none fun _ h => h⟩
    have hv₁ := hv.stable hr₁
    exact commits_closeOut hw₁ hv₁.loaded hid hv₁.generation hbefore (by omega) hrun
  next hlow =>
    generalize max 1 (effective.backfillBeforeUid - 1 + 1 - s.windowSize) = low
    have hhigh : effective.backfillBeforeUid - 1 + 1 = effective.backfillBeforeUid := by omega
    generalize effective.backfillBeforeUid - 1 = high at hhigh ⊢
    have hgiven : strict f.id → (w.outside.succession (placeOf f)).Within mailbox.uidValidity
        fun a => high < a.next := by
      intro hs
      refine (hv.loaded.sound.covered hs _ _ hv.generation hbefore).mono fun a ha => ?_
      omega
    refine .searchUids hv fun w₁ uids _ hw₁ hv₁ _ _ hlisted => ?_
    refine .fetchUnlessEmpty hv₁ hw₁ fun w₂ records _ hw₂ hv₂ _ hfetch htaken => ?_
    refine .revalidate hv₂ fun w₃ honward₃ hw₃ hv₃ box hbox hsession => ?_
    have hlisted₃ : strict f.id → Listed (placeOf f) mailbox.uidValidity low high
        { uid | ∃ m ∈ records, m.uid = uid } w₃ := by
      intro hs
      refine ((hfetch _ _ _ (hlisted (hgiven hs))).narrow (Nat.le_refl _) ?_).onward honward₃
      exact fun uid hmem _ _ => hmem.2 (by simpa using hmem.1)
    have htaken₃ := htaken.later honward₃.servers (by rw [hsession]; exact List.Subset.refl _)
    split
    next => exact runs_generationChanged (hid ▸ hv₃.loaded.justified_of_box hbox hv₃.known)
    next hsame =>
      have hfetched := htaken₃.current hbox (not_not.mp hsame)
      refine .unrecorded (by simp) fun w₄ hr₄ _ newIds => ?_
      refine .lastTransaction fun w₅ hr₅ hw₅ _ outcome db' hrun => ?_
      have hr := hr₄.trans hr₅
      have hv₅ := hv₃.stable hr
      obtain ⟨hcommits, hreports⟩ := commits_window (i := i) (t := some (.window folderId)) hw₅
        hv₅.loaded hid hv₅.generation hbefore hhigh
        (fun hs => (hlisted₃ hs).onward hr.onward)
        (fun record hrecord => (hfetched record hrecord).stable hr) hrun
      refine ⟨hcommits, fun w₆ hr₆ _ => Reports.stable (fun r o hro => ?_) hr₆⟩
      exact (hreports r o hro).onward hcommits.onward rfl

theorem runs_runBatch : Runs s strict i (runBatch s accountId folderId) w
    fun outcome w' => Reports strict i folderId outcome.change w' := by
  unfold runBatch
  refine .loadFolder fun w₁ _ hw₁ f hf hid haccount => ?_
  refine .select fun w₂ honward hw₂ box hbox hfolder hselected => ?_
  have hloaded : Loaded strict f w₂ := (hw₁.loaded hf).onward honward
  rw [← haccount] at hbox hfolder
  change (w₂.outside.folders (placeOf f)).box = some box at hbox
  have hvisit : ∀ g, f.uidvalidity = some g → Visiting strict i f g w₂ :=
    fun g hg => ⟨hloaded, hg, hfolder⟩
  cases hheld : f.uidvalidity.filter (· ≠ box.state.uidValidity) with
  | some recorded =>
      obtain ⟨hrecorded, -⟩ := Option.filter_eq_some_iff.mp hheld
      exact runs_generationChanged
        (hid ▸ hloaded.justified_of_box hbox (hvisit recorded hrecorded).known)
  | none =>
      have hsame : ∀ g, f.uidvalidity = some g → g = box.state.uidValidity := fun g hg => by
        have hcheck := Option.filter_eq_none_iff.mp hheld g hg
        simpa using hcheck
      dsimp only
      split
      · exact .reports .none fun _ h => h
      split
      next =>
        refine .transaction fun w₃ hr₃ hw₃ _ result db' hrun => ?_
        have hloaded₃ := hloaded.onward hr₃.onward
        have hgiven := (given_of_box hbox (mem_past_of_box hbox)).later (hr₃.servers _)
          fun _ _ hlater hle => Nat.le_trans hle hlater.next_le
        obtain ⟨hcommits, hcases⟩ := commits_initialize (s := s) (i := i) hw₃ hloaded₃
          box.uidNext_pos hgiven (by rwa [hr₃.session]) (by rwa [hr₃.session]) hrun
        rw [hid] at hcommits hcases
        refine ⟨hcommits, fun hw₄ => ?_⟩
        rcases hcases with ⟨held, rfl, hj⟩ | ⟨effective, rfl⟩ |
          ⟨locked, hlocked, hlid, hplace, hgen, rfl, effective, hok, rfl⟩
        · exact runs_generationChanged hj
        · exact .reports .none fun _ h => h
        · refine runs_scanWindow (f := locked) ⟨hw₄.loaded hlocked, hgen, ?_⟩ hlid hok
          rw [hplace]
          exact (congrArg SyncSession.folder hr₃.session).trans hfolder
      next hdone =>
        cases hok : toInitialized f with
        | error e => exact .fails _
        | ok effective =>
            obtain ⟨hgen, -⟩ := toInitialized_ok hok
            have hgen' : f.uidvalidity = some box.state.uidValidity := by rw [hgen, hsame _ hgen]
            exact runs_scanWindow (hvisit _ hgen') hid hok

end MailHub.FolderSync
