import MailHub.Sync.Commits

/-!
# Rely and guarantee of synchronization

What every commit of a worker accounts for: new active occurrences come from header records that
the worker fetched under the generation of the folder, and whatever it marks expunged is gone from
the server. The rules at the end say what a worker knows after a request or a commit.
-/

namespace MailHub.FolderSync

open Relational Interleaving Ordering

/-! ## What a commit accounts for -/

/-- Worker `i` fetched a record from the mailbox of a generation at a place. -/
def Fetched (i : ℕ) (w : SyncWorld) (place : Place) (g : ℕ) (record : MailboxHeaders) : Prop :=
  (place, g, record) ∈ (w.outside.sessions i).fetched

/-- The server does not have the message of an occurrence, and the last search of worker `i` did
not list it although its UID had been given when the worker selected the folder before. -/
structure IsGone (i : ℕ) (w : SyncWorld) (o : MessageOccurrence) : Prop where
  absent : ∃ f ∈ w.store.folders, f.id = o.folderId ∧
    (w.outside.succession (placeOf f)).Within o.uidvalidity fun a => o.uid ∉ a.present
  unlisted : ∃ snapshot, (w.outside.sessions i).searched = some snapshot ∧
    snapshot.selected.uidValidity = o.uidvalidity ∧ o.uid < snapshot.selected.uidNext ∧
      snapshot.low ≤ o.uid ∧ o.uid ≤ snapshot.high ∧ o.uid ∉ snapshot.uids

/-- The scanned range of a folder starts below what worker `i` was told at its last selection. -/
def IsContacted (i : ℕ) (w : SyncWorld) (f f' : Folder) : Prop :=
  (w.outside.sessions i).folder = some (placeOf f) ∧
    ∃ selected, (w.outside.sessions i).selected = some selected ∧
      f'.uidvalidity = some selected.uidValidity ∧ selected.uidNext ≤ f'.arrivalScannedUid + 1

/-- What worker `i` accounts for when it commits between two worlds. -/
structure Accounted (s : SyncServices) (strict : Uuid → Prop) (i : ℕ) (tag : Option SyncTag)
    (w w' : SyncWorld) : Prop where
  imported : ∀ o' ∈ w'.store.messageOccurrences, o'.isActive = true →
    (∃ o ∈ w.store.messageOccurrences, RowLater o o' ∧ o.isActive = true) ∨
      ∃ f ∈ w.store.folders, f.uidvalidity = some o'.uidvalidity ∧
        ∃ record, Fetched i w (placeOf f) o'.uidvalidity record ∧
          MadeFrom s f.accountId f.id o'.uidvalidity w'.store record o'
  expunged : tag.isSome → ∀ o ∈ w.store.messageOccurrences,
    ∀ o' ∈ w'.store.messageOccurrences, RowLater o o' → o.expungedAt = none →
      o'.expungedAt ≠ none → IsGone i w o
  /-- A row is invalidated when its folder leaves its generation. -/
  invalidated : ∀ o ∈ w.store.messageOccurrences, ∀ o' ∈ w'.store.messageOccurrences,
    RowLater o o' → o.invalidatedAt = none → o'.invalidatedAt ≠ none →
      generationOf o.folderId w'.store ≠ some o.uidvalidity
  contacted : ∀ f ∈ w.store.folders, ∀ f' ∈ w'.store.folders, f'.id = f.id → strict f.id →
    f.backfillBeforeUid = none → f'.backfillBeforeUid ≠ none → IsContacted i w f f'

/-- A reset that follows a refused first contact finds the folder at the generation that its
worker had selected. -/
def isLate (i : ℕ) (w : SyncWorld) : Option SyncTag → Bool
  | some (.reset folderId recorded observed) =>
      w.outside.refused i == some (folderId, recorded, observed) &&
        generationOf folderId w.store == some recorded
  | _ => false

/-- No reset is late. -/
def timely : Policy syncSignature MailServers where
  commit i tag w _ := isLate i w tag = false
  call _ _ _ _ := True

/-! ## Requests -/

/-- What any request of worker `i` leaves alone. -/
structure SameServers (i : ℕ) (o o' : MailServers) : Prop where
  folders : o'.folders = o.folders
  left : o'.left = o.left
  refused : o'.refused = o.refused
  others : ∀ j, j ≠ i → o'.sessions j = o.sessions j

variable {i : ℕ} {o o' : MailServers}

theorem SameServers.refl (i : ℕ) (o : MailServers) : SameServers i o o :=
  ⟨rfl, rfl, rfl, fun _ _ => rfl⟩

theorem sameServers_withSession (session : SyncSession) :
    SameServers i o (o.withSession i session) :=
  ⟨rfl, rfl, rfl, fun j hj => by simp [MailServers.withSession, hj]⟩

@[simp] theorem sessions_withSession (session : SyncSession) :
    (o.withSession i session).sessions i = session := by
  simp [MailServers.withSession]

theorem SameServers.succession (h : SameServers i o o') (place : Place) :
    o'.succession place = o.succession place := by
  unfold MailServers.succession
  rw [h.folders]

/-- A selection reports the mailbox of the place. -/
theorem respondSelect_ok {place : Place} {state : SelectedFolder}
    (h : o.respondSelect i place state = some o') :
    SameServers i o o' ∧
      o'.sessions i = { o.sessions i with folder := some place, selected := some state } ∧
      ∃ box, (o.folders place).box = some box ∧ state = box.state := by
  unfold MailServers.respondSelect at h
  split at h
  next box hbox =>
    split at h
    next hstate =>
      obtain rfl := Option.some.inj h
      exact ⟨sameServers_withSession _, sessions_withSession _, box, hbox, hstate⟩
    next => simp at h
  next => simp at h

/-- A worker reads the mailbox that has the selected name. -/
theorem selectedBox_eq_some {place : Place} {box : Mailbox} :
    o.selectedBox i = some (place, box) ↔
      (o.sessions i).folder = some place ∧ (o.folders place).box = some box := by
  unfold MailServers.selectedBox
  simp only [Option.bind_eq_bind, Option.bind_eq_some_iff, Option.pure_def, Option.some.injEq,
    Prod.mk.injEq]
  constructor
  · rintro ⟨p, hp, b, hb, rfl, rfl⟩
    exact ⟨hp, hb⟩
  · rintro ⟨hp, hb⟩
    exact ⟨place, hp, box, hb, rfl, rfl⟩

theorem respond_revalidate {state : SelectedFolder}
    (h : o.respond i .revalidate (.ok state) = some o') :
    ∃ place, (o.sessions i).folder = some place ∧ o.respondSelect i place state = some o' :=
  Option.bind_eq_some_iff.mp h

/-- A search lists exactly what the mailbox has in the range. -/
theorem respond_searchUids {low high : ℕ} {uids : List ℕ}
    (h : o.respond i (.searchUids low high) (.ok uids) = some o') :
    SameServers i o o' ∧ o'.sessions i = { o.sessions i with
        searched := (o.sessions i).selected.map (⟨·, low, high, uids⟩) } ∧
      ∃ place box, (o.sessions i).folder = some place ∧ (o.folders place).box = some box ∧
        ∀ uid, uid ∈ uids ↔ uid ∈ box.numbered.present ∧ low ≤ uid ∧ uid ≤ high := by
  obtain ⟨⟨place, box⟩, hbox, h⟩ := Option.bind_eq_some_iff.mp h
  obtain ⟨hfolder, hbox⟩ := selectedBox_eq_some.mp hbox
  dsimp only at h
  split at h
  next hperm =>
    obtain rfl := Option.some.inj h
    exact ⟨sameServers_withSession _, sessions_withSession _, place, box, hfolder, hbox,
      fun uid => hperm.mem_iff.trans Mailbox.mem_uidsBetween⟩
  next => simp at h

/-- A header fetch answers every requested message that is still there. -/
theorem respond_fetchHeaders {uids : List ℕ} {records : List MailboxHeaders}
    (h : o.respond i (.fetchHeaders uids) (.ok records) = some o') :
    SameServers i o o' ∧
      ∃ place box, (o.sessions i).folder = some place ∧ (o.folders place).box = some box ∧
        (∀ m, m ∈ records ↔ m ∈ box.messages ∧ m.uid ∈ uids) ∧
        o'.sessions i = { o.sessions i with
          fetched := (o.sessions i).fetched ++
            records.map fun record => (place, box.uidValidity, record) } := by
  obtain ⟨⟨place, box⟩, hbox, h⟩ := Option.bind_eq_some_iff.mp h
  obtain ⟨hfolder, hbox⟩ := selectedBox_eq_some.mp hbox
  dsimp only at h
  split at h
  next hperm =>
    obtain rfl := Option.some.inj h
    exact ⟨sameServers_withSession _, place, box, hfolder, hbox,
      fun m => hperm.mem_iff.trans Mailbox.mem_withUids, sessions_withSession _⟩
  next => simp at h

/-- The answers that are not recorded. -/
theorem respond_unrecorded {c : SyncCall} {r : Except Failure c.Answer}
    (h : o.respond i c r = some o')
    (hc : c = .now ∨ c = .generateIds ∨ c = .aborted ∨ (∃ id, c = .pollDue id) ∨
      (∃ id, c = .inventoryDue id) ∨ ∃ uids, c = .fetchFlags uids) : o' = o := by
  rcases hc with rfl | rfl | rfl | ⟨id, rfl⟩ | ⟨id, rfl⟩ | ⟨uids, rfl⟩
  · exact (Option.some.inj h).symm
  · exact (Option.some.inj h).symm
  · exact (Option.some.inj h).symm
  · exact (Option.some.inj h).symm
  · exact (Option.some.inj h).symm
  · cases r with
    | error e => exact (Option.some.inj h).symm
    | ok a =>
        obtain ⟨⟨place, box⟩, -, h⟩ := Option.bind_eq_some_iff.mp h
        dsimp only at h
        split at h
        · exact (Option.some.inj h).symm
        · simp at h

/-- Whatever a request is answered, only the session of its worker changes. -/
theorem sameServers_respond {c : SyncCall} {r : Except Failure c.Answer}
    (h : o.respond i c r = some o') : SameServers i o o' := by
  cases r with
  | error e =>
      obtain rfl : o = o' := by
        cases c <;> exact Option.some.inj h
      exact .refl i o
  | ok a =>
      cases c with
      | select accountId folder => exact (respondSelect_ok h).1
      | revalidate =>
          obtain ⟨place, -, h⟩ := respond_revalidate h
          exact (respondSelect_ok h).1
      | searchUids low high => exact (respond_searchUids h).1
      | fetchHeaders uids => exact (respond_fetchHeaders h).1
      | now | generateIds | aborted | pollDue id | inventoryDue id | fetchFlags uids =>
          obtain rfl := respond_unrecorded h (by simp)
          exact .refl i o'

/-! ## The world later on -/

variable {strict : Uuid → Prop} {w w' w₂ : SyncWorld} {f : Folder} {place : Place} {g : ℕ}

/-- What every worker sees of the world, later on. -/
structure Onward (strict : Uuid → Prop) (w w' : SyncWorld) : Prop where
  servers : ∀ place, Succession.Later (w.outside.succession place) (w'.outside.succession place)
  store : StoreLater strict w'.outside w.store w'.store

theorem Onward.refl (w : SyncWorld) : Onward strict w w := ⟨fun _ => .refl _, .refl⟩

theorem Onward.trans (h₁ : Onward strict w w') (h₂ : Onward strict w' w₂) : Onward strict w w₂ :=
  ⟨fun place => (h₁.servers place).trans (h₂.servers place), h₁.store.trans h₂.store h₂.servers⟩

theorem Rely.onward (h : Rely strict i w w') : Onward strict w w' := ⟨h.servers, h.store⟩

/-- A request changes nothing but a session. -/
theorem SameServers.servers (h : SameServers i o o') (place : Place) :
    Succession.Later (o.succession place) (o'.succession place) := by
  rw [h.succession place]
  exact .refl _

theorem SameServers.onward (h : SameServers i w.outside o') : Onward strict w ⟨w.store, o'⟩ :=
  ⟨h.servers, .refl⟩

theorem SameServers.coherent (h : SameServers i w.outside o') (hw : Coherent strict w) :
    Coherent strict ⟨w.store, o'⟩ := hw.servers h.servers h.left

theorem SameServers.rely (h : SameServers i w.outside o') {j : ℕ} (hj : j ≠ i) :
    Rely strict j w ⟨w.store, o'⟩ :=
  ⟨h.servers, h.others j hj, by rw [h.refused], .refl⟩

/-- The world after a commit of worker `i`. -/
abbrev committed (i : ℕ) (tag : Option SyncTag) (w : SyncWorld) (db' : Database) : SyncWorld :=
  ⟨db', w.outside.observe i tag w.store db'⟩

/-- What a commit of worker `i` keeps. -/
structure Commits (s : SyncServices) (strict : Uuid → Prop) (i : ℕ) (tag : Option SyncTag)
    (w : SyncWorld) (db' : Database) : Prop where
  store : StoreLater strict w.outside w.store db'
  coherent : Coherent strict (committed i tag w db')
  accounted : Accounted s strict i tag w (committed i tag w db')

variable {s : SyncServices} {tag : Option SyncTag} {db' : Database}

theorem Commits.onward (h : Commits s strict i tag w db') :
    Onward strict w (committed i tag w db') :=
  ⟨fun _ => .refl _, h.store.trans .refl fun _ => .refl _⟩

theorem Commits.rely (h : Commits s strict i tag w db') {j : ℕ} (hj : j ≠ i) :
    Rely strict j w (committed i tag w db') := by
  refine ⟨fun _ => .refl _, rfl, ?_, h.onward.store⟩
  change refusedAfter i w.store w.outside.refused tag j = _
  unfold refusedAfter
  split
  · exact Function.update_of_ne hj _ _
  · rfl

/-! ## The discipline -/

/-- Every commit is accounted for. -/
def accounting (s : SyncServices) (strict : Uuid → Prop) : Policy syncSignature MailServers where
  commit := Accounted s strict
  call _ _ _ _ := True

theorem accounted_read {i : ℕ} {w : SyncWorld} (hw : Coherent strict w) :
    Accounted s strict i none w w := by
  refine ⟨fun o ho hactive => .inl ⟨o, ho, .refl o, hactive⟩, fun h => absurd h Bool.false_ne_true,
    fun o ho o' ho' hrow hnone hsome => ?_, fun f hf f' hf' hid _ hnone hsome => ?_⟩
  · obtain rfl := hw.filed.rows_unique o ho o' ho' hrow.id.symm
    exact absurd hnone hsome
  · obtain rfl := folder_unique hf' hf hid
    exact absurd hnone hsome

/-- The folder that a transaction works on. -/
def SyncTag.folder : SyncTag → Uuid
  | contact folderId _ | complete folderId | window folderId | arrivals folderId
  | expunges folderId | flags folderId | inventory folderId | reset folderId _ _
  | event folderId => folderId

/-- No reset of a strict folder is late. -/
def Timely (strict : Uuid → Prop) (i : ℕ) (w : SyncWorld) (tag : Option SyncTag) : Prop :=
  ∀ x, tag = some x → strict x.folder → isLate i w tag = false

/-- The discipline of folder synchronization. -/
def syncDiscipline (s : SyncServices) (strict : Uuid → Prop) : Discipline (syncSystem s) where
  inv := Coherent strict
  rely := Rely strict
  assumes := ⟨fun i tag w _ => Timely strict i w tag, fun _ _ _ _ => True⟩
  ensures := accounting s strict
  rely_refl := .refl
  rely_trans _ _ _ _ := .trans
  ensures_read _ _ hw := accounted_read hw
  inv_tick w t o hw hadvance := by
    refine hw.servers (later_advance hadvance) ?_
    obtain ⟨folder, -, rfl⟩ := Option.map_eq_some_iff.mp hadvance
    rfl
  rely_tick i w t o _ hadvance := by
    refine ⟨later_advance hadvance, ?_, ?_, .refl⟩ <;>
      obtain ⟨folder, -, rfl⟩ := Option.map_eq_some_iff.mp hadvance <;> rfl
  inv_retire _ _ hw := hw
  rely_retire w _ j _ _ := .refl j w

/-- Worker `i` keeps the discipline when it runs the program from `w` on, and knows `Q` when the
program returns. -/
abbrev Runs (s : SyncServices) (strict : Uuid → Prop) (i : ℕ) {α : Type} (p : SyncProgram α)
    (w : SyncWorld) (Q : α → SyncWorld → Prop) : Prop :=
  Safe (syncDiscipline s strict) i p w Q fun _ _ => True

variable {α β : Type} {Q : α → SyncWorld → Prop} {R : β → SyncWorld → Prop}

theorem Runs.value {a : α} (h : ∀ w', Rely strict i w w' → Coherent strict w' → Q a w') :
    Runs s strict i (Pure.pure a) w Q := Safe.pure h

theorem Runs.fails (e : Failure) : Runs s strict i (MonadExcept.throw e : SyncProgram α) w Q :=
  fun _ _ _ => True.intro

theorem Runs.bind {p : SyncProgram α} {k : α → SyncProgram β} (hp : Runs s strict i p w Q)
    (hk : ∀ a w', Coherent strict w' → Q a w' → Runs s strict i (k a) w' R) :
    Runs s strict i (p >>= k) w R :=
  Safe.bind (hp.mono hk fun _ _ _ h => h)

theorem Runs.assoc {γ : Type} {p : SyncProgram γ} {k : γ → SyncProgram α} {l : α → SyncProgram β}
    (h : Runs s strict i (p >>= fun c => k c >>= l) w R) :
    Runs s strict i ((p >>= k) >>= l) w R := by
  have hassoc : (p >>= k) >>= l = p >>= fun c => k c >>= l := Program.bind_assoc p k l
  rw [hassoc]
  exact h

/-- The last step of a program. -/
theorem Runs.last {p : SyncProgram α} (h : Runs s strict i (p >>= Pure.pure) w Q) :
    Runs s strict i p w Q := by
  have hpure : p >>= Pure.pure = p := Program.bind_pure p
  rwa [hpure] at h

theorem Runs.mono {Q' : α → SyncWorld → Prop} {p : SyncProgram α} (h : Runs s strict i p w Q)
    (hQ : ∀ a w', Q a w' → Q' a w') : Runs s strict i p w Q' :=
  Safe.mono h (fun a w' _ => hQ a w') fun _ _ _ h => h

/-- What is read is what the database holds at that moment. -/
theorem Runs.query {h : Database → α} {k : α → SyncProgram β}
    (hk : ∀ w', Rely strict i w w' → Coherent strict w' →
      Runs s strict i (k (h w'.store)) w' R) :
    Runs s strict i (SyncProgram.query h >>= k) w R := by
  refine Safe.bind (Safe.read (fun w' hr hw' => ?_) fun _ _ _ _ _ => True.intro)
  exact .pure fun w₂ hr₂ _ => (hk w' hr hw').stable hr₂

/-- An answer tells what the server can answer at that moment. -/
theorem Runs.ask {c : SyncCall} {k : c.Answer → SyncProgram β}
    (hk : ∀ w', Rely strict i w w' → Coherent strict w' → ∀ a o',
      w'.outside.respond i c (.ok a) = some o' → Coherent strict ⟨w'.store, o'⟩ →
        Runs s strict i (k a) ⟨w'.store, o'⟩ R) :
    Runs s strict i (SyncProgram.ask c >>= k) w R := by
  refine Safe.bind (Safe.request fun w' hr hw' r o' hrespond _ => ?_)
  have hsame := sameServers_respond hrespond
  refine ⟨⟨hsame.coherent hw', fun j hj => hsame.rely hj⟩, True.intro, ?_⟩
  refine .ofExcept (fun a ha w₂ hr₂ _ => ?_) fun _ _ _ _ _ => True.intro
  subst ha
  exact (hk w' hr hw' a o' hrespond (hsame.coherent hw')).stable hr₂

/-- A transaction is safe when whatever it commits is accounted for. -/
theorem Runs.transaction {t : Tx α} {k : α → SyncProgram β}
    (hk : ∀ w', Rely strict i w w' → Coherent strict w' →
      Timely strict i w' tag → ∀ a db', t.run w'.store = .ok (a, db') →
        Commits s strict i tag w' db' ∧
          (Coherent strict (committed i tag w' db') →
            Runs s strict i (k a) (committed i tag w' db') R)) :
    Runs s strict i (Program.transaction tag t >>= k) w R := by
  refine Safe.bind (Safe.transaction (fun w' hr hw' a db' hrun hlate => ?_)
    fun _ _ _ _ _ => True.intro)
  obtain ⟨hcommits, hnext⟩ := hk w' hr hw' hlate a db' hrun
  refine ⟨⟨hcommits.coherent, fun j hj => hcommits.rely hj⟩, hcommits.accounted, ?_⟩
  exact .pure fun w₂ hr₂ _ => (hnext hcommits.coherent).stable hr₂

end MailHub.FolderSync
