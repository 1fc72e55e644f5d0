import MailHub.Ingestion.System

/-!
# Fetched bodies are durable

The key of an original depends on its message and not on its bytes, so a second staging replaces
what a committed row already names. The bodies stay durable in every run in which no rename puts
other bytes under a committed row, and in which what a worker verified is still there when it
commits; an overlapping fetch with a truncated stream shows that the first condition can fail.
-/

namespace MailHub.Ingestion

open Relational Interleaving

open IngestProgram (query transact ask)

variable {s : IngestionService} {i : ℕ} {α : Type} {w w' : IngestWorld} {db db' : Database}

/-! ## What a transaction does to the locators -/

/-- Every locator was there before or is one of the new ones. -/
def Gains (new : Set Locator) (db db' : Database) : Prop := locators db' ⊆ locators db ∪ new

variable {new : Set Locator}

instance : Std.Refl (Gains new) := ⟨fun _ => Set.subset_union_left⟩

instance : IsTrans Database (Gains new) :=
  ⟨fun _ _ _ h₁ h₂ => h₂.trans (Set.union_subset h₁ Set.subset_union_right)⟩

/-- A rewriting of messages whose locators were there before or are new. -/
theorem gains_of_messages (h : ∀ m' ∈ db'.messages, ∀ l, m'.locator = some l →
    (∃ m ∈ db.messages, m.locator = some l) ∨ l ∈ new) : Gains new db db' := by
  rintro l ⟨m', hm', hl⟩
  exact h m' hm' l hl

/-- A rewriting of some messages that leaves their locators alone. -/
theorem locator_of_update {t : Table Message} {p : Message → Bool} {f : Message → Message}
    {m' : Message} (hm' : m' ∈ t.rows.map fun m => if p m then f m else m)
    (hlocator : ∀ m, (f m).locator = m.locator) : ∃ m ∈ t, m.locator = m'.locator := by
  obtain ⟨m, hm, rfl⟩ := List.mem_map.mp hm'
  refine ⟨m, hm, ?_⟩
  split
  · exact (hlocator m).symm
  · rfl

/-- Marking thread jobs leaves the locators alone. -/
theorem gains_markDirty (p : Message → Bool) (db : Database) : Gains new db (markDirty p db) := by
  refine gains_of_messages fun m' hm' l hl => ?_
  obtain ⟨m, hm, hsame⟩ := locator_of_update hm' fun m => rfl
  exact .inl ⟨m, hm, hsame.trans hl⟩

theorem gains_markThreadJobsDirty (accountId : Uuid) (marking : ThreadJobMarking)
    (db : Database) : Steps (Gains new) db (markThreadJobsDirty accountId marking) :=
  markThreadJobsDirty_steps (gains_markDirty _ db)

/-- What leaves the messages alone gains no locator. -/
theorem gains_of_same (h : db'.messages = db.messages) : Gains new db db' :=
  gains_of_messages fun m' hm' _ hl => .inl ⟨m', h ▸ hm', hl⟩

theorem gains_recordEvent (actor : Actor) (type entityType : String) (id : Uuid) (db : Database) :
    Steps (Gains new) db (Tx.recordEvent actor type entityType id) :=
  .modify (gains_of_same rfl)

/-- Moving references from one message to another leaves the locators alone. -/
theorem gains_moveReferences (removedId survivorId : Uuid) (now : Instant) (db : Database) :
    Gains new db (moveReferences removedId survivorId now db) := by
  refine gains_of_messages fun m' hm' l hl => ?_
  obtain ⟨m₁, hm₁, h₁⟩ := locator_of_update hm' fun m => rfl
  obtain ⟨m, hm, h₂⟩ := locator_of_update hm₁ fun m => rfl
  exact .inl ⟨m, hm, (h₂.trans h₁).trans hl⟩

/-- Deleting a message gains no locator. -/
theorem gains_deleteMessage (removedId : Uuid) (db : Database) :
    Steps (Gains new) db (deleteMessage removedId) := by
  unfold deleteMessage
  refine .get_bind (.ite (fun _ => .throw_bind) fun _ => .ite (fun _ => .throw_bind) fun _ => ?_)
  refine .set (gains_of_messages fun m' hm' l hl => .inl ⟨m', ?_, hl⟩)
  exact (Table.mem_delete.mp hm').1

/-- Merging a duplicate gains no locator. -/
theorem gains_mergeDuplicate (accountId : Uuid) (provisional : Message) (survivorId : Uuid)
    (sha256 : String) (sizeBytes : ℕ) (parsed : ParsedMessage) (now : Instant) (db : Database) :
    Steps (Gains new) db
      (mergeDuplicate accountId provisional survivorId sha256 sizeBytes parsed now) := by
  unfold mergeDuplicate
  refine .bind (.modify (gains_moveReferences _ _ _ _)) fun _ db₁ _ => ?_
  refine .bind (gains_deleteMessage _ _) fun _ db₂ _ => ?_
  refine .bind (gains_markThreadJobsDirty _ _ _) fun _ db₃ _ => ?_
  exact .bind (gains_recordEvent _ _ _ _ _) fun _ db₄ _ => .pure _

/-- Applying an original gains its locator at most. -/
theorem gains_applyIngested (accountId : Uuid) (row : Message) (parsed : ParsedMessage)
    (derived : DerivedBody) (storageKey sha256 : String) (sizeBytes : ℕ) (db : Database) :
    Steps (Gains {⟨some storageKey, some sha256⟩}) db
      (applyIngested accountId row parsed derived storageKey sha256 sizeBytes) := by
  unfold applyIngested
  refine .bind (.modify (gains_of_messages fun m' hm' l hl => ?_)) fun _ db₁ _ => ?_
  · obtain ⟨m, hm, rfl⟩ := List.mem_map.mp hm'
    by_cases hid : m.id == row.id
    · rw [if_pos hid] at hl
      exact .inr (Option.some.inj hl).symm
    · rw [if_neg hid] at hl
      exact .inl ⟨m, hm, hl⟩
  · refine .bind (gains_markThreadJobsDirty _ _ _) fun _ db₂ _ => ?_
    exact .bind (gains_recordEvent _ _ _ _ _) fun _ db₃ _ => .pure _

/-- Committing an original gains no locator, or the one of the original where the account has no
other message with the same bytes. -/
theorem commitOriginal_gains {accountId messageId : Uuid} {parsed : ParsedMessage}
    {derived : DerivedBody} {storageKey sha256 : String} {sizeBytes : ℕ} {now : Instant}
    {b : IngestResult} (h : (commitOriginal accountId messageId parsed derived storageKey sha256
      sizeBytes now).run db = .ok (b, db')) :
    Gains ∅ db db' ∨ findDuplicate accountId messageId sha256 db = none ∧
      Gains {⟨some storageKey, some sha256⟩} db db' := by
  simp only [commitOriginal, StateT.run_bind, bind_eq_ok, Prod.exists] at h
  obtain ⟨row, db₁, hlock, _, db₂, hget, hrun⟩ := h
  obtain rfl := lockMessage_run hlock
  obtain ⟨rfl, rfl⟩ : db₁ = _ ∧ db₁ = db₂ := by simpa using hget
  cases hfind : findDuplicate accountId messageId sha256 db₁ with
  | some duplicate =>
      rw [hfind] at hrun
      exact .inl ((gains_mergeDuplicate _ _ _ _ _ _ _ _).step b db' hrun)
  | none =>
      rw [hfind] at hrun
      exact .inr ⟨rfl, (gains_applyIngested _ _ _ _ _ _ _ _).step b db' hrun⟩

/-! ## What a request does to the store -/

namespace ObjectStore

variable {o o' : ObjectStore} {c : IngestCall} {r : Except Failure c.Answer}

/-- Only a rename changes an object. -/
theorem respond_objects (h : o.respond i c r = some o') : o'.objects = o.objects ∨
    ∃ key bytes, c = .rename key bytes ∧
      o'.objects = Function.update o.objects key (some bytes) := by
  unfold ObjectStore.respond at h
  split at h
  next key bytes _ =>
    obtain rfl := Option.some.inj h
    exact .inr ⟨key, bytes, rfl, rfl⟩
  next =>
    obtain rfl := Option.some.inj h
    exact .inl rfl
  next =>
    split at h
    · obtain rfl := Option.some.inj h
      exact .inl rfl
    · simp at h
  next =>
    obtain rfl := Option.some.inj h
    exact .inl rfl

/-- A worker records what it reads and nothing else. -/
theorem respond_reads (h : o.respond i c r = some o') : o'.reads = o.reads ∨
    ∃ key bytes, c = .storageGet key ∧
      o'.reads = Function.update o.reads i (some (key, bytes)) := by
  unfold ObjectStore.respond at h
  split at h
  next =>
    obtain rfl := Option.some.inj h
    exact .inl rfl
  next =>
    obtain rfl := Option.some.inj h
    exact .inl rfl
  next key bytes =>
    split at h
    · obtain rfl := Option.some.inj h
      exact .inr ⟨key, bytes, rfl, rfl⟩
    · simp at h
  next =>
    obtain rfl := Option.some.inj h
    exact .inl rfl

/-- A worker reads what is stored. -/
theorem respond_storageGet {key : String} {bytes : Bytes}
    (h : o.respond i (.storageGet key) (.ok bytes) = some o') : o.objects key = some bytes ∧
      o' = { o with reads := Function.update o.reads i (some (key, bytes)) } := by
  simp only [ObjectStore.respond, Option.ite_none_right_eq_some, Option.some.injEq] at h
  exact ⟨h.1, h.2.symm⟩

end ObjectStore

/-! ## The discipline -/

/-- Every message marked fetched has, under its key, a stored object whose bytes hash to the hash
that it recorded. -/
def Durable (s : IngestionService) (w : IngestWorld) : Prop :=
  ∀ m ∈ w.store.messages, m.fetchedBody = true →
    ∃ key bytes, m.originalStorageKey = some key ∧ w.outside.objects key = some bytes ∧
      m.originalSha256 = some (s.libs.sha256Hex bytes)

/-- No rename puts an original with another hash under the key of a message marked fetched, and no
original with another hash takes the place of the one that a worker verified before it marks its
message fetched. -/
def undisturbed (s : IngestionService) : Policy ingestSignature ObjectStore where
  commit i tag w _ :=
    match tag with
    | some (.commitParsed accountId messageId _ sha256) =>
        findDuplicate accountId messageId sha256 w.store = none →
          ∀ key bytes, w.outside.reads i = some (key, bytes) →
            ∃ stored, w.outside.objects key = some stored ∧
              s.libs.sha256Hex stored = s.libs.sha256Hex bytes
    | none => True
  call _ c w w' :=
    match c with
    | .rename key bytes =>
        w'.outside.objects key = some bytes → ∀ m ∈ w.store.messages, m.fetchedBody = true →
          m.originalStorageKey = some key → m.originalSha256 = some (s.libs.sha256Hex bytes)
    | _ => True

/-- A locator that a stored object stands behind. -/
def Backed (s : IngestionService) (o : ObjectStore) (l : Locator) : Prop :=
  ∃ key bytes, l.storageKey = some key ∧ o.objects key = some bytes ∧
    l.sha256 = some (s.libs.sha256Hex bytes)

/-- Bodies are durable when every locator is backed. -/
theorem durable_iff : Durable s w ↔ ∀ l ∈ locators w.store, Backed s w.outside l := by
  constructor
  · rintro h l ⟨m, hm, hl⟩
    unfold Message.locator at hl
    split at hl
    next hfetched =>
      obtain rfl := Option.some.inj hl
      exact h m hm hfetched
    next => simp at hl
  · intro h m hm hfetched
    exact h ⟨m.originalStorageKey, m.originalSha256⟩ ⟨m, hm, by simp [Message.locator, hfetched]⟩

/-- What a worker read last has a given key and hash. -/
def Verified (s : IngestionService) (i : ℕ) (key sha256 : String) (w : IngestWorld) : Prop :=
  ∃ bytes, w.outside.reads i = some (key, bytes) ∧ s.libs.sha256Hex bytes = sha256

/-- The discipline of the ingestion: bodies are durable, and a worker relies on what it read. -/
def ingestDiscipline (s : IngestionService) : Discipline (ingestSystem s) where
  inv := Durable s
  rely := fun i w w' => w'.outside.reads i = w.outside.reads i
  assumes := undisturbed s
  ensures := .free
  rely_refl := fun _ _ => rfl
  rely_trans := fun _ _ _ _ h₁ h₂ => h₂.trans h₁
  ensures_read := fun _ _ _ => trivial
  inv_tick := fun _ t => nomatch t
  rely_tick := fun _ _ t => nomatch t
  inv_retire := fun _ _ h => h
  rely_retire := fun _ _ _ _ _ => rfl

/-- What a worker verified stays verified. -/
theorem stable_verified (key sha256 : String) :
    Stable (ingestDiscipline s) i (Verified s i key sha256) := by
  rintro w w' hr - ⟨bytes, hread, hsha⟩
  have hsame : w'.outside.reads i = w.outside.reads i := hr
  exact ⟨bytes, hsame.trans hread, hsha⟩

/-! ## Steps -/

/-- A transaction that gains no locator keeps bodies durable. -/
theorem Durable.of_gains (h : Durable s w) (hgains : Gains ∅ w.store db') :
    Durable s ⟨db', w.outside⟩ := by
  rw [durable_iff] at h ⊢
  intro l hl
  rcases hgains hl with hold | hnew
  · exact h l hold
  · exact absurd hnew (Set.notMem_empty l)

/-- A transaction that gains the locator of a verified original keeps bodies durable while the
original is still there. -/
theorem Durable.of_verified (h : Durable s w) {key sha256 : String}
    (hgains : Gains {⟨some key, some sha256⟩} w.store db') (hverified : Verified s i key sha256 w)
    (hkept : ∀ key bytes, w.outside.reads i = some (key, bytes) →
      ∃ stored, w.outside.objects key = some stored ∧
        s.libs.sha256Hex stored = s.libs.sha256Hex bytes) : Durable s ⟨db', w.outside⟩ := by
  rw [durable_iff] at h ⊢
  intro l hl
  rcases hgains hl with hold | rfl
  · exact h l hold
  · obtain ⟨bytes, hread, hsha⟩ := hverified
    obtain ⟨stored, hstored, hsame⟩ := hkept key bytes hread
    exact ⟨key, stored, rfl, hstored, by rw [hsame, hsha]⟩

/-- An answer keeps bodies durable when a rename puts no other bytes under a committed row. -/
theorem Durable.respond (h : Durable s w) {c : IngestCall} {r : Except Failure c.Answer}
    {o : ObjectStore} (ho : w.outside.respond i c r = some o)
    (hpolicy : (undisturbed s).call i c w ⟨w.store, o⟩) : Durable s ⟨w.store, o⟩ := by
  intro m hm hfetched
  obtain ⟨key, bytes, hkey, hstored, hsha⟩ := h m hm hfetched
  rcases ObjectStore.respond_objects ho with hsame | ⟨key', bytes', rfl, hobjects⟩
  · exact ⟨key, bytes, hkey, by rw [hsame]; exact hstored, hsha⟩
  · by_cases heq : key = key'
    · subst heq
      have hnew : o.objects key = some bytes' := by rw [hobjects, Function.update_self]
      exact ⟨key, bytes', hkey, hnew, hpolicy hnew m hm hfetched hkey⟩
    · refine ⟨key, bytes, hkey, ?_, hsha⟩
      rw [hobjects, Function.update_of_ne heq]
      exact hstored

/-! ## Operations -/

section Keeping

variable {K : IngestWorld → Prop} (hK : Stable (ingestDiscipline s) i K)

include hK

/-- A request that reads no object keeps what is known. -/
theorem preserves_askIngest {c : IngestCall} (hc : ∀ key, c ≠ .storageGet key) :
    Preserves (ingestDiscipline s) i K (ask c) := by
  refine ⟨fun w hw => .request fun w' hr hi r o ho ha => ?_⟩
  have hreads : o.reads = w'.outside.reads := by
    rcases ObjectStore.respond_reads ho with hsame | ⟨key, bytes, rfl, -⟩
    · exact hsame
    · exact absurd rfl (hc key)
  have hdurable : Durable s ⟨w'.store, o⟩ := Durable.respond hi ho ha
  refine ⟨⟨hdurable, fun j _ => congrFun hreads j⟩, trivial, ?_⟩
  refine (Preserves.ofExcept hK r).safe _ ?_
  exact hK w' ⟨w'.store, o⟩ (congrFun hreads i) hdurable (hK w w' hr hi hw)

/-- A transaction without a name that gains no locator keeps what is known. -/
theorem preserves_transactIngest {t : Tx α} (ht : ∀ db, Steps (Gains ∅) db t) :
    Preserves (ingestDiscipline s) i K (transact t) := by
  refine ⟨fun w hw => .transaction (fun w' hr hi b db' hrun _ => ?_)
    fun e w' hr hi _ => hK w w' hr hi hw⟩
  have hdurable : Durable s ⟨db', w'.outside⟩ := Durable.of_gains hi ((ht _).step b db' hrun)
  refine ⟨⟨hdurable, fun _ _ => rfl⟩, trivial, .pure fun w₂ hr₂ hi₂ => ?_⟩
  exact hK w w₂ (hr₂.trans hr) hi₂ hw

theorem preserves_writeObject (key : String) (source : ByteSource) :
    Preserves (ingestDiscipline s) i K (s.writeObject key source) := by
  refine .bind (preserves_askIngest hK (by simp)) fun _ => .bind (.ofExcept hK _) fun bytes => ?_
  refine .bind (preserves_askIngest hK (by simp)) fun _ => ?_
  refine .bind (preserves_askIngest hK (by simp)) fun _ => ?_
  refine .bind (preserves_askIngest hK (by simp)) fun _ => ?_
  exact .bind (preserves_askIngest hK (by simp)) fun _ => .pure hK _

theorem preserves_stageOriginal (messageId : Uuid) (source : ByteSource)
    (expectedSize : Option ℕ) :
    Preserves (ingestDiscipline s) i K (s.stageOriginal messageId source expectedSize) := by
  have hwrite : Preserves (ingestDiscipline s) i K (do
      let storageKey := originalMessageKey messageId
      let stored ← s.writeObject storageKey (bounded source)
      return (⟨messageId, storageKey, stored.sha256, stored.sizeBytes⟩ : StagedOriginal)) :=
    .bind (preserves_writeObject hK _ _) fun _ => .pure hK _
  unfold IngestionService.stageOriginal
  cases expectedSize with
  | none => exact hwrite
  | some size => exact .ite (fun _ => .throw_bind hK) fun _ => hwrite

end Keeping

/-- A worker that verified an original may commit it. -/
theorem preserves_attempt {accountId messageId : Uuid} {parsed : ParsedMessage}
    {derived : DerivedBody} {storageKey sha256 : String} {sizeBytes : ℕ} {now : Instant} :
    Preserves (ingestDiscipline s) i (Verified s i storageKey sha256)
      (Program.transaction (S := ingestSignature)
        (some (.commitParsed accountId messageId storageKey sha256))
        (commitOriginal accountId messageId parsed derived storageKey sha256 sizeBytes now)) := by
  have hK := stable_verified (s := s) (i := i) storageKey sha256
  refine ⟨fun w hw => .transaction (fun w' hr hi b db' hrun ha => ?_)
    fun e w' hr hi _ => hK w w' hr hi hw⟩
  have hverified : Verified s i storageKey sha256 w' := hK w w' hr hi hw
  have hdurable : Durable s ⟨db', w'.outside⟩ := by
    rcases commitOriginal_gains hrun with hgains | ⟨hfind, hgains⟩
    · exact Durable.of_gains hi hgains
    · exact Durable.of_verified hi hgains hverified (ha hfind)
  refine ⟨⟨hdurable, fun _ _ => rfl⟩, trivial, .pure fun w₂ hr₂ hi₂ => ?_⟩
  exact hK w w₂ (hr₂.trans hr) hi₂ hw

theorem preserves_commitParsed {accountId messageId : Uuid} {parsed : ParsedMessage}
    {derived : DerivedBody} {storageKey sha256 : String} {sizeBytes : ℕ} :
    Preserves (ingestDiscipline s) i (Verified s i storageKey sha256)
      (IngestionService.commitParsed accountId messageId parsed derived storageKey sha256
        sizeBytes) := by
  have hK := stable_verified (s := s) (i := i) storageKey sha256
  refine .bind (preserves_askIngest hK (by simp)) fun now => ?_
  refine .bind (.attempt hK preserves_attempt) fun result => ?_
  cases result with
  | ok result => exact .pure hK _
  | error cause => exact .ite (fun _ => preserves_attempt) fun _ => .throw hK _

/-- Reading an object records its bytes. -/
theorem safe_storageGet (key : String) :
    Safe (ingestDiscipline s) i (IngestProgram.storageGet key) w
      (fun bytes => Verified s i key (s.libs.sha256Hex bytes)) fun _ _ => True := by
  refine .request fun w' hr hi r o ho ha => ?_
  have hdurable : Durable s ⟨w'.store, o⟩ := Durable.respond hi ho ha
  have hothers : ∀ j, j ≠ i → o.reads j = w'.outside.reads j := by
    intro j hj
    rcases ObjectStore.respond_reads ho with hsame | ⟨key', bytes, -, hreads⟩
    · rw [hsame]
    · rw [hreads, Function.update_of_ne hj]
  refine ⟨⟨hdurable, hothers⟩, trivial, ?_⟩
  refine .ofExcept (fun bytes hbytes w₂ hr₂ hi₂ => ?_) fun _ _ _ _ _ => trivial
  subst hbytes
  have hread : o.reads i = some (key, bytes) := by
    obtain rfl := (ObjectStore.respond_storageGet ho).2
    exact Function.update_self ..
  exact ⟨bytes, (show w₂.outside.reads i = o.reads i from hr₂).trans hread, rfl⟩

/-- Applying a staged original verifies it first. -/
theorem preserves_applyStagedOriginal (accountId messageId : Uuid) (staged : StagedOriginal) :
    Preserves (ingestDiscipline s) i (fun _ => True)
      (s.applyStagedOriginal accountId messageId staged) := by
  refine .ite (fun _ => .throw_bind .trivial) fun _ => ⟨fun w _ => .bind ?_⟩
  refine (safe_storageGet staged.storageKey).mono (fun original w' _ hw' => ?_) fun _ _ _ h => h
  have hK := stable_verified (s := s) (i := i) staged.storageKey (s.libs.sha256Hex original)
  have hrest : Preserves (ingestDiscipline s) i
      (Verified s i staged.storageKey (s.libs.sha256Hex original)) (do
        if maxMessageBytes < original.length then
          throw (tooLarge original.length)
        if original.length ≠ staged.sizeBytes ∨ s.libs.sha256Hex original ≠ staged.sha256 then
          throw (.ingestion .originalMismatch
            "The stored original no longer matches its staged hash or size." none)
        let parsed ← IngestProgram.lift (s.libs.parseMime original)
        IngestionService.commitParsed accountId messageId parsed (s.deriveBody parsed)
          staged.storageKey staged.sha256 staged.sizeBytes) := by
    refine .ite (fun _ => .throw_bind hK) fun _ => .ite (fun _ => .throw_bind hK) fun hmatch => ?_
    have hsha : s.libs.sha256Hex original = staged.sha256 := by
      by_contra hne
      exact hmatch (.inr hne)
    rw [hsha] at hK ⊢
    exact .bind (.ofExcept hK _) fun parsed => preserves_commitParsed
  exact (hrest.safe w' hw').mono (fun _ _ _ _ => trivial) fun _ _ _ _ => trivial

theorem preserves_ingestOriginal (accountId messageId : Uuid) (bytes : Bytes) :
    Preserves (ingestDiscipline s) i (fun _ => True)
      (s.ingestOriginal accountId messageId bytes) := by
  refine .ite (fun _ => .throw_bind .trivial) fun _ => ?_
  refine .ite (fun _ => .throw_bind .trivial) fun _ => ?_
  exact .bind (preserves_stageOriginal .trivial _ _ _) fun staged =>
    preserves_applyStagedOriginal _ _ staged

/-! ### Fetching -/

/-- Noting a skip or a failure gains no locator. -/
theorem gains_noteBody {accountId messageId : Uuid} {event : String} {f : Message → Message}
    {hf : ∀ m, (f m).id = m.id} (hlocator : ∀ m, (f m).locator = m.locator) (db : Database) :
    Steps (Gains ∅) db (noteBody accountId messageId event f hf) := by
  unfold noteBody
  refine .bind (.modify (gains_of_messages fun m' hm' l hl => ?_)) fun _ db₁ _ =>
    gains_recordEvent _ _ _ _ _
  obtain ⟨m, hm, hsame⟩ := locator_of_update hm' hlocator
  exact .inl ⟨m, hm, hsame.trans hl⟩

theorem preserves_skipDownload (accountId : Uuid) (pending : PendingBody) (messageId : Uuid)
    (sizeBytes : ℕ) : Preserves (ingestDiscipline s) i (fun _ => True)
      (skipDownload accountId pending messageId sizeBytes) := by
  refine .bind (preserves_askIngest .trivial (by simp)) fun _ => ?_
  refine .bind (preserves_transactIngest .trivial ?_) fun _ => .pure .trivial _
  exact gains_noteBody fun _ => rfl

theorem preserves_applyFetched (accountId : Uuid) (pending : PendingBody) (target : BodyTarget)
    (staged : StagedOriginal) : Preserves (ingestDiscipline s) i (fun _ => True)
      (applyFetched s accountId pending target staged) := by
  refine .bind (preserves_askIngest .trivial (by simp)) fun recheck => ?_
  refine .ite (fun _ => .pure .trivial _) fun _ => ?_
  refine .bind (.attempt .trivial (preserves_applyStagedOriginal _ _ _)) fun result => ?_
  split
  · exact .pure .trivial _
  · refine .bind (.bind (preserves_askIngest .trivial (by simp)) fun now => ?_) fun _ =>
      .pure .trivial _
    exact preserves_transactIngest .trivial (gains_noteBody fun _ => rfl)
  · exact .throw .trivial _

theorem preserves_fetchBody (accountId : Uuid) (pending : PendingBody) :
    Preserves (ingestDiscipline s) i (fun _ => True) (fetchBody s accountId pending) := by
  refine .bind (.bind (.read .trivial _) fun target => ?_) fun target => ?_
  · cases target with
    | none => exact .throw .trivial _
    | some target => exact .pure .trivial _
  refine .ite (fun _ => .pure .trivial _) fun _ => ?_
  refine .bind (preserves_askIngest .trivial (by simp)) fun mailbox => ?_
  refine .ite (fun _ => .pure .trivial _) fun _ => ?_
  refine .bind (preserves_askIngest .trivial (by simp)) fun download => ?_
  cases download with
  | none => exact .pure .trivial _
  | some download =>
      simp only []
      split
      · exact preserves_skipDownload _ _ _ _
      · refine .bind (.attempt .trivial (preserves_stageOriginal .trivial _ _ _)) fun staged => ?_
        split
        · exact preserves_applyFetched _ _ _ _
        · exact preserves_skipDownload _ _ _ _
        · exact .throw .trivial _

/-- Every operation keeps bodies durable. -/
theorem safe_ingestOp (op : IngestOp) (i : ℕ) (w : IngestWorld) :
    Safe (ingestDiscipline s) i (op.run s) w (fun _ _ => True) fun _ _ => True := by
  cases op with
  | ingestOriginal accountId messageId bytes =>
      exact (Preserves.bind (preserves_ingestOriginal accountId messageId bytes) fun _ =>
        .pure .trivial _).safe w trivial
  | fetchBody accountId pending =>
      exact (Preserves.bind (preserves_fetchBody accountId pending) fun _ =>
        .pure .trivial _).safe w trivial
  | elsewhere f hf =>
      refine (preserves_transactIngest .trivial fun db => .modify ?_).safe w trivial
      exact (hf db).trans Set.subset_union_left

/-! ## Runs -/

variable {c₀ c : Config ingestSignature ObjectStore}

/-- In every undisturbed run that starts with durable bodies, the bodies stay durable. -/
theorem bodies_durable (hworkers : c₀.workers = []) (hstart : Durable s c₀.world)
    (h : Reaches (ingestSystem s) (undisturbed s) c₀ c) : Durable s c.world := by
  have hsound : c₀.Sound (ingestDiscipline s) := by
    refine ⟨hstart, fun i p hp => ?_⟩
    rw [hworkers] at hp
    simp at hp
  have hreach : Reaches (ingestSystem s) (ingestDiscipline s).assumes c₀ c := h
  exact (hreach.sound hsound safe_ingestOp).inv

/-! ## A sample -/

/-- An ingestion whose hash is the length. -/
def sampleIngestion : IngestionService where
  libs :=
    { sha256Hex := fun bytes => s!"{bytes.length}"
      composeMime := fun _ => .ok []
      simpleParser := fun _ => .ok
        { messageId := some "<1@b.cc>", inReplyTo := none, referenceIds := [], sender := none,
          replyTo := none, recipients := none, subject := none, sentAt := none, textPlain := none,
          html := none, attachments := [] }
      renderMarkdownHtml := id
      extractReplyQuote := fun _ _ => "" }
  sanitizeHtml := id

/-- One imported message in a folder. -/
def sampleImport : Database :=
  { Database.empty with
    accounts := ⟨[⟨1, [], true⟩], by decide⟩
    folders := ⟨[⟨5, 1, "INBOX", some .inbox, some 7, 4, none, none, true⟩], by decide⟩
    messages := ⟨[.bare 1 1 0], by decide⟩
    messageOccurrences := ⟨[⟨2, 1, 1, 5, 7, 3, 0, true, false, none, 1, none, none⟩], by decide⟩ }

/-- The sample before any fetch. -/
def sampleInbox : Config ingestSignature ObjectStore := ⟨⟨sampleImport, .empty⟩, []⟩

theorem sampleInbox_durable : Durable sampleIngestion sampleInbox.world := by
  intro m hm hfetched
  obtain rfl : m = .bare 1 1 0 := List.mem_singleton.mp hm
  simp [Message.bare] at hfetched

/-- Answers in which everything works and the server sends these bytes. -/
def sampleBytes (bytes : Bytes) : (c : IngestCall) → Except Failure c.Answer
  | .now => .ok (0 : ℕ)
  | .assertWritable | .writeTemp _ | .rename .. | .writeSidecar .. | .fsyncDirectory _
  | .discard => .ok ()
  | .storageGet _ => .ok bytes
  | .select _ | .revalidate => .ok ⟨7, 4⟩
  | .streamOriginal _ => .ok (some ⟨none, oneChunk bytes⟩)

/-- Worker `i` starts to fetch the body. -/
def sampleLoad (i : ℕ) : List (Event (ingestSystem sampleIngestion)) :=
  [.spawn (.fetchBody 1 ⟨1, 5, 3, 7⟩), .commit i]

/-- Worker `i` streams the bytes up to the rename. -/
def sampleStream (i : ℕ) (bytes : Bytes) : List (Event (ingestSystem sampleIngestion)) :=
  List.replicate 5 (.answer i (sampleBytes bytes))

/-- Worker `i` applies the bytes that it renamed. -/
def sampleCommit (i : ℕ) (bytes : Bytes) : List (Event (ingestSystem sampleIngestion)) :=
  List.replicate 5 (.answer i (sampleBytes bytes)) ++ [.commit i]

/-- The object and the locators of a pool. -/
structure StoredView where
  object : Option Bytes
  locators : List (Option Locator)
  deriving DecidableEq

/-- The view of a pool. -/
def storedView (c : Config ingestSignature ObjectStore) : StoredView :=
  ⟨c.world.outside.objects "originals/1.eml", c.world.store.messages.rows.map (·.locator)⟩

/-- Two workers fetch one body: the stream of the second one is truncated, and it dies after its
rename. The committed row names an object that no longer hashes to what the row recorded. -/
theorem truncated_refetch : ∃ c,
    Reaches (ingestSystem sampleIngestion) .free sampleInbox c ∧
      sampleInbox.workers = [] ∧ Durable sampleIngestion sampleInbox.world ∧
      ¬ Durable sampleIngestion c.world := by
  have h : (sampleInbox.run (ingestSystem sampleIngestion) (sampleLoad 0 ++ sampleLoad 1 ++
      sampleStream 0 [1, 2] ++ sampleCommit 0 [1, 2] ++ sampleStream 1 [1] ++ [.stop 1])).map
        storedView = some ⟨some [1], [some ⟨some "originals/1.eml", some "2"⟩]⟩ := by
    decide +kernel
  obtain ⟨c, hrun, hview⟩ := Option.map_eq_some_iff.mp h
  refine ⟨c, .of_run hrun, rfl, sampleInbox_durable, fun hdurable => ?_⟩
  obtain ⟨hobject, hlocators⟩ := StoredView.mk.inj hview
  have hmem : some (⟨some "originals/1.eml", some "2"⟩ : Locator) ∈
      c.world.store.messages.rows.map (·.locator) := by
    rw [hlocators]
    exact List.mem_singleton.mpr rfl
  obtain ⟨m, hm, hl⟩ := List.mem_map.mp hmem
  obtain ⟨key, bytes, hkey, hbytes, hsha⟩ := durable_iff.mp hdurable _ ⟨m, hm, hl⟩
  obtain rfl : "originals/1.eml" = key := Option.some.inj hkey
  obtain rfl : [1] = bytes := Option.some.inj (hobject.symm.trans hbytes)
  exact absurd (Option.some.inj hsha) (by decide +kernel)

/-! ### An undisturbed run -/

/-- Whether an event leaves committed and verified originals in place. -/
def isUndisturbed (s : IngestionService) (c : Config ingestSignature ObjectStore) :
    Event (ingestSystem s) → Bool
  | .commit i =>
      match c.standsAt i with
      | some (.commitParsed accountId messageId _ sha256) =>
          (findDuplicate accountId messageId sha256 c.world.store).isSome ||
            (c.world.outside.reads i).all fun read =>
              (c.world.outside.objects read.1).any fun stored =>
                s.libs.sha256Hex stored == s.libs.sha256Hex read.2
      | none => true
  | .answer i _ =>
      match c.workers[i]? with
      | some (.call (.rename key bytes) _) =>
          c.world.store.messages.rows.all fun m => !m.fetchedBody ||
            m.originalStorageKey != some key ||
              m.originalSha256 == some (s.libs.sha256Hex bytes)
      | _ => true
  | _ => true

/-- An event that passes the check meets the policy. -/
theorem undisturbed_of_isUndisturbed {c : Config ingestSignature ObjectStore}
    {e : Event (ingestSystem s)} (h : isUndisturbed s c e = true) :
    (undisturbed s).Meets (ingestSystem s) c e := by
  cases e with
  | commit i =>
      intro β tag f k b db hp _
      cases tag with
      | none => trivial
      | some tag =>
          obtain ⟨accountId, messageId, storageKey, sha256⟩ := tag
          intro hfind key bytes hread
          simpa [isUndisturbed, Config.standsAt, hp, hfind, hread, Option.any_eq_true] using h
  | answer i r =>
      intro q k o hp _
      cases q with
      | rename key bytes =>
          intro _ m hm hfetched hkey
          have hall := h
          simp only [isUndisturbed, hp, List.all_eq_true] at hall
          simpa [hfetched, hkey] using hall m hm
      | now | assertWritable | writeTemp | writeSidecar | fsyncDirectory | storageGet | select
      | streamOriginal | discard | revalidate => trivial
  | spawn op | abort i e | stop i | tick t => trivial

/-- A fetch alone leaves a durable body, and so does every undisturbed run. -/
theorem bodies_durable_sample : ∃ c,
    sampleInbox.runChecked (ingestSystem sampleIngestion) (isUndisturbed sampleIngestion)
      (sampleLoad 0 ++ sampleStream 0 [1, 2] ++ sampleCommit 0 [1, 2]) = some c ∧
      storedView c = ⟨some [1, 2], [some ⟨some "originals/1.eml", some "2"⟩]⟩ ∧
      Durable sampleIngestion c.world := by
  have h : (sampleInbox.runChecked (ingestSystem sampleIngestion) (isUndisturbed sampleIngestion)
      (sampleLoad 0 ++ sampleStream 0 [1, 2] ++ sampleCommit 0 [1, 2])).map storedView =
        some ⟨some [1, 2], [some ⟨some "originals/1.eml", some "2"⟩]⟩ := by
    decide +kernel
  obtain ⟨c, hrun, hview⟩ := Option.map_eq_some_iff.mp h
  have hreach : Reaches (ingestSystem sampleIngestion) (undisturbed sampleIngestion)
      sampleInbox c :=
    .of_runChecked (fun _ _ => undisturbed_of_isUndisturbed) hrun
  exact ⟨c, hrun, hview, bodies_durable rfl sampleInbox_durable hreach⟩

end MailHub.Ingestion
