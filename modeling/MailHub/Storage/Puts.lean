import MailHub.Interleaving.Safety
import MailHub.Storage.Files

/-!
# Objects and their sidecars

A put replaces the object and then its sidecar, and `stat` tells a stale sidecar by its size alone.
The answers of `stat` describe what `get` returns in every run in which no put takes the place of
another object of its size while metadata of that object is recorded or still to be recorded.
-/

namespace MailHub.Storage

open MailHub Interleaving
open StoreProgram (ask randomUuid freeBytes mkdir sync close)

/-! ## The system -/

/-- One operation on a store. -/
inductive StoreOp
  | put (key : String) (bytes : Bytes)
  | putStream (key : String) (chunks : ByteSource)
  | remove (key : String)

/-- The program of one operation; its result goes back to the caller. -/
def StoreOp.run (store : FsObjectStore) : StoreOp → StoreProgram Unit
  | put key bytes => do let _ ← store.put key bytes
  | putStream key chunks => do let _ ← store.putStream key chunks
  | remove key => do let _ ← store.remove key

/-- What is recorded about a run: who created each temporary file, and which workers replaced an
object and have not yet replaced its sidecar. -/
structure StoreTrace where
  owner : Uuid → Option ℕ
  replaced : List (ℕ × StoredObjectMetadata)

def StoreTrace.empty : StoreTrace := ⟨fun _ => none, []⟩

/-- Worker `i` is done with its sidecar, or gone. -/
def StoreTrace.settle (i : ℕ) (o : StoreTrace) : StoreTrace :=
  { o with replaced := o.replaced.filter (·.1 != i) }

/-- The record of a committed step of worker `i`. -/
def StoreTrace.observe (i : ℕ) (tag : Option StoreTag) (o : StoreTrace) : StoreTrace :=
  match tag with
  | some (.create id) => { o with owner := Function.update o.owner id (some i) }
  | some (.replace metadata) => { o with replaced := (i, metadata) :: o.replaced }
  | some (.record _) => o.settle i
  | none => o

/-- Any number of operations on the files of one store; every step may fail. -/
def storeSystem (store : FsObjectStore) : System storeSignature StoreTrace where
  Op := StoreOp
  program := StoreOp.run store
  Tick := Empty
  advance := fun t => nomatch t
  respond := fun _ _ _ o => some o
  fault := fun e => match e with
    | .system .. => true
    | _ => false
  observe := fun i tag _ _ o => o.observe i tag
  observe_read := fun _ _ _ => rfl
  retire := fun i o => o.settle i

/-- The files and the record. -/
abbrev StoreWorld := World storeSignature StoreTrace

variable {store : FsObjectStore} {i : ℕ} {w w' : StoreWorld} {fs fs' : FileSystem}
variable {key : String} {id : Uuid}

/-! ## Consistent objects -/

/-- Whenever `stat` succeeds, its answer has the hash and the size of what `get` returns. -/
def Consistent (store : FsObjectStore) (key : String) (fs : FileSystem) : Prop :=
  ∀ metadata fs', (store.stat key).alone fs = some (.ok (some metadata), fs') →
    ∃ bytes, (FsObjectStore.get key).alone fs' = some (.ok bytes, fs') ∧
      metadata.sha256 = store.sha256Hex bytes ∧ metadata.sizeBytes = bytes.length

/-- Metadata of one size has one hash. -/
def Agree (a b : StoredObjectMetadata) : Prop := a.sizeBytes = b.sizeBytes → a.sha256 = b.sha256

instance (a b : StoredObjectMetadata) : Decidable (Agree a b) :=
  inferInstanceAs (Decidable (_ → _))

/-- No sidecar names another hash for an object of its size. -/
def Matched (store : FsObjectStore) (fs : FileSystem) : Prop :=
  ∀ key bytes recorded, fs.objects key = some bytes → fs.sidecars key = some recorded →
    Agree recorded (store.describe key bytes)

theorem matched_empty : Matched store .empty := by
  intro key bytes recorded hobject
  cases hobject

theorem alone_readExisting {α : Type} {f : FileSystem → Option α} {a : α} (h : f fs = some a) :
    (readExisting f).alone fs = some (.ok a, fs) := by
  unfold readExisting Program.transaction
  simp [Program.alone, h]
  rfl

theorem alone_readExisting_none {α : Type} {f : FileSystem → Option α} (h : f fs = none) :
    (readExisting f).alone fs = some (.error enoent, fs) := by
  unfold readExisting Program.transaction
  simp [Program.alone, h]

/-- A sidecar is read where its size is the size of the object. -/
theorem alone_readSidecar (key : String) (sizeBytes : ℕ) (fs : FileSystem) :
    (FsObjectStore.readSidecar key sizeBytes).alone fs = some (.ok none, fs) ∨
      ∃ recorded, fs.sidecars key = some recorded ∧ recorded.sizeBytes = sizeBytes ∧
        (FsObjectStore.readSidecar key sizeBytes).alone fs =
          some (.ok (some ⟨recorded.sha256, recorded.sizeBytes⟩), fs) := by
  unfold FsObjectStore.readSidecar
  cases hrecorded : fs.sidecars key with
  | none =>
      left
      have hread : (readExisting fun fs => fs.sidecars key).alone fs = some (.error enoent, fs) :=
        alone_readExisting_none hrecorded
      rw [Program.tryCatch_eq, Program.alone_handle (e := enoent)]
      · exact Program.alone_pure
      · exact Program.alone_bind_error hread
  | some recorded =>
      have hread : (readExisting fun fs => fs.sidecars key).alone fs = some (.ok recorded, fs) :=
        alone_readExisting hrecorded
      by_cases hsize : recorded.sizeBytes < 2 ^ 53 && recorded.sizeBytes == sizeBytes
      · right
        refine ⟨recorded, rfl, by simp_all, Program.alone_handle_ok ?_⟩
        rw [Program.alone_bind hread, if_pos hsize, Program.alone_pure]
      · left
        refine Program.alone_handle_ok ?_
        rw [Program.alone_bind hread, if_neg hsize, Program.alone_pure]

/-- A key that `stat` or `get` accepts. -/
theorem alone_validKey {α : Type} {f : Unit → StoreProgram α}
    (h : assertValidKey key = .ok ()) :
    (Program.ofExcept (assertValidKey key) >>= f).alone fs = (f ()).alone fs := by
  rw [h]
  rfl

theorem alone_get {bytes : Bytes} (hkey : assertValidKey key = .ok ())
    (h : fs.objects key = some bytes) :
    (FsObjectStore.get key).alone fs = some (.ok bytes, fs) := by
  unfold FsObjectStore.get
  rw [alone_validKey hkey]
  exact Program.alone_handle_ok (alone_readExisting h)

/-- What `stat` answers comes from the sidecar or from the object. -/
theorem alone_stat {metadata : StoredObjectMetadata}
    (h : (store.stat key).alone fs = some (.ok (some metadata), fs')) :
    fs' = fs ∧ assertValidKey key = .ok () ∧ ∃ bytes, fs.objects key = some bytes ∧
      (metadata = store.describe key bytes ∨ ∃ recorded, fs.sidecars key = some recorded ∧
        recorded.sizeBytes = bytes.length ∧ metadata.sha256 = recorded.sha256 ∧
        metadata.sizeBytes = recorded.sizeBytes) := by
  unfold FsObjectStore.stat at h
  cases hkey : assertValidKey key with
  | error e =>
      rw [hkey] at h
      cases h
  | ok u =>
      rw [alone_validKey hkey] at h
      cases hobject : fs.objects key with
      | none =>
          have hread : (readExisting fun fs => fs.objects key).alone fs =
              some (.error enoent, fs) := alone_readExisting_none hobject
          have hsize : (tryCatch (readExisting (fun fs => fs.objects key) >>= fun bytes =>
              pure (some bytes.length)) fun e =>
              if isENOENT e then pure none else throw (classifyReadError key e)).alone fs =
              some (.ok none, fs) := by
            rw [Program.tryCatch_eq, Program.alone_handle (Program.alone_bind_error hread)]
            rfl
          rw [Program.alone_bind hsize] at h
          cases h
      | some bytes =>
          have hread : (readExisting fun fs => fs.objects key).alone fs = some (.ok bytes, fs) :=
            alone_readExisting hobject
          have hsize : (tryCatch (readExisting (fun fs => fs.objects key) >>= fun bytes =>
              pure (some bytes.length)) fun e =>
              if isENOENT e then pure none else throw (classifyReadError key e)).alone fs =
              some (.ok (some bytes.length), fs) := by
            refine Program.alone_handle_ok ?_
            rw [Program.alone_bind hread, Program.alone_pure]
          rw [Program.alone_bind hsize] at h
          dsimp only at h
          rcases alone_readSidecar key bytes.length fs with hside | ⟨recorded, hrec, hsame, hside⟩
          · rw [Program.alone_bind hside] at h
            dsimp only at h
            rw [Program.alone_bind (alone_get hkey hobject), Program.alone_pure] at h
            obtain ⟨rfl, rfl⟩ : store.describe key bytes = metadata ∧ fs = fs' := by simpa using h
            exact ⟨rfl, rfl, bytes, rfl, .inl rfl⟩
          · rw [Program.alone_bind hside] at h
            dsimp only at h
            obtain ⟨rfl, rfl⟩ : (⟨key, recorded.sha256, recorded.sizeBytes,
              store.storageClass⟩ : StoredObjectMetadata) = metadata ∧ fs = fs' := by
              simpa [Program.alone] using h
            exact ⟨rfl, rfl, bytes, rfl, .inr ⟨recorded, hrec, hsame, rfl, rfl⟩⟩

/-- The answers of `stat` describe what `get` returns where no sidecar names another hash. -/
theorem consistent_of_matched (h : Matched store fs) : Consistent store key fs := by
  intro metadata fs' hstat
  obtain ⟨rfl, hkey, bytes, hobject, hmetadata⟩ := alone_stat hstat
  refine ⟨bytes, alone_get hkey hobject, ?_⟩
  rcases hmetadata with rfl | ⟨recorded, hrecorded, hsize, hsha, hsame⟩
  · exact ⟨rfl, rfl⟩
  · exact ⟨hsha.trans (h key bytes recorded hobject hrecorded hsize), hsame.trans hsize⟩

/-! ## The discipline -/

/-- A put replaces an object only where the sidecar that is there, and every put that replaced the
object and did not get to its sidecar yet, name another size or the same hash. -/
def unambiguous : Policy storeSignature StoreTrace where
  commit _ tag w _ :=
    match tag with
    | some (.replace metadata) =>
        (∀ recorded ∈ w.store.sidecars metadata.key, Agree recorded metadata) ∧
          ∀ p ∈ w.outside.replaced, p.2.key = metadata.key → Agree p.2 metadata
    | _ => True
  call _ _ _ _ := True

/-- Every sidecar that is there, or that a worker is about to write, belongs to its object or names
another size. -/
structure Orderly (store : FsObjectStore) (w : StoreWorld) : Prop where
  matched : Matched store w.store
  pending : ∀ p ∈ w.outside.replaced, ∀ bytes, w.store.objects p.2.key = some bytes →
    Agree p.2 (store.describe p.2.key bytes)

/-- What worker `i` relies on: nobody touches its temporary files or its record. -/
structure StoreRely (i : ℕ) (w w' : StoreWorld) : Prop where
  temps : ∀ id, w.outside.owner id = some i → w.store.temps id ≠ none →
    w'.outside.owner id = some i ∧ w'.store.temps id = w.store.temps id
  replaced : ∀ metadata, (i, metadata) ∈ w.outside.replaced → (i, metadata) ∈ w'.outside.replaced

/-- The record of worker `i` settles no other worker. -/
theorem mem_settle {o : StoreTrace} {p : ℕ × StoredObjectMetadata} :
    p ∈ (o.settle i).replaced ↔ p ∈ o.replaced ∧ p.1 ≠ i := by
  unfold StoreTrace.settle
  rw [List.mem_filter, bne_iff_ne]

/-- The discipline of a store: sidecars belong to their objects, and temporary files to their
creators. -/
def storeDiscipline (store : FsObjectStore) : Discipline (storeSystem store) where
  inv := Orderly store
  rely := StoreRely
  assumes := unambiguous
  ensures := .free
  rely_refl := fun _ _ => ⟨fun _ h _ => ⟨h, rfl⟩, fun _ h => h⟩
  rely_trans := fun i w₁ w₂ w₃ h₁ h₂ => by
    refine ⟨fun id howner htemp => ?_, fun metadata h => h₂.replaced _ (h₁.replaced _ h)⟩
    obtain ⟨howner₂, htemp₂⟩ := h₁.temps id howner htemp
    obtain ⟨howner₃, htemp₃⟩ := h₂.temps id howner₂ (htemp₂ ▸ htemp)
    exact ⟨howner₃, htemp₃.trans htemp₂⟩
  ensures_read := fun _ _ _ => trivial
  inv_tick := fun _ t => nomatch t
  rely_tick := fun _ _ t => nomatch t
  inv_retire := fun _ _ h => ⟨h.matched, fun p hp => h.pending p (mem_settle.mp hp).1⟩
  rely_retire := fun _ _ _ _ hne =>
    ⟨fun _ h _ => ⟨h, rfl⟩, fun _ h => mem_settle.mpr ⟨h, hne⟩⟩

/-- A step of worker `i` that leaves the files and the records of the others alone. -/
theorem keeps_of (hinv : Orderly store w')
    (htemps : ∀ id, w.outside.owner id ≠ some i → w.store.temps id ≠ none →
      w'.outside.owner id = w.outside.owner id ∧ w'.store.temps id = w.store.temps id)
    (hreplaced : ∀ p ∈ w.outside.replaced, p.1 ≠ i → p ∈ w'.outside.replaced) :
    (storeDiscipline store).Keeps i w w' := by
  refine ⟨hinv, fun j hj => ⟨fun id howner htemp => ?_, fun metadata h => hreplaced _ h hj⟩⟩
  have hother : w.outside.owner id ≠ some i := by
    rw [howner]
    exact fun h => hj (Option.some.inj h)
  obtain ⟨howner', htemp'⟩ := htemps id hother htemp
  exact ⟨howner'.trans howner, htemp'⟩

/-- Worker `i` holds a temporary file, and replaced the object of the metadata if there is some. -/
structure Holding (i : ℕ) (id : Uuid) (file : TempFile) (replaced : Option StoredObjectMetadata)
    (w : StoreWorld) : Prop where
  owner : w.outside.owner id = some i
  temp : w.store.temps id = some file
  replaced : ∀ metadata ∈ replaced, (i, metadata) ∈ w.outside.replaced

variable {file : TempFile} {replaced : Option StoredObjectMetadata}

/-- Worker `i` replaced the object of the metadata if there is some. -/
def Replaced (i : ℕ) (replaced : Option StoredObjectMetadata) (w : StoreWorld) : Prop :=
  ∀ metadata ∈ replaced, (i, metadata) ∈ w.outside.replaced

theorem stable_holding : Stable (storeDiscipline store) i (Holding i id file replaced) := by
  intro w w' hr _ h
  have htemp : w.store.temps id ≠ none := by
    rw [h.temp]
    exact Option.some_ne_none file
  obtain ⟨howner, hsame⟩ := hr.temps id h.owner htemp
  exact ⟨howner, hsame.trans h.temp, fun metadata hm => hr.replaced _ (h.replaced metadata hm)⟩

theorem stable_replaced : Stable (storeDiscipline store) i (Replaced i replaced) :=
  fun _ _ hr _ h metadata hm => hr.replaced _ (h metadata hm)

/-! ## Steps -/

/-- A request changes no file. -/
theorem preserves_ask {K : StoreWorld → Prop} (hK : Stable (storeDiscipline store) i K)
    (c : StoreCall) : Preserves (storeDiscipline store) i K (ask c) := by
  refine ⟨fun w hw => .request fun w' hr hi r o ho _ => ?_⟩
  obtain rfl : w'.outside = o := Option.some.inj ho
  refine ⟨⟨hi, fun j _ => (storeDiscipline store).rely_refl j w'⟩, trivial, ?_⟩
  exact (Preserves.ofExcept hK r).safe _ (hK w w' hr hi hw)

/-- A worker that creates a temporary file holds it. -/
theorem safe_openExclusive (h : Replaced i replaced w) :
    Safe (storeDiscipline store) i
      (.transaction (some (.create id)) (openExclusive id file)) w
      (fun _ => Holding i id file replaced) fun _ _ => True := by
  refine .transaction (fun w' hr hi b s hrun _ => ?_) fun _ _ _ _ _ => trivial
  have hrun' : w'.store.temps id = none ∧
      { w'.store with temps := Function.update w'.store.temps id (some file) } = s := by
    cases htemp : w'.store.temps id with
    | some file' => simp [openExclusive, htemp] at hrun
    | none => simpa [openExclusive, htemp] using hrun
  obtain ⟨hnone, rfl⟩ := hrun'
  have hholds : Holding i id file replaced (Config.committed (storeSystem store) w' i
      (some (.create id))
      { w'.store with temps := Function.update w'.store.temps id (some file) }) :=
    ⟨Function.update_self .., Function.update_self .., stable_replaced w w' hr hi h⟩
  refine ⟨keeps_of ⟨hi.matched, hi.pending⟩ (fun id' _ htemp => ?_) fun p hp _ => hp, trivial,
    .pure fun w₂ hr₂ hi₂ => stable_holding _ w₂ hr₂ hi₂ hholds⟩
  have hne : id' ≠ id := by
    rintro rfl
    exact htemp hnone
  exact ⟨Function.update_of_ne hne .., Function.update_of_ne hne ..⟩

/-- A worker changes a temporary file that it holds, or meets a fault. -/
theorem safe_temp {t : Transaction storeSignature Unit} (file' : Option TempFile)
    (h : Holding i id file replaced w) (ht : ∀ fs : FileSystem, fs.temps id = some file →
      t.run fs = .ok ((), { fs with temps := Function.update fs.temps id file' })) :
    Safe (storeDiscipline store) i (.transaction none t) w
      (fun _ w' => ∀ f ∈ file', Holding i id f replaced w')
      fun _ => Holding i id file replaced := by
  refine .transaction (fun w' hr hi b s hrun _ => ?_) fun e w' hr hi _ =>
    stable_holding w w' hr hi h
  have hholds := stable_holding w w' hr hi h
  rw [ht w'.store hholds.temp] at hrun
  obtain rfl := (Prod.mk.inj (Except.ok.inj hrun)).2
  refine ⟨keeps_of ⟨hi.matched, hi.pending⟩ (fun id' howner _ => ?_) fun p hp _ => hp, trivial,
    .pure fun w₂ hr₂ hi₂ f hf => ?_⟩
  · have hne : id' ≠ id := by
      rintro rfl
      exact howner hholds.owner
    exact ⟨rfl, Function.update_of_ne hne ..⟩
  · refine stable_holding _ w₂ hr₂ hi₂ ⟨hholds.owner, ?_, hholds.replaced⟩
    obtain rfl : file' = some f := hf
    exact Function.update_self ..

theorem safe_appendTemp {written bytes : Bytes} (h : Holding i id (.object written) replaced w) :
    Safe (storeDiscipline store) i (.transaction none (appendTemp id bytes)) w
      (fun _ => Holding i id (.object (written ++ bytes)) replaced)
      fun _ => Holding i id (.object written) replaced := by
  refine (safe_temp (some (.object (written ++ bytes))) h fun fs hfs => ?_).mono
    (fun _ _ _ hall => hall _ rfl) fun _ _ _ h' => h'
  simp [appendTemp, hfs]

theorem safe_writeText {old : Option StoredObjectMetadata} {metadata : StoredObjectMetadata}
    (h : Holding i id (.sidecar old) replaced w) :
    Safe (storeDiscipline store) i (.transaction none (writeText id metadata)) w
      (fun _ => Holding i id (.sidecar (some metadata)) replaced)
      fun _ => Holding i id (.sidecar old) replaced := by
  refine (safe_temp (some (.sidecar (some metadata))) h fun fs hfs => ?_).mono
    (fun _ _ _ hall => hall _ rfl) fun _ _ _ h' => h'
  simp [writeText, hfs]

/-- Giving up a write removes the temporary file, if that succeeds. -/
theorem safe_discardTemp (h : Holding i id file replaced w) :
    Safe (storeDiscipline store) i (FsObjectStore.discardTemp id) w (fun _ _ => True) fun _ _ => True := by
  have hstable : Stable (storeDiscipline store) i (Holding i id file replaced) := stable_holding
  have hclose := (preserves_ask hstable .close).attempt hstable
  unfold FsObjectStore.discardTemp
  refine hclose.andThen h (fun _ w₁ h₁ => ?_) fun _ _ _ => trivial
  refine .bind (.attempt ((safe_temp none h₁ fun fs hfs => ?_).mono ?_ ?_))
  · simp [unlinkTemp, hfs]
  · exact fun _ _ _ _ w₂ _ _ => .pure fun _ _ _ => trivial
  · exact fun _ _ _ _ w₂ _ _ => .pure fun _ _ _ => trivial

/-! ## Writing -/

/-- A temporary file with some bytes that worker `i` holds. -/
def Partial (i : ℕ) (id : Uuid) (replaced : Option StoredObjectMetadata) (w : StoreWorld) : Prop :=
  ∃ written, Holding i id (.object written) replaced w

theorem stable_partial : Stable (storeDiscipline store) i (Partial i id replaced) := by
  rintro w w' hr hi ⟨written, h⟩
  exact ⟨written, stable_holding w w' hr hi h⟩

/-- Enough writes leave the whole buffer in the file. -/
theorem safe_writeRest (fuel : ℕ) {written rest : Bytes} {w : StoreWorld}
    (hfuel : rest.length ≤ fuel) (h : Holding i id (.object written) replaced w) :
    Safe (storeDiscipline store) i (FsObjectStore.writeRest id fuel rest) w
      (fun _ => Holding i id (.object (written ++ rest)) replaced)
      fun _ => Partial i id replaced := by
  induction fuel generalizing written rest w with
  | zero =>
      obtain rfl := List.length_eq_zero_iff.mp (Nat.le_zero.mp hfuel)
      rw [List.append_nil]
      exact .pure fun w' hr hi => stable_holding w w' hr hi h
  | succ fuel ih =>
      unfold FsObjectStore.writeRest
      by_cases hrest : rest = []
      · rw [if_pos hrest, hrest, List.append_nil]
        exact .pure fun w' hr hi => stable_holding w w' hr hi h
      · rw [if_neg hrest]
        refine (preserves_ask stable_holding (.write rest.length)).andThen h ?_
          fun _ _ h₁ => ⟨written, h₁⟩
        intro (bytesWritten : ℕ) w₁ h₁
        dsimp only
        by_cases hzero : bytesWritten = 0
        · rw [if_pos hzero]
          exact .throw fun w₂ hr hi => ⟨written, stable_holding w₁ w₂ hr hi h₁⟩
        · rw [if_neg hzero]
          have hdrop : (rest.drop bytesWritten).length ≤ fuel := by
            have hpositive := List.length_pos_iff.mpr hrest
            rw [List.length_drop]
            omega
          refine .bind ((safe_appendTemp h₁).mono (fun _ w₂ _ h₂ => ?_)
            fun _ _ _ h₂ => ⟨written, h₂⟩)
          refine (ih hdrop h₂).mono (fun _ w₃ _ h₃ => ?_) fun _ _ _ h₃ => h₃
          rwa [List.append_assoc, List.take_append_drop] at h₃

theorem safe_writeAll {written bytes : Bytes} (h : Holding i id (.object written) replaced w) :
    Safe (storeDiscipline store) i (FsObjectStore.writeAll id bytes) w
      (fun _ => Holding i id (.object (written ++ bytes)) replaced)
      fun _ => Partial i id replaced :=
  safe_writeRest bytes.length (Nat.le_refl _) h

/-- The file holds the bytes that the hash was updated with. -/
theorem safe_writeChunks (failure : Option Failure) (chunks : List Bytes) {hashed : Bytes}
    {w : StoreWorld} (h : Holding i id (.object hashed) replaced w) :
    Safe (storeDiscipline store) i (FsObjectStore.writeChunks id failure hashed chunks) w
      (fun hashed' => Holding i id (.object hashed') replaced) fun _ => Partial i id replaced := by
  induction chunks generalizing hashed w with
  | nil =>
      unfold FsObjectStore.writeChunks
      cases failure with
      | some cause => exact .throw fun w' hr hi => ⟨hashed, stable_holding w w' hr hi h⟩
      | none => exact .pure fun w' hr hi => stable_holding w w' hr hi h
  | cons chunk chunks ih =>
      unfold FsObjectStore.writeChunks
      exact .bind ((safe_writeAll h).mono (fun _ w' _ h' => ih h') fun _ _ _ h' => h')

/-! ## The renames -/

variable {o : StoreTrace} {temps : Uuid → Option TempFile}

/-- Replacing an object in an unambiguous place leaves everything in order. -/
theorem Orderly.replace {bytes : Bytes} (h : Orderly store ⟨fs, o⟩)
    (hsidecar : ∀ recorded ∈ fs.sidecars key, Agree recorded (store.describe key bytes))
    (hpending : ∀ p ∈ o.replaced, p.2.key = key → Agree p.2 (store.describe key bytes)) :
    Orderly store ⟨⟨Function.update fs.objects key (some bytes), fs.sidecars, temps⟩,
      ⟨o.owner, (i, store.describe key bytes) :: o.replaced⟩⟩ := by
  constructor
  · intro key' bytes' recorded (hobject : Function.update fs.objects key (some bytes) key' = _)
      hrecorded
    by_cases hkey : key' = key
    · subst hkey
      obtain rfl : bytes = bytes' := by simpa using hobject
      exact hsidecar recorded hrecorded
    · rw [Function.update_of_ne hkey] at hobject
      exact h.matched key' bytes' recorded hobject hrecorded
  · intro p hp bytes' (hobject : Function.update fs.objects key (some bytes) p.2.key = _)
    by_cases hkey : p.2.key = key
    · rw [hkey, Function.update_self] at hobject
      obtain rfl : bytes = bytes' := Option.some.inj hobject
      rw [hkey]
      rcases List.mem_cons.mp hp with rfl | hp
      · exact fun _ => rfl
      · exact hpending p hp hkey
    · rw [Function.update_of_ne hkey] at hobject
      rcases List.mem_cons.mp hp with rfl | hp
      · exact absurd rfl hkey
      · exact h.pending p hp bytes' hobject

/-- Writing the sidecar of an object that the worker replaced leaves everything in order. -/
theorem Orderly.record {metadata : StoredObjectMetadata} (h : Orderly store ⟨fs, o⟩)
    (hmine : (i, metadata) ∈ o.replaced) :
    Orderly store ⟨⟨fs.objects, Function.update fs.sidecars metadata.key (some metadata), temps⟩,
      o.settle i⟩ := by
  constructor
  · intro key' bytes' recorded hobject
      (hrecorded : Function.update fs.sidecars metadata.key (some metadata) key' = _)
    by_cases hkey : key' = metadata.key
    · subst hkey
      obtain rfl : metadata = recorded := by simpa using hrecorded
      exact h.pending _ hmine bytes' hobject
    · rw [Function.update_of_ne hkey] at hrecorded
      exact h.matched key' bytes' recorded hobject hrecorded
  · exact fun p hp => h.pending p (mem_settle.mp hp).1

/-- A worker that renames a file it holds leaves the other files alone. -/
theorem rename_temps (h : Holding i id file replaced w) {id' : Uuid}
    (howner : w.outside.owner id' ≠ some i) :
    Function.update w.store.temps id none id' = w.store.temps id' := by
  have hne : id' ≠ id := by
    rintro rfl
    exact howner h.owner
  exact Function.update_of_ne hne ..

theorem safe_renameObject {bytes : Bytes} (h : Holding i id (.object bytes) none w) :
    Safe (storeDiscipline store) i
      (.transaction (some (.replace (store.describe key bytes))) (renameObject id key)) w
      (fun _ => Replaced i (some (store.describe key bytes))) fun _ _ => True := by
  refine .transaction (fun w' hr hi b s hrun hpolicy => ?_) fun _ _ _ _ _ => trivial
  have hholds := stable_holding w w' hr hi h
  obtain rfl : FileSystem.mk (Function.update w'.store.objects key (some bytes)) w'.store.sidecars
      (Function.update w'.store.temps id none) = s := by
    simpa [renameObject, hholds.temp] using hrun
  refine ⟨keeps_of (Orderly.replace hi hpolicy.1 hpolicy.2)
    (fun id' howner _ => ⟨rfl, rename_temps hholds howner⟩) fun p hp _ => List.mem_cons_of_mem _ hp,
    trivial, .pure fun w₂ hr₂ hi₂ => stable_replaced _ w₂ hr₂ hi₂ ?_⟩
  intro metadata hm
  obtain rfl := Option.some.inj hm
  exact List.mem_cons_self

theorem safe_renameSidecar {metadata : StoredObjectMetadata}
    (h : Holding i id (.sidecar (some metadata)) (some metadata) w) :
    Safe (storeDiscipline store) i
      (.transaction (some (.record metadata)) (renameSidecar id metadata.key)) w
      (fun _ _ => True) fun _ _ => True := by
  refine .transaction (fun w' hr hi b s hrun _ => ?_) fun _ _ _ _ _ => trivial
  have hholds := stable_holding w w' hr hi h
  obtain rfl : FileSystem.mk w'.store.objects
      (Function.update w'.store.sidecars metadata.key (some metadata))
      (Function.update w'.store.temps id none) = s := by
    simpa [renameSidecar, hholds.temp] using hrun
  exact ⟨keeps_of (Orderly.record hi (hholds.replaced metadata rfl))
    (fun id' howner _ => ⟨rfl, rename_temps hholds howner⟩)
    fun p hp hne => mem_settle.mpr ⟨hp, hne⟩, trivial, .pure fun _ _ _ => trivial⟩

/-! ## Operations -/

/-- Syncing and closing a file changes nothing. -/
theorem preserves_finish {K : StoreWorld → Prop} (hK : Stable (storeDiscipline store) i K) :
    Preserves (storeDiscipline store) i K (do
      if store.durable then sync
      close) := by
  refine .ite (fun _ => ?_) fun _ => preserves_ask hK .close
  exact .bind (preserves_ask hK .sync) fun _ => preserves_ask hK .close

/-- Giving up a write ends it. -/
theorem safe_giveUp {e : StoreFailure} {α : Type} {Q : α → StoreWorld → Prop}
    (h : Holding i id file replaced w) :
    Safe (storeDiscipline store) i (do
      FsObjectStore.discardTemp id
      throw e) w Q fun _ _ => True :=
  .bind ((safe_discardTemp h).mono (fun _ _ _ _ => .throw fun _ _ _ => trivial)
    fun _ _ _ _ => trivial)

theorem safe_writeSidecar {metadata : StoredObjectMetadata}
    (h : Replaced i (some metadata) w) :
    Safe (storeDiscipline store) i (store.writeSidecar metadata) w (fun _ _ => True)
      fun _ _ => True := by
  unfold FsObjectStore.writeSidecar
  refine (preserves_ask stable_replaced .randomUuid).andThen h (fun (id : Uuid) w₁ h₁ => ?_)
    fun _ _ _ => trivial
  refine .bind ((safe_openExclusive h₁).mono (fun _ w₂ _ h₂ => ?_) fun _ _ _ _ => trivial)
  have hrename : ∀ w₃, Holding i id (.sidecar (some metadata)) (some metadata) w₃ →
      Safe (storeDiscipline store) i
        (.transaction (some (.record metadata)) (renameSidecar id metadata.key)) w₃
        (fun _ _ => True) fun _ _ => True := fun w₃ h₃ => safe_renameSidecar h₃
  refine .bind (.handle (.bind ((safe_writeText h₂).mono (fun _ w₃ _ h₃ => ?_)
    fun e w₃ _ h₃ => safe_giveUp h₃)))
  exact ((preserves_finish stable_holding).safe w₃ h₃).mono (fun _ w₄ _ h₄ => hrename w₄ h₄)
    fun e w₄ _ h₄ => safe_giveUp h₄

theorem preserves_assertWritable {K : StoreWorld → Prop}
    (hK : Stable (storeDiscipline store) i K) :
    Preserves (storeDiscipline store) i K store.assertWritable := by
  unfold FsObjectStore.assertWritable
  refine .ite (fun _ => ?_) fun _ => .pure hK ()
  refine .bind (.attempt hK (preserves_ask hK .mkdir)) fun _ => ?_
  refine .bind (.attempt hK (preserves_ask hK .freeBytes)) fun available => ?_
  cases available with
  | error e => exact .pure hK ()
  | ok available => exact .ite (fun _ => .throw hK _) fun _ => .pure hK ()

theorem safe_writeObject (source : ByteSource) :
    Safe (storeDiscipline store) i (store.writeObject key source) w (fun _ _ => True)
      fun _ _ => True := by
  have hnothing : Replaced i none w := fun _ h => nomatch h
  unfold FsObjectStore.writeObject
  refine (preserves_assertWritable stable_replaced).andThen hnothing (fun _ w₁ h₁ => ?_)
    fun _ _ _ => trivial
  refine (Preserves.ofExcept stable_replaced _).andThen h₁ (fun _ w₂ h₂ => ?_) fun _ _ _ => trivial
  refine (preserves_ask stable_replaced .mkdir).andThen h₂ (fun _ w₃ h₃ => ?_) fun _ _ _ => trivial
  refine (preserves_ask stable_replaced .randomUuid).andThen h₃ (fun (id : Uuid) w₄ h₄ => ?_)
    fun _ _ _ => trivial
  refine .bind ((safe_openExclusive h₄).mono (fun _ w₅ _ h₅ => ?_) fun _ _ _ _ => trivial)
  have hfail : ∀ e w₆, Partial i id none w₆ → Safe (storeDiscipline store) i (do
      FsObjectStore.discardTemp id
      if fromStorageLayer e then
        throw (.storage .ioFailed s!"Failed to write object {key}: {errorText e}")
      throw e : StoreProgram Bytes) w₆
      (fun hashed => Holding i id (.object hashed) none) fun _ _ => True := by
    rintro e w₆ ⟨written, h₆⟩
    refine .bind ((safe_discardTemp h₆).mono (fun _ w₇ _ _ => ?_) fun _ _ _ _ => trivial)
    dsimp only
    split
    · exact .throw fun _ _ _ => trivial
    · exact .throw fun _ _ _ => trivial
  have hbody : Safe (storeDiscipline store) i (do
      let hashed ← FsObjectStore.writeChunks id source.failure [] source.chunks
      if store.durable then sync
      close
      return hashed) w₅ (fun hashed => Holding i id (.object hashed) none)
      fun _ => Partial i id none := by
    refine .bind ((safe_writeChunks _ _ h₅).mono (fun hashed w₆ _ h₆ => ?_) fun _ _ _ h₆ => h₆)
    have hclose : ∀ w₇, Holding i id (.object hashed) none w₇ →
        Safe (storeDiscipline store) i (do
          close
          return hashed) w₇ (fun hashed => Holding i id (.object hashed) none)
          fun _ => Partial i id none := fun w₇ h₇ =>
      (preserves_ask stable_holding .close).andThen h₇
        (fun _ w₈ h₈ => .pure fun w₉ hr hi => stable_holding w₈ w₉ hr hi h₈)
        fun _ _ h₈ => ⟨hashed, h₈⟩
    dsimp only
    split
    · exact (preserves_ask stable_holding .sync).andThen h₆ (fun _ w₇ h₇ => hclose w₇ h₇)
        fun _ _ h₇ => ⟨hashed, h₇⟩
    · exact hclose w₆ h₆
  refine .bind ((Safe.handle (hbody.mono (fun _ _ _ h₆ => h₆) fun e w₆ _ h₆ => hfail e w₆ h₆)).mono
    (fun hashed w₆ _ h₆ => ?_) fun _ _ _ _ => trivial)
  refine .bind ((safe_renameObject h₆).mono (fun _ w₇ _ h₇ => ?_) fun _ _ _ _ => trivial)
  refine .bind ((safe_writeSidecar h₇).mono (fun _ w₈ _ _ => ?_) fun _ _ _ _ => trivial)
  exact ((Preserves.ite (fun _ => .bind (preserves_ask Stable.trivial .sync) fun _ =>
    .pure Stable.trivial _) fun _ => .pure Stable.trivial _).safe w₈ trivial)

/-- Removing a file that is there, or meeting a fault. -/
theorem safe_unlink {t : Transaction storeSignature Unit}
    (ht : ∀ fs fs', t.run fs = .ok ((), fs') → fs'.temps = fs.temps ∧
      (∀ key bytes, fs'.objects key = some bytes → fs.objects key = some bytes) ∧
      ∀ key recorded, fs'.sidecars key = some recorded → fs.sidecars key = some recorded) :
    Preserves (storeDiscipline store) i (fun _ => True) (.transaction none t) := by
  refine ⟨fun w _ => .transaction (fun w' hr hi b s hrun _ => ?_) fun _ _ _ _ _ => trivial⟩
  obtain ⟨htemps, hobjects, hsidecars⟩ := ht w'.store s hrun
  refine ⟨keeps_of ⟨?_, ?_⟩ (fun id _ _ => ⟨rfl, congrFun htemps id⟩) fun p hp _ => hp, trivial,
    .pure fun _ _ _ => trivial⟩
  · exact fun key bytes recorded hobject hrecorded =>
      hi.matched key bytes recorded (hobjects _ _ hobject) (hsidecars _ _ hrecorded)
  · exact fun p hp bytes hobject => hi.pending p hp bytes (hobjects _ _ hobject)

/-- A key that is no longer there was there with any value it still has. -/
theorem of_update_none {α : Type} {f : String → Option α} {key' : String} {a : α}
    (h : Function.update f key none key' = some a) : f key' = some a := by
  by_cases hkey : key' = key
  · subst hkey
    simp at h
  · rwa [Function.update_of_ne hkey] at h

theorem preserves_unlinkObject : Preserves (storeDiscipline store) i (fun _ => True)
    (.transaction none (unlinkObject key)) := by
  refine safe_unlink fun fs fs' hrun => ?_
  cases hobject : fs.objects key with
  | none => simp [unlinkObject, hobject] at hrun
  | some bytes =>
      obtain rfl : { fs with objects := Function.update fs.objects key none } = fs' := by
        simpa [unlinkObject, hobject] using hrun
      exact ⟨rfl, fun _ _ h => of_update_none h, fun _ _ h => h⟩

theorem preserves_unlinkSidecar : Preserves (storeDiscipline store) i (fun _ => True)
    (.transaction none (unlinkSidecar key)) := by
  refine safe_unlink fun fs fs' hrun => ?_
  cases hsidecar : fs.sidecars key with
  | none => simp [unlinkSidecar, hsidecar] at hrun
  | some recorded =>
      obtain rfl : { fs with sidecars := Function.update fs.sidecars key none } = fs' := by
        simpa [unlinkSidecar, hsidecar] using hrun
      exact ⟨rfl, fun _ _ h => h, fun _ _ h => of_update_none h⟩

theorem preserves_remove : Preserves (storeDiscipline store) i (fun _ => True)
    (store.remove key) := by
  unfold FsObjectStore.remove
  refine .bind (.ofExcept Stable.trivial _) fun _ => ?_
  refine .bind (.tryCatch (.bind preserves_unlinkObject fun _ => .pure Stable.trivial _) fun e =>
    .ite (fun _ => .pure Stable.trivial _) fun _ => .throw Stable.trivial _) fun removed => ?_
  refine .bind (.attempt Stable.trivial preserves_unlinkSidecar) fun _ => ?_
  exact .ite (fun _ => .bind (preserves_ask Stable.trivial .sync) fun _ => .pure Stable.trivial _)
    fun _ => .pure Stable.trivial _

/-- Every operation is safe. -/
theorem safe_op (op : StoreOp) : Safe (storeDiscipline store) i (op.run store) w (fun _ _ => True)
    fun _ _ => True := by
  cases op with
  | put key bytes =>
      exact .bind ((safe_writeObject _).mono (fun _ _ _ _ => .pure fun _ _ _ => trivial)
        fun _ _ _ _ => trivial)
  | putStream key chunks =>
      exact .bind ((safe_writeObject chunks).mono (fun _ _ _ _ => .pure fun _ _ _ => trivial)
        fun _ _ _ _ => trivial)
  | remove key =>
      exact .bind ((preserves_remove.safe w trivial).mono
        (fun _ _ _ _ => .pure fun _ _ _ => trivial) fun _ _ _ _ => trivial)

/-- A store in which nothing runs yet. -/
def storeConfig (fs : FileSystem) : Config storeSignature StoreTrace := ⟨⟨fs, .empty⟩, []⟩

/-- **Objects and their metadata agree** in every run that puts no object in the place of another
one of its size while metadata of that one is recorded or still to be recorded. -/
theorem objects_consistent {c : Config storeSignature StoreTrace} (hfs : Matched store fs)
    (h : Reaches (storeSystem store) unambiguous (storeConfig fs) c) (key : String) :
    Consistent store key c.world.store := by
  have hstart : (storeConfig fs).Sound (storeDiscipline store) :=
    ⟨⟨hfs, fun _ hp => absurd hp List.not_mem_nil⟩, fun _ _ hp => by simp [storeConfig] at hp⟩
  have hsound := h.sound hstart fun op _ _ => safe_op op
  exact consistent_of_matched hsound.inv.matched

/-! ## Samples -/

/-- A durable store, with the digests of two short objects. -/
def sampleStore : FsObjectStore where
  storageClass := .durable
  minFreeBytes := 0
  sha256Hex := fun bytes =>
    if bytes = [1] then "4bf5122f344554c53bde2ebb8cd2b7e3d1600ad631c385a5d7cce23c7785459a"
    else "dbc1b4c900ffe48d575b5da5c638040125f65db0fe3e24494b76ea986457d986"

/-- Answers in which everything works. -/
def sampleAnswer (id : Uuid) : (c : StoreCall) → Except StoreFailure c.Answer
  | .randomUuid => .ok id
  | .freeBytes => .ok (0 : ℕ)
  | .write size => .ok size
  | .mkdir | .sync | .close => .ok ()

/-- Worker `i` starts a put of one byte and renames it over the object of the key. -/
def sampleReplace (i : ℕ) (id : Uuid) (byte : UInt8) : List (Event (storeSystem sampleStore)) :=
  [.spawn (.put "originals/1.eml" [byte]), .answer i (sampleAnswer id),
    .answer i (sampleAnswer id), .commit i, .answer i (sampleAnswer id), .commit i,
    .answer i (sampleAnswer id), .answer i (sampleAnswer id), .commit i]

/-- Worker `i` goes on to write the sidecar. -/
def sampleRecord (i : ℕ) (id : Uuid) : List (Event (storeSystem sampleStore)) :=
  [.answer i (sampleAnswer id), .commit i, .commit i, .answer i (sampleAnswer id),
    .answer i (sampleAnswer id), .commit i, .answer i (sampleAnswer id)]

/-- What `stat` and `get` answer about a key. -/
def answersFor (key : String) (c : Config storeSignature StoreTrace) :
    Option (StoredObjectMetadata × Bytes) :=
  match (sampleStore.stat key).alone c.world.store with
  | some (.ok (some metadata), fs) =>
      match (FsObjectStore.get key).alone fs with
      | some (.ok bytes, _) => some (metadata, bytes)
      | _ => none
  | _ => none

/-- The answers about a consistent key belong together. -/
theorem answersFor_consistent {c : Config storeSignature StoreTrace}
    {metadata : StoredObjectMetadata} {bytes : Bytes}
    (h : Consistent sampleStore key c.world.store)
    (hanswers : answersFor key c = some (metadata, bytes)) :
    metadata.sha256 = sampleStore.sha256Hex bytes := by
  unfold answersFor at hanswers
  split at hanswers
  next metadata' fs hstat =>
    obtain ⟨bytes', hget, hsha, -⟩ := h metadata' fs hstat
    rw [hget] at hanswers
    obtain ⟨rfl, rfl⟩ : metadata' = metadata ∧ bytes' = bytes := by simpa using hanswers
    exact hsha
  next => cases hanswers

/-- Two puts of one byte, the second one with a crash between its renames: the sidecar of the first
object is taken for the one of the second. -/
theorem stale_sidecar : ∃ c, Matched sampleStore FileSystem.empty ∧
    Reaches (storeSystem sampleStore) .free (storeConfig .empty) c ∧
      ¬ Consistent sampleStore "originals/1.eml" c.world.store := by
  have h : ((storeConfig .empty).run (storeSystem sampleStore) (sampleReplace 0 1 1 ++
      sampleRecord 0 2 ++ sampleReplace 1 3 2 ++ [.stop 1])).map (answersFor "originals/1.eml") =
        some (some (sampleStore.describe "originals/1.eml" [1], [2])) := by decide +kernel
  obtain ⟨c, hrun, hanswers⟩ := Option.map_eq_some_iff.mp h
  refine ⟨c, matched_empty, .of_run hrun, fun hconsistent => ?_⟩
  exact absurd (answersFor_consistent hconsistent hanswers) (by decide +kernel)

/-- Whether an event replaces an object only in an unambiguous place. -/
def isUnambiguous (c : Config storeSignature StoreTrace) :
    Event (storeSystem store) → Bool
  | .commit i =>
      match c.standsAt i with
      | some (.replace metadata) =>
          ((c.world.store.sidecars metadata.key).all fun recorded =>
            decide (Agree recorded metadata)) &&
          c.world.outside.replaced.all fun p =>
            p.2.key != metadata.key || decide (Agree p.2 metadata)
      | _ => true
  | _ => true

theorem unambiguous_of_isUnambiguous {c : Config storeSignature StoreTrace}
    {e : Event (storeSystem store)} (h : isUnambiguous c e = true) :
    unambiguous.Meets (storeSystem store) c e := by
  cases e with
  | commit i =>
      intro β tag f k b fs hp _
      cases tag with
      | none => trivial
      | some tag =>
          cases tag with
          | create id => trivial
          | record metadata => trivial
          | replace metadata =>
              simp only [isUnambiguous, Config.standsAt, hp, Bool.and_eq_true, List.all_eq_true,
                Bool.or_eq_true, bne_iff_ne, decide_eq_true_eq] at h
              refine ⟨fun recorded hrecorded => ?_, fun p hmem hkey => ?_⟩
              · have hall := h.1
                rw [Option.mem_def.mp hrecorded] at hall
                simpa using hall
              · exact (h.2 p hmem).resolve_left fun hne => hne hkey
  | answer i r => exact fun _ _ _ _ _ => trivial
  | spawn op | abort i e | stop i | tick t => trivial

/-- Two puts of one object overlap, and one of them dies between its renames. -/
theorem objects_consistent_sample : ∃ c,
    (storeConfig .empty).runChecked (storeSystem sampleStore) isUnambiguous (sampleReplace 0 1 1 ++
      sampleReplace 1 3 1 ++ sampleRecord 0 2 ++ [.stop 1]) = some c ∧
      answersFor "originals/1.eml" c =
        some (sampleStore.describe "originals/1.eml" [1], [1]) ∧
      Consistent sampleStore "originals/1.eml" c.world.store := by
  have h : ((storeConfig .empty).runChecked (storeSystem sampleStore) isUnambiguous
      (sampleReplace 0 1 1 ++ sampleReplace 1 3 1 ++ sampleRecord 0 2 ++ [.stop 1])).map
        (answersFor "originals/1.eml") =
      some (some (sampleStore.describe "originals/1.eml" [1], [1])) := by decide +kernel
  obtain ⟨c, hrun, hanswers⟩ := Option.map_eq_some_iff.mp h
  have hreach : Reaches (storeSystem sampleStore) unambiguous (storeConfig .empty) c :=
    .of_runChecked (fun _ _ => unambiguous_of_isUnambiguous) hrun
  exact ⟨c, hrun, hanswers, objects_consistent matched_empty hreach _⟩

end MailHub.Storage
