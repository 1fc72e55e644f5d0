import MailHub.Interleaving.Safety
import MailHub.Reading.Attachments

/-!
# Downloads that belong together

A regeneration verifies its bytes against the row that it reads, and serves the name and the media
type of the row that its update returns. Every download belongs together, and every failure has a
name, in each run in which the row is still there at that update and still records what was
verified, or still has the name and the media type that were read.
-/

namespace MailHub.Reading

open MailHub Relational Interleaving

open ReadingProgram (lift query ask)

/-! ## The system -/

/-- One operation next to a download. -/
inductive ReadingOp
  | download (messageId attachmentId : Uuid)
  | regenerateAttachment (attachmentId : Uuid)
  | ingest (fresh : Uuid × String → Uuid) (accountId messageId : Uuid) (parsed : ParsedMessage)
      (derived : DerivedBody) (storageKey sha256 : String) (sizeBytes : ℕ) (now : Instant)
  /-- Any transaction of another service. -/
  | elsewhere (t : Transaction readingSignature Unit)

/-- The program of one operation. -/
def ReadingOp.run (libs : ReadingLibraries) : ReadingOp → ReadingProgram Unit
  | download messageId attachmentId => Reading.download libs messageId attachmentId
  | regenerateAttachment attachmentId => do
      let _ ← Reading.regenerateAttachment libs attachmentId
  | ingest fresh accountId messageId parsed derived storageKey sha256 sizeBytes now =>
      Program.transaction none
        (Reading.ingest fresh accountId messageId parsed derived storageKey sha256 sizeBytes now)
  | elsewhere t => Program.transaction none t

/-- What is recorded about a run: every version that a row of the attachments had, and what went to
the clients. -/
structure ReadingTrace where
  versions : List (Uuid × Attachment)
  served : List (Uuid × OpenedAttachment)
  refused : List Failure
  deriving DecidableEq, Repr

/-- The versions of the rows at one moment. -/
def versionsOf (s : ReadingTables) : List (Uuid × Attachment) :=
  s.rows.rows.map fun a => (a.id, a.part)

/-- A failure that the code names. -/
def isNamed : Failure → Bool
  | .typeError _ => false
  | _ => true

/-- The record after one answer, or `none` when it cannot be given. -/
def ReadingTrace.respond (o : ReadingTrace) : (c : ReadingCall) →
    Except Failure (ReadingCall.Answer c) → Option ReadingTrace
  | .serve id opened, .ok _ => some { o with served := (id, opened) :: o.served }
  | .refuse e, .ok _ => some { o with refused := e :: o.refused }
  | _, .ok _ => some o
  | _, .error e => if isNamed e then some o else none

/-- Any number of readers next to ingestions and other services; storage may answer anything. -/
def readingSystem (libs : ReadingLibraries) : System readingSignature ReadingTrace where
  Op := ReadingOp
  program := ReadingOp.run libs
  Tick := Empty
  advance := fun t => nomatch t
  respond := fun _ c r o => o.respond c r
  fault := Failure.isDatabaseFault
  observe := fun _ _ s s' o =>
    { o with versions := o.versions ++ (versionsOf s').filter fun v => v ∉ versionsOf s }
  observe_read := fun _ s o => by
    have hnone : ((versionsOf s).filter fun v => v ∉ versionsOf s) = [] := by
      rw [List.filter_eq_nil_iff]
      intro v hv
      simpa using hv
    rw [hnone, List.append_nil]
  retire := fun _ o => o

/-- The tables and the record. -/
abbrev ReadingWorld := World readingSignature ReadingTrace

variable {libs : ReadingLibraries} {i : ℕ} {w w' : ReadingWorld} {s s' : ReadingTables}
variable {id messageId attachmentId : Uuid} {α : Type}

/-! ## What a download promises -/

/-- The bytes and the names of a download are those of one version of the row. -/
def Paired (libs : ReadingLibraries) (versions : List (Uuid × Attachment)) (id : Uuid)
    (opened : OpenedAttachment) : Prop :=
  ∃ part, (id, part) ∈ versions ∧ opened.attachment.filename = part.filename ∧
    opened.attachment.contentType = part.contentType ∧
    libs.sha256Hex opened.bytes = part.decodedSha256 ∧ opened.bytes.length = part.sizeBytes

/-- Every download so far belongs together, and every failure has a name. -/
structure Answered (libs : ReadingLibraries) (o : ReadingTrace) : Prop where
  served : ∀ p ∈ o.served, Paired libs o.versions p.1 p.2
  refused : ∀ e ∈ o.refused, isNamed e = true

/-- When a regeneration updates the row, it is still there, and it still records the hash and the
size that were verified, or still has the file name and the media type that were read. -/
def stillVerified : Policy readingSignature ReadingTrace where
  commit _ tag w _ :=
    match tag with
    | some (.storeCopy id verified) => ∃ a, w.store.attachment? id = some a ∧
        (a.part.decodedSha256 = verified.decodedSha256 ∧ a.part.sizeBytes = verified.sizeBytes ∨
          a.part.filename = verified.filename ∧ a.part.contentType = verified.contentType)
    | none => True
  call _ _ _ _ := True

/-! ## The discipline -/

/-- The answers are in order, and every row that is there is a version that was recorded. -/
structure Recorded (libs : ReadingLibraries) (w : ReadingWorld) : Prop where
  answered : Answered libs w.outside
  current : ∀ v ∈ versionsOf w.store, v ∈ w.outside.versions

/-- The discipline of the reader: recorded versions stay recorded. -/
def readingDiscipline (libs : ReadingLibraries) : Discipline (readingSystem libs) where
  inv := Recorded libs
  rely := fun _ w w' => ∀ v ∈ w.outside.versions, v ∈ w'.outside.versions
  assumes := stillVerified
  ensures := .free
  rely_refl := fun _ _ _ h => h
  rely_trans := fun _ _ _ _ h₁ h₂ v hv => h₂ v (h₁ v hv)
  ensures_read := fun _ _ _ => trivial
  inv_tick := fun _ t => nomatch t
  rely_tick := fun _ _ t => nomatch t
  inv_retire := fun _ _ h => h
  rely_retire := fun _ _ _ _ _ _ h => h

theorem Paired.mono {versions versions' : List (Uuid × Attachment)} {opened : OpenedAttachment}
    (h : Paired libs versions id opened) (hsub : ∀ v ∈ versions, v ∈ versions') :
    Paired libs versions' id opened := by
  obtain ⟨part, hpart, hrest⟩ := h
  exact ⟨part, hsub _ hpart, hrest⟩

/-- Every commit keeps the record in order, whatever it does to the rows. -/
theorem keeps_commit (tag : Option ReadingTag) (s : ReadingTables) (h : Recorded libs w) :
    (readingDiscipline libs).Keeps i w (Config.committed (readingSystem libs) w i tag s) := by
  have hgrows : ∀ v ∈ w.outside.versions,
      v ∈ (Config.committed (readingSystem libs) w i tag s).outside.versions :=
    fun v hv => List.mem_append_left _ hv
  refine ⟨⟨⟨fun p hp => (h.answered.served p hp).mono hgrows, h.answered.refused⟩, ?_⟩,
    fun j _ => hgrows⟩
  intro v hv
  by_cases hold : v ∈ versionsOf w.store
  · exact hgrows v (h.current v hold)
  · exact List.mem_append_right _ (List.mem_filter.mpr ⟨hv, decide_eq_true hold⟩)

/-- A version that was recorded. -/
def Version (id : Uuid) (part : Attachment) (w : ReadingWorld) : Prop :=
  (id, part) ∈ w.outside.versions

theorem stable_version {part : Attachment} :
    Stable (readingDiscipline libs) i (Version id part) := fun _ _ hr _ h => hr _ h

/-- Every failure has a name. -/
def Named (e : Failure) (_ : ReadingWorld) : Prop := isNamed e = true

theorem named_of_databaseFault {e : Failure} (h : e.isDatabaseFault = true) : isNamed e = true := by
  cases e <;> first | rfl | cases h

/-! ## Steps -/

/-- A request other than the last one of a download leaves the record alone. -/
theorem safe_ask {c : ReadingCall} {K : ReadingWorld → Prop}
    (hK : Stable (readingDiscipline libs) i K) (h : K w)
    (hserve : ∀ id opened, c ≠ .serve id opened) (hrefuse : ∀ e, c ≠ .refuse e) :
    Safe (readingDiscipline libs) i (ask c) w (fun _ => K) fun e w' => Named e w' ∧ K w' := by
  refine .request fun w' hr hi r o ho _ => ?_
  have hsame : w'.outside = o ∧ ∀ e, r = .error e → isNamed e = true := by
    have hrespond : w'.outside.respond c r = some o := ho
    cases r with
    | ok x =>
        cases c with
        | serve id opened => exact absurd rfl (hserve id opened)
        | refuse e => exact absurd rfl (hrefuse e)
        | now | disposableGet | disposablePut | durableGet =>
            exact ⟨Option.some.inj hrespond, fun e he => by cases he⟩
    | error e =>
        have hnamed : (if isNamed e then some w'.outside else none) = some o := by
          cases c <;> exact hrespond
        split at hnamed
        next hname =>
          refine ⟨Option.some.inj hnamed, fun e' he => ?_⟩
          obtain rfl := Except.error.inj he
          exact hname
        next => cases hnamed
  obtain ⟨rfl, hnamed⟩ := hsame
  exact ⟨⟨hi, fun j _ => (readingDiscipline libs).rely_refl j w'⟩, trivial,
    .ofExcept (fun _ _ w₂ hr₂ hi₂ => hK w' w₂ hr₂ hi₂ (hK w w' hr hi h))
      fun e he w₂ hr₂ hi₂ => ⟨hnamed e he, hK w' w₂ hr₂ hi₂ (hK w w' hr hi h)⟩⟩

/-- A query returns what the tables hold at a moment at which the record is in order. -/
theorem safe_query {f : ReadingTables → α} {Q : α → ReadingWorld → Prop}
    (hQ : ∀ w', Recorded libs w' → ∀ w₂, (∀ v ∈ w'.outside.versions, v ∈ w₂.outside.versions) →
      Q (f w'.store) w₂) : Safe (readingDiscipline libs) i (query f) w Q Named :=
  .read (fun w' _ hi => .pure fun w₂ hr₂ _ => hQ w' hi w₂ hr₂)
    fun _ _ hfault _ _ => named_of_databaseFault hfault

theorem safe_lift {r : Except Failure α} {K : ReadingWorld → Prop}
    (hK : Stable (readingDiscipline libs) i K) (h : K w)
    (hnamed : ∀ e, r = .error e → isNamed e = true) :
    Safe (readingDiscipline libs) i (lift r) w (fun _ => K) Named :=
  .ofExcept (fun _ _ w' hr hi => hK w w' hr hi h) fun e he _ _ _ => hnamed e he

/-- A failed check refuses by its name. -/
theorem safe_throw {e : Failure} {Q : α → ReadingWorld → Prop} (h : isNamed e = true) :
    Safe (readingDiscipline libs) i (throw e) w Q Named :=
  .throw fun _ _ _ => h

/-- A row that a query finds is a version that was recorded. -/
theorem version_of_mem {a : AttachmentRow} (h : Recorded libs w) (ha : a ∈ w.store.rows.rows) :
    Version a.id a.part w :=
  h.current _ (List.mem_map_of_mem ha)

theorem attachment?_mem {a : AttachmentRow} (h : s.attachment? id = some a) :
    a ∈ s.rows.rows ∧ a.id = id := by
  unfold ReadingTables.attachment? at h
  exact ⟨List.mem_of_find?_eq_some h, by simpa using List.find?_some h⟩

/-- Rewriting the rows of one identifier rewrites the first one. -/
theorem find?_map_rewrite {f : AttachmentRow → AttachmentRow} (hf : ∀ a, (f a).id = a.id)
    (rows : List AttachmentRow) :
    (rows.map fun a => if a.id == id then f a else a).find? (·.id == id) =
      (rows.find? (·.id == id)).map f := by
  induction rows with
  | nil => rfl
  | cons a rest ih =>
      by_cases hid : a.id == id
      · have hrewritten : (f a).id == id := by rwa [hf a]
        simp only [List.map_cons, hid, if_true, List.find?_cons, hrewritten, Option.map_some]
      · simp only [List.map_cons, List.find?_cons, hid, if_false, Bool.false_eq_true, ih]

/-- What the update of a regeneration returns: the row with its new copy. -/
theorem storeCopy_run {key : String} {now : Time} {updated : Option AttachmentRow}
    (h : (storeCopy id key now).run s = .ok (updated, s')) :
    updated = (s.attachment? id).map fun a =>
      { a with storageKey := some key, fetchedAt := some now } := by
  simp only [storeCopy, StateT.run_bind, StateT.run_get, StateT.run_set, StateT.run_pure] at h
  obtain ⟨rfl, -⟩ := Prod.mk.inj (Except.ok.inj h)
  exact find?_map_rewrite (f := fun a => { a with storageKey := some key, fetchedAt := some now })
    (fun _ => rfl) s.rows.rows

/-- The row that a regeneration returns has the names of a version with the verified hash and
size. -/
def Matches (verified : Attachment) (id : Uuid) (updated : Option AttachmentRow)
    (w : ReadingWorld) : Prop :=
  ∃ row part, updated = some row ∧ Version id part w ∧ row.part.filename = part.filename ∧
    row.part.contentType = part.contentType ∧ part.decodedSha256 = verified.decodedSha256 ∧
    part.sizeBytes = verified.sizeBytes

theorem stable_matches {verified : Attachment} {updated : Option AttachmentRow} :
    Stable (readingDiscipline libs) i (Matches verified id updated) := by
  rintro w w' hr - ⟨row, part, hrow, hpart, hrest⟩
  exact ⟨row, part, hrow, hr _ hpart, hrest⟩

/-- An update that finds the row still verified returns a matching row. -/
theorem safe_storeCopy {verified : Attachment} {key : String} {now : Time}
    (h : Version id verified w) :
    Safe (readingDiscipline libs) i
      (.transaction (some (.storeCopy id verified)) (storeCopy id key now)) w
      (Matches verified id) Named := by
  refine .transaction (fun w' hr hi updated s hrun hpolicy => ?_) fun e w' hr hi he => ?_
  · have hkeep := keeps_commit (i := i) (some (.storeCopy id verified)) s hi
    obtain ⟨a, ha, hstill⟩ := hpolicy
    obtain ⟨hmem, rfl⟩ := attachment?_mem ha
    have hupdated := storeCopy_run hrun
    rw [ha, Option.map_some] at hupdated
    have hmatches : Matches verified a.id updated w' := by
      rcases hstill with ⟨hsha, hsize⟩ | ⟨hname, htype⟩
      · exact ⟨_, a.part, hupdated, version_of_mem hi hmem, rfl, rfl, hsha, hsize⟩
      · exact ⟨_, verified, hupdated, stable_version w w' hr hi h, hname, htype, rfl, rfl⟩
    have hgrows : ∀ v ∈ w'.outside.versions, v ∈ (Config.committed (readingSystem libs) w' i
        (some (.storeCopy a.id verified)) s).outside.versions :=
      fun v hv => List.mem_append_left _ hv
    exact ⟨hkeep, trivial, .pure fun w₂ hr₂ hi₂ => stable_matches w' w₂
      ((readingDiscipline libs).rely_trans i _ _ _ hgrows hr₂) hi₂ hmatches⟩
  · rcases he with hfault | ⟨s, hrun⟩
    · exact named_of_databaseFault hfault
    · cases hrun

/-! ## Regeneration -/

/-- What a regeneration returns: bytes with the hash and the size of a version whose names the
returned row has. -/
def Regenerated (libs : ReadingLibraries) (id : Uuid) (r : RegeneratedAttachment)
    (w : ReadingWorld) : Prop :=
  ∃ row part, r.attachment = some row ∧ Version id part w ∧ row.part.filename = part.filename ∧
    row.part.contentType = part.contentType ∧ libs.sha256Hex r.bytes = part.decodedSha256 ∧
    r.bytes.length = part.sizeBytes

theorem parseMime_named {bytes : Bytes} {e : Failure} (h : libs.parseMime bytes = .error e) :
    isNamed e = true := by
  unfold ReadingLibraries.parseMime at h
  split at h
  next => cases h
  next cause _ =>
    obtain rfl := Except.error.inj h
    rfl

/-- The end of a regeneration: the copy is stored, and the row points to it. -/
theorem safe_finish {verified : Attachment} {bytes : Bytes} {key : String}
    (h : Version id verified w) (hsha : libs.sha256Hex bytes = verified.decodedSha256)
    (hsize : bytes.length = verified.sizeBytes) :
    Safe (readingDiscipline libs) i (do
      let _ : Unit ← ask (.disposablePut key bytes)
      let now : Time ← ask .now
      let updated ← Program.transaction (some (.storeCopy id verified)) (storeCopy id key now)
      return (⟨updated, bytes⟩ : RegeneratedAttachment)) w (Regenerated libs id) Named := by
  refine .bind ((safe_ask stable_version h (by simp) (by simp)).mono (fun _ w₁ _ h₁ => ?_)
    fun _ _ _ he => he.1)
  refine .bind ((safe_ask stable_version h₁ (by simp) (by simp)).mono (fun now w₂ _ h₂ => ?_)
    fun _ _ _ he => he.1)
  refine .bind ((safe_storeCopy h₂).mono (fun updated w₃ _ h₃ => ?_) fun _ _ _ he => he)
  refine .pure fun w₄ hr₄ hi₄ => ?_
  obtain ⟨row, part, hrow, hpart, hname, htype, hsha', hsize'⟩ := stable_matches w₃ w₄ hr₄ hi₄ h₃
  exact ⟨row, part, hrow, hpart, hname, htype, hsha.trans hsha'.symm, hsize.trans hsize'.symm⟩

theorem safe_verify {key sha256 : String} {K : ReadingWorld → Prop}
    (hK : Stable (readingDiscipline libs) i K) (h : K w) :
    Safe (readingDiscipline libs) i (verify libs key sha256) w (fun _ => K) Named :=
  .bind ((safe_ask hK h (by simp) (by simp)).mono
    (fun _ w₁ _ h₁ => .pure fun w₂ hr₂ hi₂ => hK w₁ w₂ hr₂ hi₂ h₁) fun _ _ _ he => he.1)

theorem safe_regenerateAttachment :
    Safe (readingDiscipline libs) i (regenerateAttachment libs id) w (Regenerated libs id) Named := by
  unfold regenerateAttachment
  have hfind : Safe (readingDiscipline libs) i (query (attachmentWithMessage id)) w
      (fun found w' => ∀ p, found = some p → p.1.id = id ∧ Version id p.1.part w') Named := by
    refine safe_query fun w' hi w₂ hr p hp => ?_
    unfold attachmentWithMessage at hp
    obtain ⟨row, hrow, hp⟩ := Option.bind_eq_some_iff.mp hp
    obtain ⟨message, -, hp⟩ := Option.bind_eq_some_iff.mp hp
    obtain rfl := Option.some.inj hp
    obtain ⟨hmem, rfl⟩ := attachment?_mem hrow
    exact ⟨rfl, hr _ (version_of_mem hi hmem)⟩
  refine .bind (hfind.mono (fun found w₁ _ h₁ => ?_) fun _ _ _ he => he)
  cases found with
  | none => exact safe_throw rfl
  | some p =>
      obtain ⟨attachment, message⟩ := p
      obtain ⟨rfl, hversion⟩ := h₁ _ rfl
      dsimp only
      split
      · exact safe_throw rfl
      split
      next originalStorageKey originalSha256 _ _ =>
        refine .bind ((safe_verify stable_version hversion).mono (fun verified w₂ _ h₂ => ?_)
          fun _ _ _ he => he)
        split
        · exact safe_throw rfl
        refine .bind ((safe_ask stable_version h₂ (by simp) (by simp)).mono
          (fun original w₃ _ h₃ => ?_) fun _ _ _ he => he.1)
        refine .bind ((safe_lift stable_version h₃ fun _ => parseMime_named).mono
          (fun parts w₄ _ h₄ => ?_) fun _ _ _ he => he)
        split
        · exact safe_throw rfl
        next part _ =>
          split
          · exact safe_throw rfl
          next hmatch =>
            push Not at hmatch
            exact safe_finish h₄ hmatch.1 hmatch.2
      next => exact safe_throw rfl

/-! ## Downloads -/

/-- A download belongs together with a version that was recorded. -/
def Opened (libs : ReadingLibraries) (id : Uuid) (opened : OpenedAttachment) (w : ReadingWorld) :
    Prop :=
  Paired libs w.outside.versions id opened

theorem stable_opened {opened : OpenedAttachment} :
    Stable (readingDiscipline libs) i (Opened libs id opened) := fun _ _ hr _ h => h.mono hr

/-- A cached copy that is served has the hash and the size of the row. -/
theorem safe_readVerifiedCache {stored : AttachmentRow} {key : String} {K : ReadingWorld → Prop}
    (hK : Stable (readingDiscipline libs) i K) (h : K w) :
    Safe (readingDiscipline libs) i (readVerifiedCache libs stored key) w
      (fun cached w' => K w' ∧ ∀ bytes, cached = some bytes →
        libs.sha256Hex bytes = stored.part.decodedSha256 ∧ bytes.length = stored.part.sizeBytes)
      Named := by
  unfold readVerifiedCache
  have hmiss : ∀ w₁ w₂, K w₁ → (readingDiscipline libs).rely i w₁ w₂ →
      (readingDiscipline libs).inv w₂ → K w₂ ∧ ∀ bytes, (none : Option Bytes) = some bytes →
        libs.sha256Hex bytes = stored.part.decodedSha256 ∧ bytes.length = stored.part.sizeBytes :=
    fun w₁ w₂ h₁ hr hi => ⟨hK w₁ w₂ hr hi h₁, fun bytes hbytes => by cases hbytes⟩
  refine .bind (.attempt ((safe_ask hK h (by simp) (by simp)).mono
    (fun bytes w₁ _ h₁ w₂ hr₂ hi₂ => ?_)
    fun e w₁ _ he w₂ hr₂ hi₂ => .pure fun w₃ hr₃ hi₃ =>
      hmiss w₂ w₃ (hK w₁ w₂ hr₂ hi₂ he.2) hr₃ hi₃))
  have h₂ := hK w₁ w₂ hr₂ hi₂ h₁
  dsimp only
  split
  · exact .pure fun w₃ hr₃ hi₃ => hmiss w₂ w₃ h₂ hr₃ hi₃
  next hmatch =>
    push Not at hmatch
    refine .pure fun w₃ hr₃ hi₃ => ⟨hK w₂ w₃ hr₃ hi₃ h₂, fun bytes' hbytes => ?_⟩
    obtain rfl := Option.some.inj hbytes
    exact hmatch

theorem safe_cachedCopy {stored : AttachmentRow} {K : ReadingWorld → Prop}
    (hK : Stable (readingDiscipline libs) i K) (h : K w) :
    Safe (readingDiscipline libs) i (cachedCopy libs stored) w
      (fun cached w' => K w' ∧ ∀ bytes, cached = some bytes →
        libs.sha256Hex bytes = stored.part.decodedSha256 ∧ bytes.length = stored.part.sizeBytes)
      Named := by
  unfold cachedCopy
  split
  · exact .pure fun w₂ hr₂ hi₂ => ⟨hK w w₂ hr₂ hi₂ h, fun bytes hbytes => by cases hbytes⟩
  · exact safe_readVerifiedCache hK h

theorem safe_openAttachment :
    Safe (readingDiscipline libs) i (openAttachment libs messageId id) w (Opened libs id) Named := by
  unfold openAttachment
  have hparts : Safe (readingDiscipline libs) i (query (partsOf messageId)) w
      (fun parts w' => ∀ a ∈ parts, Version a.id a.part w') Named :=
    safe_query fun w' hi w₂ hr a ha => hr _ (version_of_mem hi (List.mem_of_mem_filter ha))
  refine .bind (hparts.mono (fun parts w₁ _ h₁ => ?_) fun _ _ _ he => he)
  split
  · exact safe_throw rfl
  next stored hfind =>
    have hid : stored.id = id := by simpa using List.find?_some hfind
    subst hid
    have hversion := h₁ stored (List.mem_of_find?_eq_some hfind)
    refine .bind ((safe_cachedCopy stable_version hversion).mono (fun cached w₂ _ h₂ => ?_)
      fun _ _ _ he => he)
    obtain ⟨hversion₂, hbytes⟩ := h₂
    split
    next bytes =>
      obtain ⟨hsha, hsize⟩ := hbytes bytes rfl
      exact .pure fun w₃ hr₃ hi₃ => stable_opened w₂ w₃ hr₃ hi₃
        ⟨stored.part, hversion₂, rfl, rfl, hsha, hsize⟩
    next =>
      refine .bind (safe_regenerateAttachment.mono (fun r w₃ _ h₃ => ?_) fun _ _ _ he => he)
      obtain ⟨row, part, hrow, hpart, hrest⟩ := h₃
      rw [hrow]
      exact .pure fun w₄ hr₄ hi₄ => stable_opened w₃ w₄ hr₄ hi₄ ⟨part, hpart, hrest⟩

/-- An answer to the client that belongs in the record keeps it in order. -/
theorem safe_answer {c : ReadingCall} {K : ReadingWorld → Prop}
    (hK : Stable (readingDiscipline libs) i K) (h : K w)
    (hstep : ∀ w' r o, K w' → Recorded libs w' → w'.outside.respond c r = some o →
      o.versions = w'.outside.versions ∧ Answered libs o) :
    Safe (readingDiscipline libs) i (ask c) w (fun _ _ => True) fun _ _ => True := by
  refine .request fun w' hr hi r o ho _ => ?_
  obtain ⟨hversions, hanswered⟩ := hstep w' r o (hK w w' hr hi h) hi ho
  refine ⟨⟨⟨hanswered, fun v hv => ?_⟩, fun j _ v hv => ?_⟩, trivial,
    .ofExcept (fun _ _ _ _ _ => trivial) fun _ _ _ _ _ => trivial⟩
  · show v ∈ o.versions
    rw [hversions]
    exact hi.current v hv
  · show v ∈ o.versions
    rw [hversions]
    exact hv

/-- A request that fails leaves the record alone. -/
theorem respond_error {o o' : ReadingTrace} {c : ReadingCall} {e : Failure}
    (h : o.respond c (.error e) = some o') : o' = o := by
  have hsame : (if isNamed e then some o else none) = some o' := by
    cases c <;> exact h
  split at hsame
  · exact (Option.some.inj hsame).symm
  · cases hsame

theorem safe_download :
    Safe (readingDiscipline libs) i (download libs messageId id) w (fun _ _ => True)
      fun _ _ => True := by
  unfold download
  refine .bind (.attempt (safe_openAttachment.mono
    (fun opened w₁ _ h₁ w₂ hr₂ hi₂ => safe_answer stable_opened (stable_opened w₁ w₂ hr₂ hi₂ h₁) ?_)
    fun e w₁ _ he w₂ hr₂ hi₂ => safe_answer (K := fun _ => isNamed e = true)
      (fun _ _ _ _ hname => hname) he ?_))
  · intro w' r o hopened hi ho
    cases r with
    | error e =>
        obtain rfl := respond_error ho
        exact ⟨rfl, hi.answered⟩
    | ok u =>
        obtain rfl := Option.some.inj ho
        refine ⟨rfl, fun p hp => ?_, hi.answered.refused⟩
        rcases List.mem_cons.mp hp with rfl | hp
        · exact hopened
        · exact hi.answered.served p hp
  · intro w' r o hname hi ho
    cases r with
    | error e =>
        obtain rfl := respond_error ho
        exact ⟨rfl, hi.answered⟩
    | ok u =>
        obtain rfl := Option.some.inj ho
        refine ⟨rfl, hi.answered.served, fun e' he' => ?_⟩
        rcases List.mem_cons.mp he' with rfl | he'
        · exact hname
        · exact hi.answered.refused e' he'

/-- A transaction of another service keeps the record in order. -/
theorem safe_elsewhere {t : Transaction readingSignature Unit} :
    Safe (readingDiscipline libs) i (.transaction none t) w (fun _ _ => True) fun _ _ => True :=
  .transaction (fun _ _ hi _ s _ _ => ⟨keeps_commit none s hi, trivial, .pure fun _ _ _ => trivial⟩)
    fun _ _ _ _ _ => trivial

/-- Every operation is safe. -/
theorem safe_readingOp (op : ReadingOp) :
    Safe (readingDiscipline libs) i (op.run libs) w (fun _ _ => True) fun _ _ => True := by
  cases op with
  | download messageId attachmentId => exact safe_download
  | regenerateAttachment attachmentId =>
      exact .bind (safe_regenerateAttachment.mono (fun _ _ _ _ => .pure fun _ _ _ => trivial)
        fun _ _ _ _ => trivial)
  | ingest => exact safe_elsewhere
  | elsewhere t => exact safe_elsewhere

/-- Tables on which nothing runs yet. -/
def readingConfig (s : ReadingTables) : Config readingSignature ReadingTrace :=
  ⟨⟨s, ⟨versionsOf s, [], []⟩⟩, []⟩

/-- **Downloads belong together**: in every run in which a regeneration finds its row still
verified, or with the names it read, the bytes of each download have the hash and the size of a
version whose name and media type are served with them, and every failure has a name. -/
theorem downloads_paired {c : Config readingSignature ReadingTrace}
    (h : Reaches (readingSystem libs) stillVerified (readingConfig s) c) :
    Answered libs c.world.outside := by
  have hstart : (readingConfig s).Sound (readingDiscipline libs) :=
    ⟨⟨⟨fun _ hp => absurd hp List.not_mem_nil, fun _ he => absurd he List.not_mem_nil⟩,
      fun _ hv => hv⟩, fun _ _ hp => by simp [readingConfig] at hp⟩
  exact (h.sound hstart fun op _ _ => safe_readingOp op).inv.answered

/-! ## Samples -/

/-- The digests of two short files; a file is a message whose only attachment it is. -/
def sampleReading : ReadingLibraries where
  sha256Hex := fun bytes =>
    if bytes = [1] then "4bf5122f344554c53bde2ebb8cd2b7e3d1600ad631c385a5d7cce23c7785459a"
    else "dbc1b4c900ffe48d575b5da5c638040125f65db0fe3e24494b76ea986457d986"
  simpleParser := fun bytes =>
    .ok [⟨"/2", bytes, some "a.txt", "text/plain", none, some "attachment"⟩]

/-- The part of a message with one attached byte. -/
def samplePart (messageId : Uuid) (filename : String) (byte : UInt8) : Attachment :=
  ⟨messageId, "/2", locatorVersion, sampleReading.sha256Hex [byte], none, some "attachment",
    some filename, some "text/plain", 1⟩

/-- A fetched message with one attached byte. -/
def sampleFetched (id : Uuid) (byte : UInt8) : Message :=
  { Message.bare id 1 0 with
    fetchedBody := true
    originalStorageKey := some (originalMessageKey id)
    originalSha256 := some (sampleReading.sha256Hex [byte]) }

/-- A mailbox with one attachment, and another fetched message when there is one. -/
def sampleTables (twin : Option Message) : ReadingTables where
  db := { Database.empty with
    accounts := Table.empty.put ⟨1, [], true⟩
    messages := twin.toList.foldl Table.put (Table.empty.put (sampleFetched 1 1))
    attachments := Table.empty.put (samplePart 1 "a.txt" 1) }
  rows := Table.empty.put ⟨9, samplePart 1 "a.txt" 1, none, none⟩

/-- Answers of storage in which the original is the one that was stored first. -/
def sampleReads : (c : ReadingCall) → Except Failure c.Answer
  | .now => .ok (0 : ℕ)
  | .disposableGet _ | .durableGet _ => .ok [1]
  | .disposablePut .. | .serve .. | .refuse _ => .ok ()

/-- Worker `i` downloads the attachment up to the update of its row. -/
def sampleDownload (i : ℕ) : List (Event (readingSystem sampleReading)) :=
  [.spawn (.download 1 9), .commit i, .commit i] ++ List.replicate 4 (.answer i sampleReads)

/-- The original of the message is ingested again, with another byte in another file. -/
def sampleIngest (i : ℕ) : List (Event (readingSystem sampleReading)) :=
  [.spawn (.ingest (fun _ => 20) 1 1
    { messageId := none, inReplyTo := none, referenceIds := [], sender := none, replyTo := none,
      recipients := none, subject := none, sentAt := none, textPlain := none, html := none,
      attachments := [⟨"/2", sampleReading.sha256Hex [2], 1, some "b.txt", "text/plain", none,
        some "attachment"⟩] }
    ⟨none, none⟩ (originalMessageKey 1) (sampleReading.sha256Hex [2]) 1 0), .commit i]

/-- Worker `i` updates the row and answers its client. -/
def sampleServe (i : ℕ) : List (Event (readingSystem sampleReading)) :=
  [.commit i, .answer i sampleReads]

/-- The view of the attachment with a file name. -/
def sampleView (filename : String) : MessageAttachment :=
  ⟨9, some filename, some "text/plain", 1, none, some "attachment", false⟩

/-- A second ingestion before the update of the row: the first bytes are served under the second
name. When it merges the message away instead, the download fails on a value that is not there. -/
theorem downloads_mismatched :
    (∃ c, Reaches (readingSystem sampleReading) .free (readingConfig (sampleTables none)) c ∧
      ¬ ∀ p ∈ c.world.outside.served, Paired sampleReading c.world.outside.versions p.1 p.2) ∧
    ∃ c, Reaches (readingSystem sampleReading) .free
        (readingConfig (sampleTables (some (sampleFetched 2 2)))) c ∧
      ¬ ∀ e ∈ c.world.outside.refused, isNamed e = true := by
  constructor
  · have h : ((readingConfig (sampleTables none)).run (readingSystem sampleReading)
        (sampleDownload 0 ++ sampleIngest 1 ++ sampleServe 0)).map (·.world.outside) =
          some ⟨[(9, samplePart 1 "a.txt" 1), (9, samplePart 1 "b.txt" 2)],
            [(9, ⟨sampleView "b.txt", [1]⟩)], []⟩ := by decide +kernel
    obtain ⟨c, hrun, houtside⟩ := Option.map_eq_some_iff.mp h
    refine ⟨c, .of_run hrun, fun hall => ?_⟩
    rw [houtside] at hall
    obtain ⟨part, hpart, hname, -, hsha, -⟩ := hall _ List.mem_cons_self
    rcases List.mem_cons.mp hpart with heq | hpart
    · obtain rfl := (Prod.mk.inj heq).2
      exact absurd hname (by decide)
    · obtain rfl := (Prod.mk.inj (List.mem_singleton.mp hpart)).2
      exact absurd hsha (by decide +kernel)
  · have h : ((readingConfig (sampleTables (some (sampleFetched 2 2)))).run
        (readingSystem sampleReading) (sampleDownload 0 ++ sampleIngest 1 ++ sampleServe 0)).map
          (·.world.outside.refused) =
        some [.typeError "Cannot read properties of undefined (reading 'filename')"] := by
      decide +kernel
    obtain ⟨c, hrun, hrefused⟩ := Option.map_eq_some_iff.mp h
    refine ⟨c, .of_run hrun, fun hall => ?_⟩
    rw [hrefused] at hall
    exact absurd (hall _ List.mem_cons_self) (by decide)

/-- Whether an event updates a row only while it is still verified. -/
def isStillVerified (c : Config readingSignature ReadingTrace) :
    Event (readingSystem libs) → Bool
  | .commit i =>
      match c.standsAt i with
      | some (.storeCopy id verified) => (c.world.store.attachment? id).any fun a =>
          (a.part.decodedSha256 == verified.decodedSha256 &&
              a.part.sizeBytes == verified.sizeBytes) ||
            (a.part.filename == verified.filename && a.part.contentType == verified.contentType)
      | none => true
  | _ => true

theorem stillVerified_of_isStillVerified {c : Config readingSignature ReadingTrace}
    {e : Event (readingSystem libs)} (h : isStillVerified c e = true) :
    stillVerified.Meets (readingSystem libs) c e := by
  cases e with
  | commit i =>
      intro β tag f k b s hp _
      cases tag with
      | none => trivial
      | some tag =>
          obtain ⟨id, verified⟩ := tag
          simp only [isStillVerified, Config.standsAt, hp, Option.any_eq_true, Bool.or_eq_true,
            Bool.and_eq_true, beq_iff_eq] at h
          exact h
  | answer i r => exact fun _ _ _ _ _ => trivial
  | spawn op | abort i e | stop i | tick t => trivial

/-- An ingestion after the update of the row leaves the download as it was served. -/
theorem downloads_paired_sample : ∃ c,
    (readingConfig (sampleTables none)).runChecked (readingSystem sampleReading) isStillVerified
      (sampleDownload 0 ++ sampleServe 0 ++ sampleIngest 1) = some c ∧
      c.world.outside.served = [(9, ⟨sampleView "a.txt", [1]⟩)] ∧
      Answered sampleReading c.world.outside := by
  have h : ((readingConfig (sampleTables none)).runChecked (readingSystem sampleReading)
      isStillVerified (sampleDownload 0 ++ sampleServe 0 ++ sampleIngest 1)).map
        (·.world.outside.served) = some [(9, ⟨sampleView "a.txt", [1]⟩)] := by decide +kernel
  obtain ⟨c, hrun, hserved⟩ := Option.map_eq_some_iff.mp h
  have hreach : Reaches (readingSystem sampleReading) stillVerified
      (readingConfig (sampleTables none)) c :=
    .of_runChecked (fun _ _ => stillVerified_of_isStillVerified) hrun
  exact ⟨c, hrun, hserved, downloads_paired hreach⟩

end MailHub.Reading
