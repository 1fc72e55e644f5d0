import MailHub.Ingestion.Durability
import MailHub.Sync.Cycle

/-!
# Which body jobs are attempted

A fetched body, a parse failure and an oversized original end a job; a missing original, a changed
generation and an error leave it where it is. The jobs that stay take places of the next windows
again, so every job of an account is attempted within the passes that its number calls for exactly
when the places taken again are no more than these passes have to spare.
-/

namespace MailHub

open Relational Interleaving Ordering

variable {accountId id : Uuid} {db db' : Database} {m : Message}

/-! ## The jobs of a database -/

/-- A message that holds its original holds its body. -/
def FetchedOriginals (db : Database) : Prop :=
  ∀ m ∈ db.messages, m.originalSha256.isSome = true → m.fetchedBody = true

instance : Decidable (FetchedOriginals db) :=
  inferInstanceAs (Decidable
    (∀ m ∈ db.messages.rows, m.originalSha256.isSome = true → m.fetchedBody = true))

theorem messageId_candidateOf {c : BodyCandidate} (h : candidateOf accountId db m = some c) :
    c.messageId = m.id := by
  unfold candidateOf at h
  split at h
  · cases h
  · rw [← Option.some.inj h]

/-- The columns of a message that make it a job. -/
def SameJob (m m' : Message) : Prop :=
  m'.id = m.id ∧ m'.accountId = m.accountId ∧ m'.fetchedBody = m.fetchedBody ∧
    m'.bodyFailedAt = m.bodyFailedAt ∧ m'.sizeBytes = m.sizeBytes ∧
    m'.originalSha256 = m.originalSha256

/-- What a message is as a job depends on these columns only. -/
theorem candidateOf_congr {m' : Message} (h : SameJob m m')
    (hoccurrences : db'.messageOccurrences = db.messageOccurrences)
    (hfolders : db'.folders = db.folders) :
    candidateOf accountId db' m' = candidateOf accountId db m := by
  obtain ⟨hid, haccount, hfetched, hfailed, hsize, -⟩ := h
  unfold candidateOf fetchableOccurrences pendingBodyConditions
  rw [hid, haccount, hfetched, hfailed, hsize, hoccurrences, hfolders]

theorem SameJob.refl (m : Message) : SameJob m m := ⟨rfl, rfl, rfl, rfl, rfl, rfl⟩

/-- A message that meets no condition is no job. -/
theorem candidateOf_eq_none (h : ∀ o, pendingBodyConditions accountId db m o = false) :
    candidateOf accountId db m = none := by
  have hnone : fetchableOccurrences accountId db m = [] := by
    refine List.filter_eq_nil_iff.mpr fun o _ => ?_
    rw [h o, Bool.and_false]
    exact Bool.false_ne_true
  unfold candidateOf
  rw [hnone]

theorem candidateOf_fetched (h : m.fetchedBody = true) : candidateOf accountId db m = none :=
  candidateOf_eq_none fun o => by simp [pendingBodyConditions, h]

/-- The jobs of other messages than one. -/
def otherJobs (accountId id : Uuid) (db : Database) : List BodyCandidate :=
  (bodyCandidates accountId db).filter fun c => c.messageId != id

/-- One message is no body job. -/
def NoJob (accountId id : Uuid) (db : Database) : Prop :=
  ∀ m ∈ db.messages, m.id = id → candidateOf accountId db m = none

/-- The jobs of other messages come from the rows of these. -/
theorem otherJobs_eq : otherJobs accountId id db =
    (db.messages.rows.filter fun m => m.id != id).filterMap (candidateOf accountId db) := by
  unfold otherJobs bodyCandidates
  rw [List.filter_filterMap, List.filterMap_filter]
  refine List.filterMap_congr fun m _ => ?_
  cases hc : candidateOf accountId db m with
  | none => simp
  | some c => rw [← messageId_candidateOf hc, Option.filter_some]

/-- Without a job for one message the jobs are those of the others. -/
theorem otherJobs_of_noJob (h : NoJob accountId id db) :
    bodyCandidates accountId db = otherJobs accountId id db := by
  refine (List.filter_eq_self.mpr fun c hc => ?_).symm
  obtain ⟨m, hm, hcm⟩ := List.mem_filterMap.mp hc
  rw [bne_iff_ne]
  rintro rfl
  rw [h m hm (messageId_candidateOf hcm).symm] at hcm
  cases hcm

/-! ## Steps of an application -/

/-- A step that concerns the job of one message only. -/
structure JobStep (accountId id : Uuid) (db db' : Database) : Prop where
  fetched : FetchedOriginals db → FetchedOriginals db'
  others : otherJobs accountId id db' = otherJobs accountId id db
  /-- A message that is no job does not become one. -/
  gone : NoJob accountId id db → NoJob accountId id db'

instance : Std.Refl (JobStep accountId id) := ⟨fun _ => ⟨fun h => h, rfl, fun h => h⟩⟩

instance : IsTrans Database (JobStep accountId id) :=
  ⟨fun _ _ _ h h' => ⟨fun hf => h'.fetched (h.fetched hf), h'.others.trans h.others,
    fun hn => h'.gone (h.gone hn)⟩⟩

/-- Rewriting rows step by step: other messages stay the jobs that they are. -/
theorem jobStep_of_map {f : Message → Message}
    (hrows : db'.messages.rows = db.messages.rows.map f) (hid : ∀ m, (f m).id = m.id)
    (hfetched : FetchedOriginals db → FetchedOriginals db')
    (hother : ∀ m ∈ db.messages, m.id ≠ id →
      candidateOf accountId db' (f m) = candidateOf accountId db m)
    (hgone : ∀ m ∈ db.messages, m.id = id → candidateOf accountId db m = none →
      candidateOf accountId db' (f m) = none) : JobStep accountId id db db' := by
  refine ⟨hfetched, ?_, fun h m' hm' hm'id => ?_⟩
  · rw [otherJobs_eq, otherJobs_eq, hrows, List.filter_map, List.filterMap_map]
    have hsame : (fun m => m.id != id) ∘ f = fun m => m.id != id := by
      funext m
      rw [Function.comp_apply, hid]
    rw [hsame]
    refine List.filterMap_congr fun m hm => ?_
    obtain ⟨hm, hne⟩ := List.mem_filter.mp hm
    exact hother m hm (bne_iff_ne.mp hne)
  · obtain ⟨m, hm, rfl⟩ := List.mem_map.mp (hrows ▸ hm' : m' ∈ db.messages.rows.map f)
    rw [hid] at hm'id
    exact hgone m hm hm'id (h m hm hm'id)

/-- A step that leaves messages, occurrences and folders alone concerns no job. -/
theorem jobStep_of_same (hmessages : db'.messages = db.messages)
    (hoccurrences : db'.messageOccurrences = db.messageOccurrences)
    (hfolders : db'.folders = db.folders) : JobStep accountId id db db' := by
  have hsame : ∀ m, candidateOf accountId db' m = candidateOf accountId db m := fun m =>
    candidateOf_congr (.refl m) hoccurrences hfolders
  refine jobStep_of_map (f := fun m => m) (by rw [hmessages, List.map_id']) (fun _ => rfl) ?_
    (fun m _ _ => hsame m) fun m _ _ h => (hsame m).trans h
  unfold FetchedOriginals
  rw [hmessages]
  exact fun h => h

theorem jobStep_markDirty (p : Message → Bool) (db : Database) :
    JobStep accountId id db (markDirty p db) := by
  have hsame : ∀ m : Message, candidateOf accountId (markDirty p db)
      (if p m then { m with threadDirty := true } else m) = candidateOf accountId db m := by
    intro m
    split
    · exact candidateOf_congr ⟨rfl, rfl, rfl, rfl, rfl, rfl⟩ rfl rfl
    · exact candidateOf_congr (.refl m) rfl rfl
  refine jobStep_of_map rfl (fun m => by split <;> rfl) (fun h m' hm' => ?_)
    (fun m _ _ => hsame m) fun m _ _ h => (hsame m).trans h
  obtain ⟨m, hm, rfl⟩ := List.mem_map.mp hm'
  dsimp only
  split
  · exact h m hm
  · exact h m hm

theorem jobStep_markThreadJobsDirty (marking : ThreadJobMarking) (db : Database) :
    Steps (JobStep accountId id) db (markThreadJobsDirty accountId marking) :=
  markThreadJobsDirty_steps (jobStep_markDirty _ db)

theorem jobStep_recordEvent (actor : Actor) (type entityType : String) (entity : Uuid)
    (db : Database) : Steps (JobStep accountId id) db (Tx.recordEvent actor type entityType entity) :=
  .modify (jobStep_of_same rfl rfl rfl)

/-! ## Merging and applying -/

theorem jobStep_deleteMessage (db : Database) :
    Steps (JobStep accountId id) db (deleteMessage id) := by
  unfold deleteMessage
  refine .get_bind (.ite (fun _ => .throw_bind) fun _ => .ite (fun _ => .throw_bind) fun _ => ?_)
  refine .set ⟨fun h m hm => h m (Table.mem_delete.mp hm).1, ?_, fun _ m hm hid => ?_⟩
  · rw [otherJobs_eq, otherJobs_eq]
    have hrows : (db.messages.delete (·.id == id)).rows.filter (fun m => m.id != id) =
        db.messages.rows.filter fun m => m.id != id := by
      unfold Table.delete
      rw [List.filter_filter]
      refine List.filter_congr fun m _ => ?_
      rw [bne, Bool.and_self]
    rw [hrows]
    exact List.filterMap_congr fun m _ => candidateOf_congr (.refl m) rfl rfl
  · have hkept := (Table.mem_delete.mp hm).2
    rw [hid] at hkept
    simp at hkept

/-- Moving the occurrences of one message to another one leaves those of the others in place. -/
theorem select_moved {survivorId : Uuid} {p : MessageOccurrence → Bool} (t : Table MessageOccurrence)
    (hp : ∀ o, p o = true → o.messageId ≠ id ∧ o.messageId ≠ survivorId) :
    (t.update (·.messageId == id) (fun o => { o with messageId := survivorId })
      fun _ => rfl).select p = t.select p := by
  unfold Table.update Table.select
  rw [List.filter_map]
  have hsame : ∀ o : MessageOccurrence, o.messageId ≠ id →
      (if o.messageId == id then { o with messageId := survivorId } else o) = o := by
    intro o hne
    rw [if_neg (by simpa using hne)]
  have hkeep : (t.rows.filter (p ∘ fun o => if o.messageId == id then
      { o with messageId := survivorId } else o)) = t.rows.filter p := by
    refine List.filter_congr fun o _ => ?_
    rw [Function.comp_apply]
    by_cases hid : o.messageId = id
    · rw [if_pos (by simpa using hid)]
      have hbefore : p o = false := by
        by_contra hpo
        exact (hp o (by simpa using hpo)).1 hid
      have hafter : p { o with messageId := survivorId } = false := by
        by_contra hpo
        exact (hp _ (by simpa using hpo)).2 rfl
      rw [hbefore, hafter]
    · rw [hsame o hid]
  rw [hkeep]
  refine (List.map_congr_left fun o ho => ?_).trans (List.map_id _)
  exact hsame o (hp o (List.mem_filter.mp ho).2).1

theorem sameJob_movedRow {survivorId : Uuid} : SameJob m (movedRow id survivorId m) := by
  unfold movedRow
  dsimp only
  split <;> split <;> exact ⟨rfl, rfl, rfl, rfl, rfl, rfl⟩

/-- A message that survives a merge has its body, so the merge ends the job of the other one. -/
theorem jobStep_moveReferences {survivorId : Uuid} (now : Instant) (hne : survivorId ≠ id)
    (hsurvivor : ∀ m ∈ db.messages, m.id = survivorId → m.fetchedBody = true) :
    JobStep accountId id db (moveReferences id survivorId now db) ∧
      NoJob accountId id (moveReferences id survivorId now db) := by
  have hmoved : ∀ m ∈ db.messages, m.id = id →
      candidateOf accountId (moveReferences id survivorId now db) (movedRow id survivorId m) =
        none := by
    intro m _ hid
    have hnone : fetchableOccurrences accountId (moveReferences id survivorId now db)
        (movedRow id survivorId m) = [] := by
      refine List.filter_eq_nil_iff.mpr fun o ho => ?_
      obtain ⟨o₀, -, rfl⟩ := List.mem_map.mp ho
      rw [sameJob_movedRow.1, hid]
      by_cases ho₀ : o₀.messageId = id
      · rw [if_pos (by simpa using ho₀)]
        simp [hne]
      · rw [if_neg (by simpa using ho₀)]
        simp [ho₀]
    unfold candidateOf
    rw [hnone]
  have hother : ∀ m ∈ db.messages, m.id ≠ id →
      candidateOf accountId (moveReferences id survivorId now db) (movedRow id survivorId m) =
        candidateOf accountId db m := by
    intro m hm hmid
    obtain ⟨hid, haccount, hfetched, hfailed, hsize, -⟩ :
      SameJob m (movedRow id survivorId m) := sameJob_movedRow
    by_cases hms : m.id = survivorId
    · rw [candidateOf_fetched (hsurvivor m hm hms),
        candidateOf_fetched (hfetched.trans (hsurvivor m hm hms))]
    · have hsame : fetchableOccurrences accountId (moveReferences id survivorId now db)
          (movedRow id survivorId m) = fetchableOccurrences accountId db m := by
        unfold fetchableOccurrences
        rw [hid, haccount]
        have hcond : ∀ o, pendingBodyConditions accountId (moveReferences id survivorId now db)
            (movedRow id survivorId m) o = pendingBodyConditions accountId db m o := by
          intro o
          unfold pendingBodyConditions
          rw [haccount, hfetched, hfailed, hsize]
          rfl
        simp only [hcond]
        refine select_moved db.messageOccurrences fun o ho => ?_
        have hmatch : o.messageId = m.id := by
          simp only [Bool.and_eq_true, beq_iff_eq] at ho
          exact ho.1.1
        rw [hmatch]
        exact ⟨hmid, hms⟩
      unfold candidateOf
      rw [hsame, hid]
  constructor
  · refine jobStep_of_map messages_moveReferences (fun m => sameJob_movedRow.1)
      (fun h m' hm' => ?_) hother fun m hm hid _ => hmoved m hm hid
    obtain ⟨m, hm, rfl⟩ := List.mem_map.mp (messages_moveReferences ▸ hm' :
      m' ∈ db.messages.rows.map (movedRow id survivorId))
    obtain ⟨-, -, hfetched, -, -, hsha⟩ : SameJob m (movedRow id survivorId m) := sameJob_movedRow
    rw [hfetched, hsha]
    exact h m hm
  · intro m' hm' hid
    obtain ⟨m, hm, rfl⟩ := List.mem_map.mp (messages_moveReferences ▸ hm' :
      m' ∈ db.messages.rows.map (movedRow id survivorId))
    exact hmoved m hm (sameJob_movedRow.1.symm.trans hid)

/-- Merging a message into one with the same bytes ends its job and concerns no other one. -/
theorem mergeDuplicate_ends {provisional : Message} {survivorId : Uuid} {sha256 : String}
    {sizeBytes : ℕ} {parsed : ParsedMessage} {now : Instant} {b : IngestResult}
    (hne : survivorId ≠ provisional.id)
    (hsurvivor : ∀ m ∈ db.messages, m.id = survivorId → m.fetchedBody = true)
    (h : (mergeDuplicate accountId provisional survivorId sha256 sizeBytes parsed now).run db =
      .ok (b, db')) :
    JobStep accountId provisional.id db db' ∧ NoJob accountId provisional.id db' := by
  obtain ⟨hmoved, hnone⟩ : JobStep accountId provisional.id db
      (moveReferences provisional.id survivorId now db) ∧ NoJob accountId provisional.id
        (moveReferences provisional.id survivorId now db) := jobStep_moveReferences now hne hsurvivor
  have hrest : Steps (JobStep accountId provisional.id)
      (moveReferences provisional.id survivorId now db) (do
        deleteMessage provisional.id
        markThreadJobsDirty accountId ⟨[survivorId], [provisional.messageId, parsed.messageId]⟩
        Tx.recordEvent .system "message.merged" "message" survivorId
        return (⟨.merged, survivorId, some provisional.id, sha256, sizeBytes,
          parsed.attachments.length⟩ : IngestResult)) := by
    refine .bind (jobStep_deleteMessage _) fun _ db₂ _ => ?_
    refine .bind (jobStep_markThreadJobsDirty _ _) fun _ db₃ _ => ?_
    exact .bind (jobStep_recordEvent _ _ _ _ _) fun _ db₄ _ => .pure _
  have hstep := hrest.step b db' h
  exact ⟨IsTrans.trans _ _ _ hmoved hstep, hstep.gone hnone⟩

/-- Writing columns of one message that make it no job ends its job and concerns no other one. -/
theorem ends_of_update {p : Message → Bool} {f : Message → Message} (hid : ∀ m, (f m).id = m.id)
    (hp : ∀ m, p m = true → m.id = id)
    (hcovers : ∀ m, m.id = id → p m = true ∨ m.accountId ≠ accountId)
    (hfetched : ∀ m, m.fetchedBody = true ∨ m.originalSha256.isSome = false →
      (f m).fetchedBody = true ∨ (f m).originalSha256.isSome = false)
    (hnone : ∀ m, candidateOf accountId db' (f m) = none)
    (hmessages : db'.messages = db.messages.update p f hid)
    (hoccurrences : db'.messageOccurrences = db.messageOccurrences)
    (hfolders : db'.folders = db.folders) :
    JobStep accountId id db db' ∧ NoJob accountId id db' := by
  have hrows : db'.messages.rows = db.messages.rows.map fun m => if p m then f m else m := by
    rw [hmessages]
    rfl
  have hended : ∀ m, m.id = id → candidateOf accountId db' (if p m then f m else m) = none := by
    intro m hm
    split
    · exact hnone m
    · rename_i hpm
      rcases hcovers m hm with hpm' | haccount
      · exact absurd hpm' hpm
      · exact candidateOf_eq_none fun o => by simp [pendingBodyConditions, haccount]
  constructor
  · refine jobStep_of_map hrows (fun m => ?_) (fun h m' hm' => ?_) (fun m _ hne => ?_)
      fun m _ hm _ => hended m hm
    · split
      · exact hid m
      · rfl
    · rw [Table.mem_iff, hrows] at hm'
      obtain ⟨m, hm, rfl⟩ := List.mem_map.mp hm'
      have hbefore : m.fetchedBody = true ∨ m.originalSha256.isSome = false := by
        cases hsha : m.originalSha256.isSome with
        | false => exact .inr rfl
        | true => exact .inl (h m hm hsha)
      split
      · intro hsha
        rcases hfetched m hbefore with hbody | hnot
        · exact hbody
        · rw [hsha] at hnot
          cases hnot
      · exact h m hm
    · rw [if_neg fun hpm => hne (hp m hpm)]
      exact candidateOf_congr (.refl m) hoccurrences hfolders
  · intro m' hm' hm'id
    rw [Table.mem_iff, hrows] at hm'
    obtain ⟨m, hm, rfl⟩ := List.mem_map.mp hm'
    refine hended m ?_
    by_cases hpm : p m = true
    · exact hp m hpm
    · rwa [if_neg hpm] at hm'id

/-- Applying an original to its message ends its job and concerns no other one. -/
theorem applyIngested_ends {row : Message} {parsed : ParsedMessage} {derived : DerivedBody}
    {storageKey sha256 : String} {sizeBytes : ℕ} {b : IngestResult}
    (h : (applyIngested accountId row parsed derived storageKey sha256 sizeBytes).run db =
      .ok (b, db')) : JobStep accountId row.id db db' ∧ NoJob accountId row.id db' := by
  let db₁ : Database :=
    { db with
      messages := db.messages.update (·.id == row.id)
        (ingestedRow parsed storageKey sha256 sizeBytes) fun _ => rfl
      bodies := db.bodies.put ⟨row.id, derived.textPlain, derived.htmlSanitized, sanitizerVersion⟩
      attachments := upsertAttachments row.id parsed.attachments db.attachments }
  obtain ⟨hfirst, hnone⟩ : JobStep accountId row.id db db₁ ∧ NoJob accountId row.id db₁ :=
    ends_of_update (p := (·.id == row.id)) (f := ingestedRow parsed storageKey sha256 sizeBytes)
      (fun _ => rfl) (fun _ hm => beq_iff_eq.mp hm)
      (fun _ hm => .inl (beq_iff_eq.mpr hm)) (fun _ _ => .inl rfl)
      (fun _ => candidateOf_fetched rfl) rfl rfl rfl
  have hrest : Steps (JobStep accountId row.id) db₁ (do
      markThreadJobsDirty accountId ⟨[row.id], [row.messageId, parsed.messageId]⟩
      Tx.recordEvent .system "message.ingested" "message" row.id
      return (⟨.ingested, row.id, none, sha256, sizeBytes, parsed.attachments.length⟩ :
        IngestResult)) := by
    refine .bind (jobStep_markThreadJobsDirty _ _) fun _ db₂ _ => ?_
    exact .bind (jobStep_recordEvent _ _ _ _ _) fun _ db₃ _ => .pure _
  have hstep := hrest.step b db' h
  exact ⟨IsTrans.trans _ _ _ hfirst hstep, hstep.gone hnone⟩

/-- A locked message row is the row of its identifier. -/
theorem lockMessage_found {messageId : Uuid} {row : Message}
    (h : (lockMessage accountId messageId).run db = .ok (row, db')) :
    db = db' ∧ row.id = messageId := by
  unfold lockMessage at h
  cases hrow : (db.messages.find? messageId).filter (·.accountId == accountId) with
  | none => simp [hrow] at h
  | some found =>
      obtain ⟨rfl, rfl⟩ : found = row ∧ db = db' := by simpa [hrow] using h
      exact ⟨rfl, Table.key_of_find? (Option.filter_eq_some_iff.mp hrow).1⟩

/-- Committing an original ends the job of its message and concerns no other one. -/
theorem commitOriginal_ends {messageId : Uuid} {parsed : ParsedMessage} {derived : DerivedBody}
    {storageKey sha256 : String} {sizeBytes : ℕ} {now : Instant} {b : IngestResult}
    (hdb : FetchedOriginals db) (h : (commitOriginal accountId messageId parsed derived storageKey
      sha256 sizeBytes now).run db = .ok (b, db')) :
    JobStep accountId messageId db db' ∧ NoJob accountId messageId db' := by
  simp only [commitOriginal, StateT.run_bind, bind_eq_ok, Prod.exists] at h
  obtain ⟨row, db₁, hlock, _, db₂, hget, hrun⟩ := h
  obtain ⟨rfl, rfl⟩ := lockMessage_found hlock
  obtain ⟨rfl, rfl⟩ : db = _ ∧ db = db₂ := by simpa using hget
  cases hfind : findDuplicate accountId row.id sha256 db with
  | some duplicate =>
      rw [hfind] at hrun
      obtain ⟨hmem, hsha, hne⟩ : duplicate ∈ db.messages ∧
          duplicate.originalSha256 = some sha256 ∧ duplicate.id ≠ row.id := by
        have hcond := List.find?_some hfind
        simp only [Bool.and_eq_true, beq_iff_eq, bne_iff_ne] at hcond
        exact ⟨List.mem_of_find?_eq_some hfind, hcond.1.2, hcond.2⟩
      refine mergeDuplicate_ends hne (fun m hm hid => ?_) hrun
      obtain rfl := Table.eq_of_key_eq hm hmem hid
      exact hdb m hm (by rw [hsha]; rfl)
  | none =>
      rw [hfind] at hrun
      exact applyIngested_ends hrun

/-! ## Outcomes of jobs -/

/-- How an attempt of a body job ends. -/
inductive JobOutcome
  | fetched | missing | generationChanged | thrown
  /-- The original is above the maximum size. -/
  | oversized
  /-- The original cannot be parsed. -/
  | failed
  deriving DecidableEq, Repr

namespace JobOutcome

/-- Whether the message is still a body job after such an attempt. -/
def stays : JobOutcome → Bool
  | missing | generationChanged | thrown => true
  | fetched | oversized | failed => false

/-- Whether a result is of this kind. -/
def describes : JobOutcome → Except Failure BodyFetchOutcome → Bool
  | fetched, .ok (.fetched ..) => true
  | missing, .ok (.missing _) => true
  | generationChanged, .ok (.generationChanged ..) => true
  | thrown, .error _ => true
  | oversized, .ok (.skippedOversized _ sizeBytes) => maxMessageBytes < sizeBytes
  | failed, .ok (.failed _) => true
  | _, _ => false

end JobOutcome

/-- A program from a database that ends the job of one message or leaves the database alone, as its
result says. -/
structure EndsJob (accountId id : Uuid) (db : Database) (p : IngestProgram BodyFetchOutcome) :
    Prop where
  ends : ∀ r db' (o : JobOutcome), p.Outcome (.alone ingestSignature) db r db' →
    o.describes r = true →
      o.stays = true ∧ db' = db ∨
        o.stays = false ∧ JobStep accountId id db db' ∧ NoJob accountId id db'

namespace EndsJob

variable {α : Type} {p : IngestProgram α} {f : α → IngestProgram BodyFetchOutcome}

/-- An error says that the job stays. -/
theorem stays_of_error {o : JobOutcome} {e : Failure} (h : o.describes (.error e) = true) :
    o.stays = true := by
  cases o <;> first | rfl | cases h

theorem throw (e : Failure) : EndsJob accountId id db (MonadExcept.throw e) := by
  constructor
  rintro r db' o ⟨rfl, rfl⟩ ho
  exact .inl ⟨stays_of_error ho, rfl⟩

/-- Returning an outcome without a write says that the job stays. -/
theorem pure {outcome : BodyFetchOutcome}
    (h : ∀ o : JobOutcome, o.describes (.ok outcome) = true → o.stays = true) :
    EndsJob accountId id db (Pure.pure outcome) := by
  constructor
  rintro r db' o ⟨rfl, rfl⟩ ho
  exact .inl ⟨h o ho, rfl⟩

/-- What reads only can come first. -/
theorem bind (hp : p.Reads) (hf : ∀ a, p.Outcome (.alone ingestSignature) db (.ok a) db →
    EndsJob accountId id db (f a)) : EndsJob accountId id db (p >>= f) := by
  constructor
  intro r db' o h ho
  rcases Program.outcome_bind.mp h with ⟨a, db₁, ha, hrest⟩ | ⟨e, rfl, hfail⟩
  · obtain rfl := hp.unchanged _ _ _ ha
    exact (hf a ha).ends r db' o hrest ho
  · obtain rfl := hp.unchanged _ _ _ hfail
    exact .inl ⟨stays_of_error ho, rfl⟩

theorem ite {q : Prop} [Decidable q] {p p' : IngestProgram BodyFetchOutcome}
    (hp : EndsJob accountId id db p) (hp' : EndsJob accountId id db p') :
    EndsJob accountId id db (if q then p else p') := by
  split
  · exact hp
  · exact hp'

end EndsJob

/-- A note on a message row that makes it no job. -/
theorem noteBody_ends {messageId : Uuid} {event : String} {f : Message → Message}
    {hf : ∀ m, (f m).id = m.id}
    (h : (noteBody accountId messageId event f hf).run db = .ok ((), db'))
    (hsame : ∀ m, (f m).fetchedBody = m.fetchedBody ∧ (f m).originalSha256 = m.originalSha256)
    (hnone : ∀ db m, candidateOf accountId db (f m) = none) :
    JobStep accountId messageId db db' ∧ NoJob accountId messageId db' := by
  let db₁ : Database :=
    { db with
      messages := db.messages.update (fun m => m.id == messageId && m.accountId == accountId) f hf }
  obtain ⟨hfirst, hgone⟩ : JobStep accountId messageId db db₁ ∧
      NoJob accountId messageId db₁ := by
    refine ends_of_update (p := fun m => m.id == messageId && m.accountId == accountId) hf
      (fun m hm => ?_) (fun m hm => ?_) (fun m hm => ?_) (hnone db₁) rfl rfl rfl
    · exact beq_iff_eq.mp (Bool.and_eq_true_iff.mp hm).1
    · by_cases haccount : m.accountId = accountId
      · exact .inl (by simp [hm, haccount])
      · exact .inr haccount
    · rwa [(hsame m).1, (hsame m).2]
  have hstep : JobStep accountId messageId db₁ db' :=
    (jobStep_recordEvent _ _ _ _ db₁).step () db' h
  exact ⟨IsTrans.trans _ _ _ hfirst hstep, hstep.gone hgone⟩

/-- A write comes last, and its result says that it ends the job. -/
theorem EndsJob.transaction {β : Type} {tag : Option IngestTag} {t : Tx β}
    {g : β → BodyFetchOutcome}
    (h : ∀ b db' (o : JobOutcome), t.run db = .ok (b, db') → o.describes (.ok (g b)) = true →
      o.stays = false ∧ JobStep accountId id db db' ∧ NoJob accountId id db') :
    EndsJob accountId id db (Program.transaction (S := ingestSignature) tag t >>= fun b =>
      Pure.pure (g b)) := by
  constructor
  intro r db' o hrun ho
  rcases Program.outcome_bind.mp hrun with ⟨b, db₁, hcommit, rfl, rfl⟩ | ⟨e, rfl, hfail⟩
  · rcases Program.outcome_transaction_alone.mp hcommit with ⟨b', hb, hok⟩ | ⟨e, he, -⟩
    · obtain rfl := Except.ok.inj hb
      exact .inr (h b db' o hok ho)
    · cases he
  · rcases Program.outcome_transaction_alone.mp hfail with ⟨b, hb, -⟩ | ⟨e', -, -, rfl⟩
    · cases hb
    · exact .inl ⟨stays_of_error ho, rfl⟩

theorem skipDownload_ends {pending : PendingBody} {messageId : Uuid} {sizeBytes : ℕ} :
    EndsJob accountId messageId db (skipDownload accountId pending messageId sizeBytes) := by
  unfold skipDownload
  refine .bind (.request _) fun _ _ => ?_
  refine .transaction fun b db' o hrun ho => ?_
  have hsize : o.stays = false ∧ maxMessageBytes < sizeBytes := by
    cases o <;> first | exact ⟨rfl, of_decide_eq_true ho⟩ | cases ho
  have hlarge : ¬ sizeBytes ≤ maxMessageBytes := Nat.not_le.mpr hsize.2
  refine ⟨hsize.1, noteBody_ends hrun (fun m => ⟨rfl, rfl⟩) fun db m => ?_⟩
  exact candidateOf_eq_none fun o => by simp [pendingBodyConditions, hlarge]

/-- An application that fails leaves the database alone, and one that succeeds ends the job. -/
def AppliesJob (accountId id : Uuid) (db : Database) (p : IngestProgram IngestResult) : Prop :=
  ∀ x db', p.Outcome (.alone ingestSignature) db x db' →
    (∃ e, x = .error e) ∧ db' = db ∨
      (∃ result, x = .ok result) ∧ JobStep accountId id db db' ∧ NoJob accountId id db'

theorem AppliesJob.bind {α : Type} {p : IngestProgram α} {f : α → IngestProgram IngestResult}
    (hp : p.Reads) (hf : ∀ a, AppliesJob accountId id db (f a)) :
    AppliesJob accountId id db (p >>= f) := by
  intro x db' h
  rcases Program.outcome_bind.mp h with ⟨a, db₁, ha, hrest⟩ | ⟨e, rfl, hfail⟩
  · obtain rfl := hp.unchanged _ _ _ ha
    exact hf a x db' hrest
  · exact .inl ⟨⟨e, rfl⟩, hp.unchanged _ _ _ hfail⟩

theorem AppliesJob.throw (e : Failure) :
    AppliesJob accountId id db (MonadExcept.throw e) := by
  rintro x db' ⟨rfl, rfl⟩
  exact .inl ⟨⟨e, rfl⟩, rfl⟩

theorem AppliesJob.ite {q : Prop} [Decidable q] {p p' : IngestProgram IngestResult}
    (hp : AppliesJob accountId id db p) (hp' : AppliesJob accountId id db p') :
    AppliesJob accountId id db (if q then p else p') := by
  split
  · exact hp
  · exact hp'

/-- Committing a parsed original, with its second try, ends the job of the message or nothing. -/
theorem commitParsed_applies {messageId : Uuid} {parsed : ParsedMessage} {derived : DerivedBody}
    {storageKey sha256 : String} {sizeBytes : ℕ} (hdb : FetchedOriginals db) :
    AppliesJob accountId messageId db (IngestionService.commitParsed accountId messageId parsed
      derived storageKey sha256 sizeBytes) := by
  unfold IngestionService.commitParsed
  refine .bind (.request _) fun now => ?_
  have hattempt : ∀ tag : Option IngestTag, AppliesJob accountId messageId db
      (Program.transaction (S := ingestSignature) tag (commitOriginal accountId messageId parsed
        derived storageKey sha256 sizeBytes (now * 1000))) := by
    intro tag x db' h
    rcases Program.outcome_transaction_alone.mp h with ⟨result, rfl, hrun⟩ | ⟨e, rfl, -, rfl⟩
    · exact .inr ⟨⟨result, rfl⟩, commitOriginal_ends hdb hrun⟩
    · exact .inl ⟨⟨e, rfl⟩, rfl⟩
  intro x db' h
  rcases Program.outcome_bind.mp h with ⟨y, db₁, hfirst, hrest⟩ | ⟨e, rfl, hfail⟩
  · obtain ⟨y, hy, hfirst⟩ := Program.outcome_attempt.mp hfirst
    obtain rfl := Except.ok.inj hy
    rcases hattempt _ y db₁ hfirst with ⟨⟨e, rfl⟩, rfl⟩ | ⟨⟨result, rfl⟩, hends⟩
    · dsimp only at hrest
      split at hrest
      · exact hattempt _ x db' hrest
      · exact AppliesJob.throw e x db' hrest
    · obtain ⟨rfl, rfl⟩ := hrest
      exact .inr ⟨⟨result, rfl⟩, hends⟩
  · obtain ⟨y, hy, -⟩ := Program.outcome_attempt.mp hfail
    cases hy

theorem applyStagedOriginal_applies {s : IngestionService} {messageId : Uuid}
    {staged : StagedOriginal} (hdb : FetchedOriginals db) :
    AppliesJob accountId messageId db (s.applyStagedOriginal accountId messageId staged) := by
  unfold IngestionService.applyStagedOriginal
  refine .ite (.throw _) (.bind (.request _) fun original => ?_)
  refine .ite (.throw _) (.ite (.throw _) ?_)
  exact .bind (.ofExcept _) fun parsed => commitParsed_applies hdb

/-! ## One attempt -/

variable {s : IngestionService} {pending : PendingBody}

theorem markBodyFailed_ends {messageId : Uuid} :
    EndsJob accountId messageId db (markBodyFailed accountId messageId >>= fun _ =>
      Pure.pure (.failed pending.messageId)) := by
  unfold markBodyFailed
  rw [Program.bind_eq, Program.bind_eq, Program.bind_assoc]
  refine .bind (.request _) fun now _ => .transaction fun b db' o hrun ho => ?_
  have hstays : o.stays = false := by
    cases o <;> first | rfl | cases ho
  refine ⟨hstays, noteBody_ends hrun (fun m => ⟨rfl, rfl⟩) fun db m => ?_⟩
  exact candidateOf_eq_none fun o => by simp [pendingBodyConditions]

theorem applyFetched_ends {target : BodyTarget} {staged : StagedOriginal}
    (hdb : FetchedOriginals db) :
    EndsJob accountId target.message.id db (applyFetched s accountId pending target staged) := by
  unfold applyFetched
  refine .bind (.request _) fun recheck _ => .ite (.pure fun o ho => ?_) ?_
  · cases o <;> first | rfl | cases ho
  · constructor
    intro r db' o h ho
    rcases Program.outcome_bind.mp h with ⟨y, db₁, hfirst, hrest⟩ | ⟨e, rfl, hfail⟩
    · obtain ⟨y, hy, hfirst⟩ := Program.outcome_attempt.mp hfirst
      obtain rfl := Except.ok.inj hy
      rcases applyStagedOriginal_applies hdb y db₁ hfirst with ⟨⟨e, rfl⟩, rfl⟩ |
        ⟨⟨result, rfl⟩, hends⟩
      · dsimp only at hrest
        split at hrest
        next _ hresult => cases hresult
        next => exact markBodyFailed_ends.ends r db' o hrest ho
        next => exact (EndsJob.throw _).ends r db' o hrest ho
      · obtain ⟨rfl, rfl⟩ := hrest
        refine .inr ⟨?_, hends⟩
        cases o <;> first | rfl | cases ho
    · obtain ⟨y, hy, -⟩ := Program.outcome_attempt.mp hfail
      cases hy

/-- Staging an original writes nothing to the database. -/
theorem reads_stageOriginal {messageId : Uuid} {source : ByteSource} {expectedSize : Option ℕ} :
    (s.stageOriginal messageId source expectedSize).Reads := by
  have hwrite : ∀ key source, (s.writeObject key source).Reads := by
    intro key source
    unfold IngestionService.writeObject
    refine .bind (.request _) fun _ => .bind (.ofExcept _) fun bytes => .bind (.request _) fun _ => ?_
    exact .bind (.request _) fun _ => .bind (.request _) fun _ => .bind (.request _) fun _ => .pure _
  unfold IngestionService.stageOriginal
  cases expectedSize with
  | none => exact .bind (hwrite _ _) fun _ => .pure _
  | some size => exact .ite (.throw _) (.bind (hwrite _ _) fun _ => .pure _)

/-- A target belongs to the message of its job. -/
theorem findTarget_message {target : BodyTarget} (h : findTarget accountId pending db = some target) :
    target.message.id = pending.messageId := by
  unfold findTarget at h
  obtain ⟨occurrence, hoccurrence, h⟩ := Option.bind_eq_some_iff.mp h
  obtain ⟨folder, -, h⟩ := Option.bind_eq_some_iff.mp h
  obtain ⟨message, hmessage, h⟩ := Option.bind_eq_some_iff.mp h
  obtain rfl := Option.some.inj h
  have hcond := List.find?_some hoccurrence
  simp only [Bool.and_eq_true, beq_iff_eq] at hcond
  exact (Table.key_of_find? hmessage).trans hcond.1.1.1.1.2

theorem reads_loadTarget : (loadTarget accountId pending).Reads := by
  unfold loadTarget
  refine .bind (.read _) fun target => ?_
  cases target with
  | none => exact .throw _
  | some target => exact .pure _

theorem loadTarget_message {target : BodyTarget}
    (h : (loadTarget accountId pending).Outcome (.alone ingestSignature) db (.ok target) db) :
    target.message.id = pending.messageId := by
  unfold loadTarget at h
  obtain ⟨found, db₁, hread, hfound⟩ := Program.outcome_bind_ok.mp h
  obtain ⟨hfind, rfl⟩ := Program.outcome_read_alone.mp hread
  obtain rfl := Except.ok.inj hfind
  cases hfind : findTarget accountId pending db₁ with
  | none =>
      rw [hfind] at hfound
      cases hfound.1
  | some target' =>
      rw [hfind] at hfound
      obtain rfl := Except.ok.inj hfound.1
      exact findTarget_message hfind

/-- What an attempt of a body job does to the jobs of the account is what its result says. -/
theorem fetchBody_ends (hdb : FetchedOriginals db) :
    EndsJob accountId pending.messageId db (fetchBody s accountId pending) := by
  unfold fetchBody
  refine .bind reads_loadTarget fun target htarget => ?_
  rw [← loadTarget_message htarget]
  have hunwritten : ∀ {outcome : BodyFetchOutcome}, (∀ o : JobOutcome,
      o.describes (.ok outcome) = true → o.stays = true) →
      EndsJob accountId target.message.id db (Pure.pure outcome) := fun h => .pure h
  refine .ite (hunwritten fun o ho => by cases o <;> cases ho) ?_
  refine .bind (.request _) fun mailbox _ => .ite (hunwritten fun o ho => ?_) ?_
  · cases o <;> first | rfl | cases ho
  refine .bind (.request _) fun download _ => ?_
  cases download with
  | none => exact hunwritten fun o ho => by cases o <;> first | rfl | cases ho
  | some download =>
      dsimp only
      split
      · exact skipDownload_ends
      · refine .bind (.attempt reads_stageOriginal) fun staged _ => ?_
        split
        · exact applyFetched_ends hdb
        · exact skipDownload_ends
        · exact .throw _

/-! ## Passes -/

/-- The messages whose bodies are pending, newest first. -/
def pendingMessages (accountId : Uuid) (db : Database) : List Uuid :=
  (rankedBodies accountId db).map (·.messageId)

theorem pendingMessages_nodup : (pendingMessages accountId db).Nodup := by
  have hids : ∀ ms : List Message, (ms.filterMap (candidateOf accountId db)).map (·.messageId) =
      (ms.filter fun m => (candidateOf accountId db m).isSome).map (·.id) := by
    intro ms
    induction ms with
    | nil => rfl
    | cons m ms ih =>
        cases hc : candidateOf accountId db m with
        | none => rw [List.filterMap_cons_none hc, ih, List.filter_cons_of_neg (by simp [hc])]
        | some c =>
            rw [List.filterMap_cons_some hc, List.filter_cons_of_pos (by simp [hc]), List.map_cons,
              List.map_cons, ih, messageId_candidateOf hc]
  unfold pendingMessages rankedBodies
  rw [((List.perm_insertionSort _ _).map _).nodup_iff, bodyCandidates, hids]
  exact db.messages.nodup.sublist (List.filter_sublist.map _)

/-- The jobs of a pass are the first pending messages. -/
theorem pendingBodies_messages {limit : ℕ} :
    (pendingBodies accountId limit db).map (·.messageId) =
      (pendingMessages accountId db).take limit := by
  unfold pendingBodies pendingMessages
  rw [List.map_filterMap, ← List.map_take, ← List.filterMap_eq_map]
  refine List.filterMap_congr fun c hc => ?_
  have hmem : c ∈ bodyCandidates accountId db :=
    (List.mem_insertionSort _).mp (List.mem_of_mem_take hc)
  obtain ⟨m, -, hm⟩ := List.mem_filterMap.mp hmem
  unfold candidateOf at hm
  split at hm
  · cases hm
  · obtain rfl := Option.some.inj hm
    rfl

/-- An attempt that ends a job drops its message from the pending ones. -/
theorem pendingMessages_of_ends (hstep : JobStep accountId id db db')
    (hnone : NoJob accountId id db') :
    pendingMessages accountId db' = (pendingMessages accountId db).filter (· != id) := by
  have htotal : Std.Total fun a b : BodyCandidate => b.internalDate ≤ a.internalDate :=
    ⟨fun a b => Nat.le_total _ _⟩
  have htrans : IsTrans BodyCandidate fun a b => b.internalDate ≤ a.internalDate :=
    ⟨fun a b c hab hbc => Nat.le_trans hbc hab⟩
  unfold pendingMessages rankedBodies
  rw [otherJobs_of_noJob hnone, hstep.others, otherJobs, ← filter_insertionSort, List.filter_map]
  rfl

variable {limit : ℕ} {attempts : List BodyAttempt} {outcome : Uuid → JobOutcome}

/-- The attempts end as an assignment of outcomes to jobs says. -/
def Assigned (outcome : Uuid → JobOutcome) (attempts : List BodyAttempt) : Prop :=
  ∀ attempt ∈ attempts, (outcome attempt.messageId).describes attempt.result = true

/-- The attempts of some jobs drop the messages that do not stay. -/
theorem pendingMessages_attempts {jobs : List PendingBody} (hdb : FetchedOriginals db)
    (h : Attempts s accountId jobs db attempts db') (houtcome : Assigned outcome attempts) :
    FetchedOriginals db' ∧ attempts.map (·.messageId) = jobs.map (·.messageId) ∧
      pendingMessages accountId db' = (pendingMessages accountId db).filter fun id =>
        id ∉ jobs.map (·.messageId) || (outcome id).stays := by
  induction jobs generalizing db attempts with
  | nil =>
      obtain ⟨rfl, rfl⟩ := h
      refine ⟨hdb, rfl, (List.filter_eq_self.mpr fun id _ => ?_).symm⟩
      simp
  | cons job jobs ih =>
      obtain ⟨result, db₁, rest, hjob, rfl, hrest⟩ := h
      have hdescribes : (outcome job.messageId).describes result = true :=
        houtcome ⟨job.messageId, result⟩ List.mem_cons_self
      have hassigned : Assigned outcome rest := fun attempt hmem =>
        houtcome attempt (List.mem_cons_of_mem _ hmem)
      obtain ⟨hdb₁, hpending⟩ : FetchedOriginals db₁ ∧ pendingMessages accountId db₁ =
          (pendingMessages accountId db).filter fun id =>
            id != job.messageId || (outcome id).stays := by
        rcases (fetchBody_ends hdb).ends _ _ _ hjob hdescribes with ⟨hstays, rfl⟩ |
          ⟨hends, hstep, hnone⟩
        · refine ⟨hdb, (List.filter_eq_self.mpr fun id _ => ?_).symm⟩
          by_cases hid : id = job.messageId
          · rw [hid, hstays, Bool.or_true]
          · simp [hid]
        · refine ⟨hstep.fetched hdb, ?_⟩
          rw [pendingMessages_of_ends hstep hnone]
          refine List.filter_congr fun id _ => ?_
          by_cases hid : id = job.messageId
          · rw [hid, hends, Bool.or_false]
          · simp [hid]
      obtain ⟨hdb', hids, hafter⟩ := ih hdb₁ hrest hassigned
      refine ⟨hdb', by rw [List.map_cons, List.map_cons, hids], ?_⟩
      rw [hafter, hpending, List.filter_filter]
      refine List.filter_congr fun id _ => ?_
      by_cases hid : id = job.messageId
      · cases hstays : (outcome id).stays <;> simp [hid]
      · simp [hid]

/-- Passes over the jobs of an account are passes over the list of its pending messages. -/
theorem pendingMessages_passes {k : ℕ} (hdb : FetchedOriginals db)
    (h : Passes s accountId limit k db attempts db') (houtcome : Assigned outcome attempts) :
    FetchedOriginals db' ∧
      pendingMessages accountId db' =
        afterPasses limit (fun id => (outcome id).stays) (pendingMessages accountId db) k ∧
      ∀ id, (∃ attempt ∈ attempts, attempt.messageId = id) ↔ ∃ j < k,
        id ∈ (afterPasses limit (fun id => (outcome id).stays) (pendingMessages accountId db)
          j).take limit := by
  induction k generalizing db' attempts with
  | zero =>
      obtain ⟨rfl, rfl⟩ := h
      exact ⟨hdb, rfl, fun id => by simp⟩
  | succ k ih =>
      obtain ⟨earlier, db₁, last, hearlier, hlast, rfl⟩ := h
      obtain ⟨hdb₁, hpending, hattempted⟩ := ih hearlier fun attempt hmem =>
        houtcome attempt (List.mem_append_left _ hmem)
      obtain ⟨hdb', hids, hafter⟩ := pendingMessages_attempts hdb₁ hlast fun attempt hmem =>
        houtcome attempt (List.mem_append_right _ hmem)
      rw [pendingBodies_messages, hpending] at hids
      refine ⟨hdb', ?_, fun id => ?_⟩
      · rw [hafter, pendingBodies_messages, hpending, afterPasses,
          retryPass_eq_filter (afterPasses_nodup pendingMessages_nodup)]
      · have hwindow : (∃ attempt ∈ last, attempt.messageId = id) ↔
            id ∈ (afterPasses limit (fun id => (outcome id).stays) (pendingMessages accountId db)
              k).take limit := by
          rw [← hids, List.mem_map]
        simp only [List.mem_append, or_and_right, exists_or, hattempted, hwindow,
          Nat.lt_succ_iff_lt_or_eq, exists_eq_left]

/-- How many passes a number of jobs calls for. -/
def passesFor (jobs limit : ℕ) : ℕ := (jobs + limit - 1) / limit

theorem le_passesFor {jobs : ℕ} (h : 0 < limit) : jobs ≤ passesFor jobs limit * limit := by
  have hdivision := Nat.div_add_mod (jobs + limit - 1) limit
  have hrest := Nat.mod_lt (jobs + limit - 1) h
  have hcomm : passesFor jobs limit * limit = limit * ((jobs + limit - 1) / limit) :=
    Nat.mul_comm _ _
  omega

/-- **Starvation of body jobs.** Whatever an account holds and however its jobs end, after as many
passes as its jobs call for each job has been attempted or is no longer pending exactly when the
places that the jobs which stay take again are no more than the places that these passes have to
spare. -/
theorem bodies_attempted_iff (hlimit : 0 < limit) (hdb : FetchedOriginals db)
    (hpasses : Passes s accountId limit
      (passesFor (pendingMessages accountId db).length limit) db attempts db')
    (houtcome : Assigned outcome attempts) :
    (∀ id ∈ pendingMessages accountId db,
        (∃ attempt ∈ attempts, attempt.messageId = id) ∨ id ∉ pendingMessages accountId db') ↔
      retaken limit (fun id => (outcome id).stays) (pendingMessages accountId db)
          (passesFor (pendingMessages accountId db).length limit) ≤
        passesFor (pendingMessages accountId db).length limit * limit -
          (pendingMessages accountId db).length := by
  obtain ⟨-, hpending, hattempted⟩ := pendingMessages_passes hdb hpasses houtcome
  rw [← all_reached_iff pendingMessages_nodup (le_passesFor hlimit)]
  refine forall₂_congr fun id hid => ?_
  rw [← hattempted id, hpending]
  constructor
  · rintro (h | h)
    · exact h
    · -- a job that no window reached is still pending
      by_contra hnot
      rw [hattempted id, ← mem_take_reached_iff] at hnot
      rw [afterPasses_eq] at h
      have hsplit := List.take_append_drop (reached limit (fun id => (outcome id).stays)
        (pendingMessages accountId db) (passesFor (pendingMessages accountId db).length limit))
          (pendingMessages accountId db)
      rw [← hsplit] at hid
      rcases List.mem_append.mp hid with hid | hid
      · exact hnot hid
      · exact h (List.mem_append_right _ hid)
  · exact .inl

/-! ## Samples -/

open Ingestion (sampleImport sampleBytes sampleIngestion)

/-- The attempts of some jobs with one answer to each request. -/
def attemptAll (s : IngestionService) (accountId : Uuid)
    (reply : (c : IngestCall) → Except Failure c.Answer) :
    List PendingBody → Database → Option (List BodyAttempt × Database)
  | [], db => some ([], db)
  | job :: jobs, db =>
      ((fetchBody s accountId job).evaluate reply db).bind fun (result, db₁) =>
        (attemptAll s accountId reply jobs db₁).map fun (rest, db') =>
          (⟨job.messageId, result⟩ :: rest, db')

/-- The attempts of `k` passes with one answer to each request. -/
def passAll (s : IngestionService) (accountId : Uuid) (limit : ℕ)
    (reply : (c : IngestCall) → Except Failure c.Answer) (db : Database) :
    ℕ → Option (List BodyAttempt × Database)
  | 0 => some ([], db)
  | k + 1 =>
      (passAll s accountId limit reply db k).bind fun (earlier, db₁) =>
        (attemptAll s accountId reply (pendingBodies accountId limit db₁) db₁).map
          fun (last, db') => (earlier ++ last, db')

variable {reply : (c : IngestCall) → Except Failure c.Answer}

theorem attempts_of_attemptAll {jobs : List PendingBody}
    (h : attemptAll s accountId reply jobs db = some (attempts, db')) :
    Attempts s accountId jobs db attempts db' := by
  induction jobs generalizing db attempts with
  | nil =>
      obtain ⟨rfl, rfl⟩ := Prod.mk.inj (Option.some.inj h)
      exact ⟨rfl, rfl⟩
  | cons job jobs ih =>
      obtain ⟨⟨result, db₁⟩, hjob, htail⟩ := Option.bind_eq_some_iff.mp h
      obtain ⟨⟨rest, db₂⟩, hrest, heq⟩ := Option.map_eq_some_iff.mp htail
      obtain ⟨rfl, rfl⟩ := Prod.mk.inj heq
      have houtcome := Program.outcome_of_evaluate (E := .alone ingestSignature) (fun _ => rfl)
        (fun _ _ => trivial) (fun _ => trivial) hjob
      exact ⟨result, db₁, rest, houtcome, rfl, ih hrest⟩

theorem passes_of_passAll {k : ℕ} (h : passAll s accountId limit reply db k = some (attempts, db')) :
    Passes s accountId limit k db attempts db' := by
  induction k generalizing attempts db' with
  | zero =>
      obtain ⟨rfl, rfl⟩ := Prod.mk.inj (Option.some.inj h)
      exact ⟨rfl, rfl⟩
  | succ k ih =>
      obtain ⟨⟨earlier, db₁⟩, hearlier, htail⟩ := Option.bind_eq_some_iff.mp h
      obtain ⟨⟨last, db₂⟩, hlast, heq⟩ := Option.map_eq_some_iff.mp htail
      obtain ⟨rfl, rfl⟩ := Prod.mk.inj heq
      exact ⟨earlier, db₁, last, ih hearlier, attempts_of_attemptAll hlast, rfl⟩

/-- Three imported messages in a folder, the first one the newest. -/
def sampleArrivals : Database :=
  { sampleImport with
    messages := ⟨[.bare 1 1 0, .bare 2 1 0, .bare 3 1 0], by decide⟩
    messageOccurrences :=
      ⟨[⟨11, 1, 1, 5, 7, 1, 3, true, false, none, 1, none, none⟩,
        ⟨12, 1, 2, 5, 7, 2, 2, true, false, none, 1, none, none⟩,
        ⟨13, 1, 3, 5, 7, 3, 1, true, false, none, 1, none, none⟩], by decide⟩ }

/-- A server on which the second original is too large and the others are gone. -/
def sampleServer : (c : IngestCall) → Except Failure c.Answer
  | .streamOriginal uid =>
      .ok (if uid = 2 then some ⟨some (maxMessageBytes + 1), oneChunk []⟩ else none)
  | c => sampleBytes [] c

/-- How the jobs of the sample end. -/
def sampleOutcome (id : Uuid) : JobOutcome := if id = 2 then .oversized else .missing

/-- What the samples show of some passes: the attempts, whether they end as assigned, and what is
pending in the end. -/
def passView (limit k : ℕ) : Option (List Uuid × Bool × List Uuid) :=
  (passAll sampleIngestion 1 limit sampleServer sampleArrivals k).map fun (attempts, db') =>
    (attempts.map (·.messageId),
      attempts.all fun a => (sampleOutcome a.messageId).describes a.result, pendingMessages 1 db')

theorem passes_of_passView {k : ℕ} {ids pending : List Uuid}
    (h : passView limit k = some (ids, true, pending)) : ∃ attempts db',
      Passes sampleIngestion 1 limit k sampleArrivals attempts db' ∧
        Assigned sampleOutcome attempts ∧ attempts.map (·.messageId) = ids ∧
          pendingMessages 1 db' = pending := by
  obtain ⟨⟨attempts, db'⟩, hpasses, heq⟩ := Option.map_eq_some_iff.mp h
  obtain ⟨hids, hrest⟩ := Prod.mk.inj heq
  obtain ⟨hassigned, hpending⟩ := Prod.mk.inj hrest
  exact ⟨attempts, db', passes_of_passAll hpasses, List.all_eq_true.mp hassigned, hids, hpending⟩

theorem sampleArrivals_pending : pendingMessages 1 sampleArrivals = [1, 2, 3] := by decide +kernel

/-- With one job a pass the newest original, which is gone, is tried three times, and the other two
jobs are never attempted. -/
theorem newest_starves : ∃ attempts db',
    Passes sampleIngestion 1 1 (passesFor (pendingMessages 1 sampleArrivals).length 1)
      sampleArrivals attempts db' ∧
    FetchedOriginals sampleArrivals ∧ Assigned sampleOutcome attempts ∧
    ¬ ∀ id ∈ pendingMessages 1 sampleArrivals,
      (∃ attempt ∈ attempts, attempt.messageId = id) ∨ id ∉ pendingMessages 1 db' := by
  have hview : passView 1 3 = some ([1, 1, 1], true, [1, 2, 3]) := by decide +kernel
  obtain ⟨attempts, db', hpasses, hassigned, hids, hpending⟩ := passes_of_passView hview
  refine ⟨attempts, db', ?_, by decide +kernel, hassigned, fun hall => ?_⟩
  · rw [sampleArrivals_pending]
    exact hpasses
  · rw [sampleArrivals_pending, hpending] at hall
    rcases hall 2 (by decide) with ⟨attempt, hattempt, hid⟩ | hnot
    · have hmem : 2 ∈ attempts.map (·.messageId) := List.mem_map.mpr ⟨attempt, hattempt, hid⟩
      rw [hids] at hmem
      exact absurd hmem (by decide)
    · exact hnot (by decide)

/-- With two jobs a pass two passes have one place to spare, which the newest job takes again. -/
theorem bodies_attempted_sample : ∃ attempts db',
    Passes sampleIngestion 1 2 (passesFor (pendingMessages 1 sampleArrivals).length 2)
      sampleArrivals attempts db' ∧
    ∀ id ∈ pendingMessages 1 sampleArrivals,
      (∃ attempt ∈ attempts, attempt.messageId = id) ∨ id ∉ pendingMessages 1 db' := by
  have hview : passView 2 2 = some ([1, 2, 1, 3], true, [1, 3]) := by decide +kernel
  obtain ⟨attempts, db', hpasses, hassigned, -, -⟩ := passes_of_passView hview
  have hdb : FetchedOriginals sampleArrivals := by decide +kernel
  have hpasses' : Passes sampleIngestion 1 2
      (passesFor (pendingMessages 1 sampleArrivals).length 2) sampleArrivals attempts db' := by
    rw [sampleArrivals_pending]
    exact hpasses
  refine ⟨attempts, db', hpasses', (bodies_attempted_iff (by decide) hdb hpasses' hassigned).mpr ?_⟩
  rw [sampleArrivals_pending]
  decide +kernel

end MailHub
