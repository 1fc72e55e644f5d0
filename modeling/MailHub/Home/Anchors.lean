import MailHub.Home.Work
import MailHub.Ingestion.Originals

/-!
# Anchors under merges

A merge of duplicate messages moves the saved work of the removed message to the surviving one. The
statement that moves it picks its rows in the snapshot that it starts with and looks at each of them
again where it writes; the owner's statements may run in between, and then the index on open records
has the last word. With a snapshot that is still current the statement alone keeps the index.
-/

namespace MailHub.Home

open Relational Interleaving

open HomeProgram (query ask)

/-! ## The merge -/

/-- Whether a record moves with the anchor, by what the statement sees of the other records. -/
def moves (removedId survivorId : Uuid) (seen : Database) (work : HomeWork) : Bool :=
  work.anchorMessageId == removedId && !losesAnchor survivorId seen work

theorem movedAnchor_key (survivorId : Uuid) (now : Instant) (w : HomeWork) :
    Keyed.key { w with anchorMessageId := survivorId, updatedAt := now } = Keyed.key w := rfl

/-- The saved work after a merge whose statement started at the snapshot `seen`: it takes the rows
that moved there and checks each of them again as it is now. -/
def movedWork (seen : Database) (removedId survivorId : Uuid) (now : Instant)
    (work : Table HomeWork) : Table HomeWork :=
  work.update
    (fun w => seen.homeWork.rows.any (fun old => old.id == w.id &&
      moves removedId survivorId seen old) && moves removedId survivorId seen w)
    (fun w => { w with anchorMessageId := survivorId, updatedAt := now })
    (movedAnchor_key survivorId now)

/-- Merge a duplicate into the surviving message, with saved work as the snapshot had it. -/
def mergeSeen (seen : Database) (accountId : Uuid) (provisional : Message) (survivorId : Uuid)
    (sha256 : String) (sizeBytes : ℕ) (parsed : ParsedMessage) (now : Instant) :
    Tx IngestResult := do
  let db ← get
  let work := movedWork seen provisional.id survivorId now db.homeWork
  set { moveReferences provisional.id survivorId now db with homeWork := db.homeWork }
  storeWork work
  deleteMessage provisional.id
  markThreadJobsDirty accountId ⟨[survivorId], [provisional.messageId, parsed.messageId]⟩
  Tx.recordEvent .system "message.merged" "message" survivorId
  return ⟨.merged, survivorId, some provisional.id, sha256, sizeBytes, parsed.attachments.length⟩

/-- What one parsed original is committed with. -/
structure ParsedOriginal where
  accountId : Uuid
  messageId : Uuid
  parsed : ParsedMessage
  derived : DerivedBody
  storageKey : String
  sha256 : String
  sizeBytes : ℕ
  deriving DecidableEq, Repr

/-- The transaction that commits one parsed original, with saved work as the snapshot had it. -/
def commitSeen (seen : Database) (o : ParsedOriginal) (now : Instant) : Tx IngestResult := do
  let row ← lockMessage o.accountId o.messageId
  match findDuplicate o.accountId o.messageId o.sha256 (← get) with
  | some duplicate =>
      mergeSeen seen o.accountId row duplicate.id o.sha256 o.sizeBytes o.parsed now
  | none => applyIngested o.accountId row o.parsed o.derived o.storageKey o.sha256 o.sizeBytes

/-- One attempt to commit a parsed original: the owner's statements run between the snapshot and
the commit. -/
def attemptCommit (o : ParsedOriginal) : HomeProgram IngestResult := do
  let now ← ask .transactionStart
  let seen ← query fun db => db
  execute (commitSeen seen o now)

/-- Commit one parsed original; a lost race on an index is run once more. -/
def commitParsed (o : ParsedOriginal) : HomeProgram IngestResult := do
  match ← (attemptCommit o).attempt with
  | .ok result => return result
  | .error cause => if cause.isUniqueViolation then attemptCommit o else throw cause

/-! ## What a merge does to saved work -/

variable {db db' seen : Database} {removedId survivorId : Uuid} {now : Instant} {a b : HomeWork}

/-- The same record, possibly at another anchor. -/
def SameRecord (a b : HomeWork) : Prop :=
  ∃ anchorMessageId updatedAt, b = { a with anchorMessageId, updatedAt }

theorem SameRecord.refl (a : HomeWork) : SameRecord a a := ⟨_, _, rfl⟩

theorem SameRecord.trans {c : HomeWork} (h : SameRecord a b) (h' : SameRecord b c) :
    SameRecord a c := by
  obtain ⟨_, _, rfl⟩ := h
  obtain ⟨anchor, time, rfl⟩ := h'
  exact ⟨anchor, time, rfl⟩

/-- Every record is there before and after, possibly at another anchor. -/
structure Reanchors (before after : Table HomeWork) : Prop where
  kept : ∀ a ∈ before, ∃ b ∈ after, SameRecord a b
  old : ∀ b ∈ after, ∃ a ∈ before, SameRecord a b

theorem Reanchors.refl (work : Table HomeWork) : Reanchors work work :=
  ⟨fun a ha => ⟨a, ha, .refl a⟩, fun b hb => ⟨b, hb, .refl b⟩⟩

theorem Reanchors.trans {work₁ work₂ work₃ : Table HomeWork} (h : Reanchors work₁ work₂)
    (h' : Reanchors work₂ work₃) : Reanchors work₁ work₃ := by
  constructor
  · intro a ha
    obtain ⟨b, hb, hab⟩ := h.kept a ha
    obtain ⟨c, hc, hbc⟩ := h'.kept b hb
    exact ⟨c, hc, hab.trans hbc⟩
  · intro c hc
    obtain ⟨b, hb, hbc⟩ := h'.old c hc
    obtain ⟨a, ha, hab⟩ := h.old b hb
    exact ⟨a, ha, hab.trans hbc⟩

/-- No revision changes with the anchor. -/
theorem Reanchors.rises {before after : Table HomeWork} (h : Reanchors before after) :
    Rises before after := by
  intro a ha b hb hid
  obtain ⟨a', ha', _, _, rfl⟩ := h.old b hb
  rw [Table.eq_of_key_eq ha ha' hid]

/-- The statement of a merge touches anchors only. -/
theorem reanchors_movedWork (seen : Database) (removedId survivorId : Uuid) (now : Instant)
    (work : Table HomeWork) : Reanchors work (movedWork seen removedId survivorId now work) := by
  unfold movedWork
  constructor
  · intro a ha
    rw [Table.mem_iff] at ha
    refine ⟨_, List.mem_map_of_mem ha, ?_⟩
    split
    · exact ⟨_, _, rfl⟩
    · exact .refl a
  · intro b hb
    obtain ⟨a, ha, rfl⟩ := List.mem_map.mp hb
    refine ⟨a, ha, ?_⟩
    split
    · exact ⟨_, _, rfl⟩
    · exact .refl a

/-- A step that keeps the index on open records and every record. -/
structure MergeStep (db db' : Database) : Prop where
  unique : OpenUnique db.homeWork → OpenUnique db'.homeWork
  reanchors : Reanchors db.homeWork db'.homeWork

instance : Std.Refl MergeStep := ⟨fun db => ⟨fun h => h, .refl db.homeWork⟩⟩

instance : IsTrans Database MergeStep :=
  ⟨fun _ _ _ h h' => ⟨fun hu => h'.unique (h.unique hu), h.reanchors.trans h'.reanchors⟩⟩

/-- What leaves saved work alone is such a step. -/
theorem mergeStep_of_same (h : db'.homeWork = db.homeWork) : MergeStep db db' := by
  refine ⟨fun hunique => ?_, ?_⟩
  · rw [h]
    exact hunique
  · rw [h]
    exact .refl db.homeWork

theorem mergeStep_recordEvent (actor : Actor) (type entityType : String) (id : Uuid)
    (db : Database) : Steps MergeStep db (Tx.recordEvent actor type entityType id) :=
  .modify (mergeStep_of_same rfl)

theorem mergeStep_markThreadJobsDirty (accountId : Uuid) (marking : ThreadJobMarking)
    (db : Database) : Steps MergeStep db (markThreadJobsDirty accountId marking) :=
  markThreadJobsDirty_steps (mergeStep_of_same rfl)

theorem mergeStep_deleteMessage (removedId : Uuid) (db : Database) :
    Steps MergeStep db (deleteMessage removedId) := by
  unfold deleteMessage
  refine .get_bind (.ite (fun _ => .throw_bind) fun _ => .ite (fun _ => .throw_bind) fun _ => ?_)
  exact .set (mergeStep_of_same rfl)

/-- A merge keeps the index and every record, whatever its statement saw. -/
theorem mergeStep_mergeSeen (accountId : Uuid) (provisional : Message) (sha256 : String)
    (sizeBytes : ℕ) (parsed : ParsedMessage) (db : Database) :
    Steps MergeStep db
      (mergeSeen seen accountId provisional survivorId sha256 sizeBytes parsed now) := by
  unfold mergeSeen
  refine .get_bind (.set_bind (mergeStep_of_same rfl) (.bind ⟨fun u db₁ hrun => ?_⟩ ?_))
  · obtain ⟨hunique, rfl⟩ := storeWork_ok.mp hrun
    exact ⟨fun _ => hunique, reanchors_movedWork seen provisional.id survivorId now db.homeWork⟩
  · intro _ db₁ _
    refine .bind (mergeStep_deleteMessage _ _) fun _ db₂ _ => ?_
    refine .bind (mergeStep_markThreadJobsDirty _ _ _) fun _ db₃ _ => ?_
    exact .bind (mergeStep_recordEvent _ _ _ _ _) fun _ db₄ _ => .pure _

theorem mergeStep_applyIngested (accountId : Uuid) (row : Message) (parsed : ParsedMessage)
    (derived : DerivedBody) (storageKey sha256 : String) (sizeBytes : ℕ) (db : Database) :
    Steps MergeStep db
      (applyIngested accountId row parsed derived storageKey sha256 sizeBytes) := by
  unfold applyIngested
  refine .bind (.modify (mergeStep_of_same rfl)) fun _ db₁ _ => ?_
  refine .bind (mergeStep_markThreadJobsDirty _ _ _) fun _ db₂ _ => ?_
  exact .bind (mergeStep_recordEvent _ _ _ _ _) fun _ db₃ _ => .pure _

theorem mergeStep_lockMessage (accountId messageId : Uuid) (db : Database) :
    Steps MergeStep db (lockMessage accountId messageId) := by
  unfold lockMessage
  refine .get_bind ?_
  split
  · exact .pure _
  · exact .throw

/-- The transaction that commits a parsed original keeps the index and every record. -/
theorem mergeStep_commitSeen (o : ParsedOriginal) (db : Database) :
    Steps MergeStep db (commitSeen seen o now) := by
  unfold commitSeen
  refine .bind (mergeStep_lockMessage _ _ _) fun row db₁ _ => .get_bind ?_
  split
  · exact mergeStep_mergeSeen _ _ _ _ _ _
  · exact mergeStep_applyIngested _ _ _ _ _ _ _ _

/-! ## A snapshot that is current -/

/-- With a current snapshot the statement moves the rows that the merge of originals moves. -/
theorem movedWork_current (removedId survivorId : Uuid) (now : Instant) (db : Database) :
    movedWork db removedId survivorId now db.homeWork =
      (moveReferences removedId survivorId now db).homeWork := by
  unfold movedWork moveReferences
  refine Table.update_congr fun w hw => ?_
  cases hmoves : moves removedId survivorId db w with
  | false =>
      rw [Bool.and_false]
      exact hmoves.symm
  | true =>
      have hseen : (db.homeWork.rows.any fun old =>
          old.id == w.id && moves removedId survivorId db old) = true :=
        List.any_eq_true.mpr ⟨w, hw, by simp [hmoves]⟩
      rw [hseen, Bool.and_true]
      exact hmoves.symm

/-- A record after a merge of originals moved there or stayed. -/
theorem of_mem_moveReferences (h : b ∈ (moveReferences removedId survivorId now db).homeWork) :
    ∃ a ∈ db.homeWork,
      (moves removedId survivorId db a = true ∧
        b = { a with anchorMessageId := survivorId, updatedAt := now }) ∨ b = a := by
  obtain ⟨a, ha, hab⟩ := List.mem_map.mp h
  refine ⟨a, ha, ?_⟩
  split at hab
  next hmoves => exact .inl ⟨hmoves, hab.symm⟩
  next => exact .inr hab.symm

/-- A record that moves finds no other open one of its kind at the survivor. -/
theorem survivor_free (hb : b ∈ db.homeWork) (hopen : a.status = .open) (hopen' : b.status = .open)
    (hmoves : moves removedId survivorId db a = true)
    (hslot : HomeWork.slot b = (a.accountId, a.kind, survivorId)) : b.id = a.id := by
  by_contra hne
  obtain ⟨haccount, hkind, hanchor⟩ : b.accountId = a.accountId ∧ b.kind = a.kind ∧
      b.anchorMessageId = survivorId := by simpa [HomeWork.slot] using hslot
  have hloses : losesAnchor survivorId db a = true := by
    unfold losesAnchor
    rw [hopen, Bool.and_eq_true, List.any_eq_true]
    exact ⟨rfl, b, hb, by simp [haccount, hkind, hopen', hanchor, hne]⟩
  simp [moves, hloses] at hmoves

/-- With a current snapshot the statement keeps the index by itself: it leaves a record where the
survivor holds another open one of its kind. -/
theorem unique_movedWork (h : OpenUnique db.homeWork) :
    OpenUnique (movedWork db removedId survivorId now db.homeWork) := by
  rw [movedWork_current]
  intro a ha b hb hopen hopen' hslot
  obtain ⟨a₀, ha₀, ⟨hmoves, rfl⟩ | rfl⟩ := of_mem_moveReferences ha
  · have hremoved : a₀.anchorMessageId = removedId := by
      simpa using (Bool.and_eq_true_iff.mp hmoves).1
    obtain ⟨b₀, hb₀, ⟨hmoves', rfl⟩ | rfl⟩ := of_mem_moveReferences hb
    · have hremoved' : b₀.anchorMessageId = removedId := by
        simpa using (Bool.and_eq_true_iff.mp hmoves').1
      have hsame : HomeWork.slot a₀ = HomeWork.slot b₀ := by
        simp only [HomeWork.slot, Prod.mk.injEq] at hslot ⊢
        exact ⟨hslot.1, hslot.2.1, hremoved.trans hremoved'.symm⟩
      rw [h a₀ ha₀ b₀ hb₀ hopen hopen' hsame]
    · have hid : b.id = a₀.id := survivor_free hb₀ hopen hopen' hmoves hslot.symm
      obtain rfl : a₀ = b := Table.eq_of_key_eq ha₀ hb₀ hid.symm
      rw [Table.eq_of_key_eq ha hb rfl]
  · obtain ⟨b₀, hb₀, ⟨hmoves', rfl⟩ | rfl⟩ := of_mem_moveReferences hb
    · have hid : a.id = b₀.id := survivor_free ha₀ hopen' hopen hmoves' hslot
      obtain rfl : a = b₀ := Table.eq_of_key_eq ha₀ hb₀ hid
      rw [Table.eq_of_key_eq ha hb rfl]
    · exact h a ha₀ b hb₀ hopen hopen' hslot

/-- The merge with a current snapshot is the merge of the ingestion. -/
theorem mergeSeen_current {accountId : Uuid} {provisional : Message} {sha256 : String}
    {sizeBytes : ℕ} {parsed : ParsedMessage} (h : OpenUnique db.homeWork) :
    (mergeSeen db accountId provisional survivorId sha256 sizeBytes parsed now).run db =
      (mergeDuplicate accountId provisional survivorId sha256 sizeBytes parsed now).run db := by
  have hstore : (storeWork (movedWork db provisional.id survivorId now db.homeWork)).run
      { moveReferences provisional.id survivorId now db with homeWork := db.homeWork } =
        .ok ((), moveReferences provisional.id survivorId now db) := by
    rw [storeWork_ok]
    refine ⟨unique_movedWork h, ?_⟩
    rw [movedWork_current]
  unfold mergeSeen mergeDuplicate
  simp only [StateT.run_bind, StateT.run_get, StateT.run_set, StateT.run_modify, pure_bind]
  rw [hstore]
  rfl

/-- With a current snapshot a parsed original is committed as the ingestion commits it. -/
theorem commitSeen_current (o : ParsedOriginal) (h : OpenUnique db.homeWork) :
    (commitSeen db o now).run db = (commitOriginal o.accountId o.messageId o.parsed o.derived
      o.storageKey o.sha256 o.sizeBytes now).run db := by
  unfold commitSeen commitOriginal
  rw [StateT.run_bind, StateT.run_bind]
  cases hlock : (lockMessage o.accountId o.messageId).run db with
  | error e => rfl
  | ok r =>
      obtain ⟨row, db₁⟩ := r
      obtain rfl : db₁ = db := lockMessage_run hlock
      simp only [ok_bind, StateT.run_bind, StateT.run_get, pure_bind]
      cases findDuplicate o.accountId o.messageId o.sha256 db₁ with
      | none => rfl
      | some duplicate => exact mergeSeen_current h

end MailHub.Home
