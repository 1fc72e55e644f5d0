import MailHub.Home.Anchors
import MailHub.Send.Execution
import MailHub.Sync.Acyclic

/-!
# Merging duplicates

A message whose original is byte-identical to that of another one merges into it in one
transaction, and everything that named it names the survivor.
-/

namespace MailHub

open Relational Ordering Interleaving

variable {accountId otherId removedId survivorId id : Uuid} {now : Instant} {db db' : Database}

/-! ## What a merge leaves -/

/-- The database without a message and its derived rows. -/
def removeMessage (removedId : Uuid) (db : Database) : Database :=
  { db with
    attachments := db.attachments.delete (·.messageId == removedId)
    bodies := db.bodies.delete (·.messageId == removedId)
    messages := db.messages.delete (·.id == removedId) }

/-- The database after a merge that committed. -/
def afterMerge (accountId : Uuid) (provisional : Message) (survivorId : Uuid)
    (parsed : ParsedMessage) (now : Instant) (db : Database) : Database :=
  let marking : ThreadJobMarking := ⟨[survivorId], [provisional.messageId, parsed.messageId]⟩
  let merged := markDirty (marking.marks accountId)
    (removeMessage provisional.id (moveReferences provisional.id survivorId now db))
  { merged with
    events := merged.events ++ [⟨.system, "message.merged", "message", survivorId⟩] }

/-- Whether a foreign key that no merge moves names a message. -/
def Held (id : Uuid) (db : Database) : Prop :=
  (∃ decision ∈ db.decisions, decision.messageId = id) ∨
    ∃ row ∈ db.outboundMessages, row.logicalMessageId = some id

/-- Moving references leaves those keys alone. -/
theorem held_moveReferences :
    Held id (moveReferences removedId survivorId now db) ↔ Held id db := by
  unfold Held moveReferences
  dsimp only
  refine or_congr Iff.rfl ⟨?_, ?_⟩
  · rintro ⟨row, hrow, hid⟩
    obtain ⟨row₀, hrow₀, rfl⟩ := Table.mem_update.mp hrow
    refine ⟨row₀, hrow₀, ?_⟩
    split at hid <;> exact hid
  · rintro ⟨row, hrow, hid⟩
    refine ⟨_, Table.mem_update.mpr ⟨row, hrow, rfl⟩, ?_⟩
    split <;> exact hid

/-- A row is deleted unless such a key names it. -/
theorem deleteMessage_run (h : ¬ Held removedId db) : (deleteMessage removedId).run db =
    .ok ((), removeMessage removedId db) := by
  unfold Held at h
  push Not at h
  obtain ⟨hdecisions, hrows⟩ := h
  have hrow : db.outboundMessages.rows.any (·.logicalMessageId == some removedId) = false := by
    rw [List.any_eq_false]
    intro row hrow
    simpa using hrows row hrow
  have hdecision : db.decisions.rows.any (·.messageId == removedId) = false := by
    rw [List.any_eq_false]
    intro decision hdecision
    simpa using hdecisions decision hdecision
  unfold deleteMessage
  simp only [StateT.run_bind, StateT.run_get, pure_bind, hrow, hdecision, Bool.false_eq_true,
    if_false]
  rfl

/-- A row that such a key names is not deleted. -/
theorem deleteMessage_held (h : Held removedId db) :
    ∃ e, (deleteMessage removedId).run db = .error e := by
  unfold deleteMessage
  by_cases hrow : ∃ row ∈ db.outboundMessages.rows, row.logicalMessageId = some removedId
  · simp [hrow]
  · have hdecision : ∃ decision ∈ db.decisions.rows, decision.messageId = removedId :=
      h.resolve_right hrow
    simp [hrow, hdecision]

/-- A merge commits unless such a key names the removed message. -/
theorem mergeDuplicate_run {provisional : Message} {sha256 : String} {sizeBytes : ℕ}
    {parsed : ParsedMessage} (h : ¬ Held provisional.id db) :
    (mergeDuplicate accountId provisional survivorId sha256 sizeBytes parsed now).run db =
      .ok (⟨.merged, survivorId, some provisional.id, sha256, sizeBytes,
        parsed.attachments.length⟩, afterMerge accountId provisional survivorId parsed now db) := by
  have hmoved : ¬ Held provisional.id (moveReferences provisional.id survivorId now db) :=
    fun hheld => h (held_moveReferences.mp hheld)
  unfold mergeDuplicate afterMerge
  simp only [StateT.run_bind, StateT.run_modify, pure_bind, deleteMessage_run hmoved,
    markThreadJobsDirty_run, Tx.recordEvent_run, ok_bind]
  rfl

/-- What a merge that committed left. -/
theorem mergeDuplicate_ok {provisional : Message} {sha256 : String} {sizeBytes : ℕ}
    {parsed : ParsedMessage} {result : IngestResult}
    (h : (mergeDuplicate accountId provisional survivorId sha256 sizeBytes parsed now).run db =
      .ok (result, db')) :
    ¬ Held provisional.id db ∧ db' = afterMerge accountId provisional survivorId parsed now db := by
  by_cases hheld : Held provisional.id db
  · obtain ⟨e, he⟩ : ∃ e, (deleteMessage provisional.id).run
        (moveReferences provisional.id survivorId now db) = .error e :=
      deleteMessage_held (held_moveReferences.mpr hheld)
    unfold mergeDuplicate at h
    simp only [StateT.run_bind, StateT.run_modify, pure_bind] at h
    rw [he] at h
    cases h
  · rw [mergeDuplicate_run hheld] at h
    exact ⟨hheld, (Prod.mk.inj (Except.ok.inj h)).2.symm⟩

/-! ## The rows after a merge -/

/-- A merge leaves alone what it cannot move. -/
theorem held_afterMerge {provisional : Message} {parsed : ParsedMessage} :
    Held id (afterMerge accountId provisional survivorId parsed now db) ↔ Held id db := by
  have hmoved : Held id (afterMerge accountId provisional survivorId parsed now db) ↔
      Held id (moveReferences provisional.id survivorId now db) := Iff.rfl
  rw [hmoved, held_moveReferences]

@[simp] theorem movedRow_id (m : Message) : (movedRow removedId survivorId m).id = m.id := by
  unfold movedRow
  dsimp only
  split <;> split <;> rfl

@[simp] theorem movedRow_accountId (m : Message) :
    (movedRow removedId survivorId m).accountId = m.accountId := by
  unfold movedRow
  dsimp only
  split <;> split <;> rfl

@[simp] theorem movedRow_originalSha256 (m : Message) :
    (movedRow removedId survivorId m).originalSha256 = m.originalSha256 := by
  unfold movedRow
  dsimp only
  split <;> split <;> rfl

@[simp] theorem movedRow_messageId (m : Message) :
    (movedRow removedId survivorId m).messageId = m.messageId := by
  unfold movedRow
  dsimp only
  split <;> split <;> rfl

/-- Only the survivor and the children of the removed row change. -/
theorem movedRow_eq_self {m : Message} (h : m.parentMessageId ≠ some removedId) :
    movedRow removedId survivorId m = m := by
  unfold movedRow
  simp [h]

/-- The parent that a row has after its references moved. -/
theorem movedRow_parentMessageId (m : Message) :
    (movedRow removedId survivorId m).parentMessageId =
      if m.parentMessageId = some removedId then
        (if m.id = survivorId then none else some survivorId)
      else m.parentMessageId := by
  unfold movedRow
  by_cases hparent : m.parentMessageId = some removedId
  · by_cases hid : m.id = survivorId <;> simp [hparent, hid]
  · simp [hparent]

/-- A row of a merged database is an old one with its references moved, and possibly a job. -/
theorem of_mem_afterMerge {provisional m : Message} {parsed : ParsedMessage}
    (h : m ∈ (afterMerge accountId provisional survivorId parsed now db).messages) :
    ∃ m₀ ∈ db.messages, m₀.id ≠ provisional.id ∧ ∃ threadDirty,
      { movedRow provisional.id survivorId m₀ with threadDirty } = m := by
  obtain ⟨m₁, hm₁, hm⟩ := mem_markDirty.mp h
  obtain ⟨hmoved, hid⟩ := Table.mem_delete.mp hm₁
  rw [Table.mem_iff, messages_moveReferences] at hmoved
  obtain ⟨m₀, hm₀, rfl⟩ := List.mem_map.mp hmoved
  refine ⟨m₀, hm₀, by simpa using hid, ?_⟩
  split at hm
  · exact ⟨true, hm⟩
  · exact ⟨_, hm⟩

/-- A marking keeps every row. -/
theorem exists_mem_markDirty {p : Message → Bool} {m : Message} (hm : m ∈ db.messages) :
    ∃ threadDirty, { m with threadDirty } ∈ (markDirty p db).messages := by
  by_cases hp : p m
  · exact ⟨true, mem_markDirty.mpr ⟨m, hm, if_pos hp⟩⟩
  · exact ⟨m.threadDirty, mem_markDirty.mpr ⟨m, hm, if_neg hp⟩⟩

/-- Every row but the removed one is still there, with its references moved. -/
theorem mem_afterMerge {provisional m : Message} {parsed : ParsedMessage} (hm : m ∈ db.messages)
    (hid : m.id ≠ provisional.id) : ∃ threadDirty,
      { movedRow provisional.id survivorId m with threadDirty } ∈
        (afterMerge accountId provisional survivorId parsed now db).messages := by
  have hkept : movedRow provisional.id survivorId m ∈ (removeMessage provisional.id
      (moveReferences provisional.id survivorId now db)).messages := by
    refine Table.mem_delete.mpr ⟨?_, by simpa using hid⟩
    rw [Table.mem_iff, messages_moveReferences]
    exact List.mem_map_of_mem hm
  exact exists_mem_markDirty hkept

theorem find?_moveReferences : (moveReferences removedId survivorId now db).messages.find? id =
    (db.messages.find? id).map (movedRow removedId survivorId) := by
  unfold moveReferences
  dsimp only
  rw [Table.find?_update, Table.find?_update, Option.map_map]
  rfl

/-- A merge contracts the parent graph of every account. -/
theorem recordedParent_afterMerge {provisional : Message} {parsed : ParsedMessage} :
    recordedParent accountId (afterMerge otherId provisional survivorId parsed now db) =
      contract (recordedParent accountId db) provisional.id survivorId := by
  have hmarked : recordedParent accountId
      (afterMerge otherId provisional survivorId parsed now db) =
      recordedParent accountId (removeMessage provisional.id
        (moveReferences provisional.id survivorId now db)) := recordedParent_markDirty
  rw [hmarked]
  funext x
  cases hfind : db.messages.find? x with
  | none =>
      simp [recordedParent, findRow, removeMessage, contract, find?_moveReferences, hfind]
  | some m =>
      obtain rfl : m.id = x := Table.key_of_find? hfind
      by_cases hid : m.id = provisional.id
      · rw [hid] at hfind
        simp [recordedParent, findRow, removeMessage, contract, find?_moveReferences, hfind,
          Option.filter, hid]
      · by_cases haccount : m.accountId = accountId <;>
          simp [recordedParent, findRow, removeMessage, contract, find?_moveReferences, hfind,
            Option.filter, hid, haccount, movedRow_parentMessageId]

/-! ## What a merge owes -/

/-- A saved work record is open while the survivor has an open record of its kind. -/
def AlreadyOpen (survivorId : Uuid) (db : Database) (w : HomeWork) : Prop :=
  w.status = .open ∧ ∃ other ∈ db.homeWork, other.accountId = w.accountId ∧ other.kind = w.kind ∧
    other.status = .open ∧ other.anchorMessageId = survivorId

/-- What named the removed message names the survivor, and the rest stays as it is. -/
structure CarriedOver (removedId survivorId : Uuid) (db db' : Database) : Prop where
  occurrences : ∀ o ∈ db.messageOccurrences,
    (if o.messageId = removedId then { o with messageId := survivorId } else o) ∈
      db'.messageOccurrences
  /-- Every other row stays, and a child of the removed one is a child of the survivor. -/
  children : ∀ m ∈ db.messages, m.id ≠ removedId → ∃ m' ∈ db'.messages, m'.id = m.id ∧
    m'.accountId = m.accountId ∧ m'.originalSha256 = m.originalSha256 ∧
    m'.parentMessageId = if m.parentMessageId = some removedId then
      (if m.id = survivorId then none else some survivorId) else m.parentMessageId
  drafts : ∀ d ∈ db.drafts,
    (if d.replyParentId = some removedId then { d with replyParentId := some survivorId } else d) ∈
      db'.drafts
  outbound : ∀ o ∈ db.outboundMessages,
    (if o.replyParentId = some removedId then { o with replyParentId := some survivorId } else o) ∈
      db'.outboundMessages
  /-- Saved work moves, but for an open record whose kind is open at the survivor already. -/
  work : ∀ w ∈ db.homeWork, (w.anchorMessageId = removedId → ¬ AlreadyOpen survivorId db w →
      ∃ updatedAt, { w with anchorMessageId := survivorId, updatedAt } ∈ db'.homeWork) ∧
    (w.anchorMessageId ≠ removedId ∨ AlreadyOpen survivorId db w → w ∈ db'.homeWork)
  /-- A dismissal moves, unless the survivor is dismissed already. -/
  dismissals : ∀ d ∈ db.homeDismissals, ∃ d' ∈ db'.homeDismissals, d'.accountId = d.accountId ∧
    d'.messageId = if d.messageId = removedId then survivorId else d.messageId

/-- No foreign key names a message. -/
structure Released (id : Uuid) (db : Database) : Prop where
  messages : ∀ m ∈ db.messages, m.id ≠ id ∧ m.parentMessageId ≠ some id
  occurrences : ∀ o ∈ db.messageOccurrences, o.messageId ≠ id
  bodies : ∀ b ∈ db.bodies, b.messageId ≠ id
  attachments : ∀ a ∈ db.attachments, a.messageId ≠ id
  drafts : ∀ d ∈ db.drafts, d.replyParentId ≠ some id
  outbound : ∀ o ∈ db.outboundMessages, o.replyParentId ≠ some id ∧ o.logicalMessageId ≠ some id
  decisions : ∀ d ∈ db.decisions, d.messageId ≠ id

/-- The constraints on the rows that a merge writes. -/
structure Constrained (db : Database) : Prop where
  openWork : Home.OpenUnique db.homeWork
  /-- An account dismisses a message once. -/
  dismissals : ∀ d ∈ db.homeDismissals, ∀ d' ∈ db.homeDismissals, d.accountId = d'.accountId →
    d.messageId = d'.messageId → d = d'
  /-- A row is linked when it has a parent, which is another row. -/
  links : ∀ m ∈ db.messages, (m.threadLinkState = .linked ↔ m.parentMessageId.isSome) ∧
    m.parentMessageId ≠ some m.id

variable {provisional : Message} {parsed : ParsedMessage}

/-- A record at the removed message stays exactly when it is open and its kind is open at the
survivor. -/
theorem losesAnchor_iff {w : HomeWork} (hw : w ∈ db.homeWork) (hanchor : w.anchorMessageId = removedId)
    (hne : survivorId ≠ removedId) : losesAnchor survivorId db w = true ↔
      AlreadyOpen survivorId db w := by
  unfold losesAnchor AlreadyOpen
  rw [Bool.and_eq_true, List.any_eq_true, beq_iff_eq]
  refine and_congr_right fun _ => exists_congr fun other => and_congr_right fun hother => ?_
  simp only [Bool.and_eq_true, beq_iff_eq, bne_iff_ne, and_assoc]
  refine and_congr_right fun _ => and_congr_right fun _ => and_congr_right fun _ =>
    and_iff_left_of_imp fun hsurvivor hid => hne ?_
  -- a record at the survivor is not the one at the removed message
  have hsame : other = w := Table.eq_of_key_eq hother hw hid
  rw [← hsurvivor, hsame, hanchor]

/-- Everything that named the removed message names the survivor after a merge. -/
theorem carriedOver_afterMerge (hne : survivorId ≠ provisional.id) :
    CarriedOver provisional.id survivorId db
      (afterMerge accountId provisional survivorId parsed now db) where
  occurrences o ho := List.mem_map.mpr ⟨o, ho, by simp only [beq_iff_eq]⟩
  children m hm hid := by
    obtain ⟨threadDirty, hmem⟩ : ∃ threadDirty, _ ∈ (afterMerge accountId provisional survivorId
      parsed now db).messages := mem_afterMerge hm hid
    exact ⟨_, hmem, movedRow_id m, movedRow_accountId m, movedRow_originalSha256 m,
      movedRow_parentMessageId m⟩
  drafts d hd := List.mem_map.mpr ⟨d, hd, by simp only [beq_iff_eq]⟩
  outbound o ho := List.mem_map.mpr ⟨o, ho, by simp only [beq_iff_eq]⟩
  work w hw := by
    constructor
    · intro hanchor hfree
      have hmoves : losesAnchor survivorId db w = false := by
        rw [Bool.eq_false_iff]
        exact fun h => hfree ((losesAnchor_iff hw hanchor hne).mp h)
      exact ⟨now, List.mem_map.mpr ⟨w, hw, if_pos (by simp [hanchor, hmoves])⟩⟩
    · intro hstays
      refine List.mem_map.mpr ⟨w, hw, if_neg ?_⟩
      rcases hstays with hanchor | hopen
      · simp [hanchor]
      · by_cases hanchor : w.anchorMessageId = provisional.id
        · simp [(losesAnchor_iff hw hanchor hne).mpr hopen]
        · simp [hanchor]
  dismissals d hd := by
    by_cases hdismissed : d.messageId = provisional.id ∧ isDismissed survivorId db d = true
    · obtain ⟨other, hother, hsame⟩ := List.any_eq_true.mp hdismissed.2
      obtain ⟨haccount, hsurvivor⟩ : other.accountId = d.accountId ∧
        other.messageId = survivorId := by simpa using hsame
      refine ⟨other, List.mem_map.mpr ⟨other, Table.mem_delete.mpr ⟨hother, ?_⟩, if_neg ?_⟩,
        haccount, ?_⟩
      · simp [hsurvivor, hne]
      · simp [hsurvivor, hne]
      · rw [if_pos hdismissed.1, hsurvivor]
    · refine ⟨_, List.mem_map.mpr ⟨d, Table.mem_delete.mpr ⟨hd, ?_⟩, rfl⟩, ?_, ?_⟩
      · simpa using hdismissed
      · split <;> rfl
      · simp only [beq_iff_eq]
        split <;> rfl

/-- No foreign key names the removed message after a merge that commits. -/
theorem released_afterMerge (hheld : ¬ Held provisional.id db) (hne : survivorId ≠ provisional.id) :
    Released provisional.id (afterMerge accountId provisional survivorId parsed now db) where
  messages m hm := by
    obtain ⟨m₀, -, hid, threadDirty, rfl⟩ := of_mem_afterMerge hm
    refine ⟨(movedRow_id m₀).trans_ne hid, ?_⟩
    dsimp only
    rw [movedRow_parentMessageId]
    by_cases hparent : m₀.parentMessageId = some provisional.id
    · by_cases hs : m₀.id = survivorId <;> simp [hparent, hs, hne]
    · rw [if_neg hparent]
      exact hparent
  occurrences o ho := by
    obtain ⟨o₀, -, rfl⟩ := List.mem_map.mp ho
    by_cases ho₀ : o₀.messageId = provisional.id <;> simp [ho₀, hne]
  bodies b hb := by
    have hkept := (Table.mem_delete.mp hb).2
    simpa using hkept
  attachments a ha := by
    have hkept := (Table.mem_delete.mp ha).2
    simpa using hkept
  drafts d hd := by
    obtain ⟨d₀, -, rfl⟩ := List.mem_map.mp hd
    by_cases hd₀ : d₀.replyParentId = some provisional.id <;> simp [hd₀, hne]
  outbound o ho := by
    obtain ⟨o₀, ho₀, rfl⟩ := List.mem_map.mp ho
    have hlogical : o₀.logicalMessageId ≠ some provisional.id :=
      fun h => hheld (.inr ⟨o₀, ho₀, h⟩)
    by_cases hreply : o₀.replyParentId = some provisional.id <;> simp [hreply, hlogical, hne]
  decisions d hd hid := hheld (.inl ⟨d, hd, hid⟩)

/-- The link state of a row after its references moved. -/
theorem movedRow_threadLinkState (m : Message) :
    (movedRow removedId survivorId m).threadLinkState =
      if m.parentMessageId = some removedId ∧ m.id = survivorId then .pending
      else m.threadLinkState := by
  unfold movedRow
  by_cases hparent : m.parentMessageId = some removedId
  · by_cases hid : m.id = survivorId <;> simp [hparent, hid]
  · simp [hparent]

/-- A merge keeps the constraints on the rows that it writes. -/
theorem constrained_afterMerge (h : Constrained db) :
    Constrained (afterMerge accountId provisional survivorId parsed now db) where
  openWork := by
    have hunique : Home.OpenUnique (moveReferences provisional.id survivorId now db).homeWork := by
      rw [← Home.movedWork_current]
      exact Home.unique_movedWork h.openWork
    exact hunique
  dismissals d hd d' hd' haccount hmessage := by
    obtain ⟨d₀, hmem, rfl⟩ := List.mem_map.mp hd
    obtain ⟨d₁, hmem', rfl⟩ := List.mem_map.mp hd'
    obtain ⟨hd₀, hkept⟩ := Table.mem_delete.mp hmem
    obtain ⟨hd₁, hkept'⟩ := Table.mem_delete.mp hmem'
    -- a dismissal that moves finds none of its account at the survivor
    have hfree : ∀ a ∈ db.homeDismissals, ∀ b ∈ db.homeDismissals,
        a.messageId = provisional.id → (a.messageId == provisional.id &&
          isDismissed survivorId db a) = false → b.accountId = a.accountId →
        b.messageId ≠ survivorId := by
      intro a _ b hb hremoved hkept haccount hsurvivor
      have hdismissed : isDismissed survivorId db a = true :=
        List.any_eq_true.mpr ⟨b, hb, by simp [haccount, hsurvivor]⟩
      simp [hremoved, hdismissed] at hkept
    by_cases hr₀ : d₀.messageId = provisional.id <;> by_cases hr₁ : d₁.messageId = provisional.id
    · obtain rfl : d₀ = d₁ := h.dismissals d₀ hd₀ d₁ hd₁ (by simpa [hr₀, hr₁] using haccount)
        (hr₀.trans hr₁.symm)
      rfl
    · simp only [hr₀, hr₁, beq_self_eq_true, beq_iff_eq, if_true, if_false] at haccount hmessage
      exact absurd hmessage.symm (hfree d₀ hd₀ d₁ hd₁ hr₀ hkept haccount.symm)
    · simp only [hr₀, hr₁, beq_self_eq_true, beq_iff_eq, if_true, if_false] at haccount hmessage
      exact absurd hmessage (hfree d₁ hd₁ d₀ hd₀ hr₁ hkept' haccount)
    · simp only [hr₀, hr₁, beq_iff_eq, if_false] at haccount hmessage ⊢
      exact h.dismissals d₀ hd₀ d₁ hd₁ haccount hmessage
  links m hm := by
    obtain ⟨m₀, hm₀, hid, threadDirty, rfl⟩ := of_mem_afterMerge hm
    obtain ⟨hlinked, hself⟩ := h.links m₀ hm₀
    dsimp only
    rw [movedRow_threadLinkState, movedRow_parentMessageId, movedRow_id]
    by_cases hparent : m₀.parentMessageId = some provisional.id
    · by_cases hs : m₀.id = survivorId
      · simp [hparent, hs]
      · rw [hparent] at hlinked
        simp [hparent, hs, hlinked, Ne.symm hs]
    · simp [hparent, hlinked, hself]

end MailHub
