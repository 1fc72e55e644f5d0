import MailHub.Send.Transactions
import MailHub.Sync.Merges

/-!
# Merges in whole runs

A merge can commit because nothing that it cannot move names a message without an original: only a
message with its original is decided on or names an accepted send. This is kept by every
transaction. The main result says when a merge does all that it owes.
-/

namespace MailHub

open Relational Ordering Interleaving

variable {accountId messageId survivorId id : Uuid} {now : Instant} {db db' : Database}

/-! ## Messages and their originals -/

/-- What the filing of a message row depends on. -/
structure Filing where
  id : Uuid
  accountId : Uuid
  originalSha256 : Option String
  deriving DecidableEq

/-- The filing of one message row. -/
def Message.filing (m : Message) : Filing := ⟨m.id, m.accountId, m.originalSha256⟩

/-- The filings of a database. -/
def filings (db : Database) : List Filing := db.messages.rows.map Message.filing

/-- An account holds an original once, and a message that is decided on or names an accepted send
has its original. -/
structure Filed (db : Database) : Prop where
  unique : ∀ f ∈ filings db, ∀ f' ∈ filings db, f.accountId = f'.accountId →
    f.originalSha256 = f'.originalSha256 → f.originalSha256.isSome → f.id = f'.id
  held : ∀ id, Held id db → ∃ f ∈ filings db, f.id = id ∧ f.originalSha256.isSome

theorem mem_filings {f : Filing} : f ∈ filings db ↔ ∃ m ∈ db.messages, m.filing = f := List.mem_map

theorem filed_empty : Filed Database.empty where
  unique := nofun
  held := by
    rintro id (⟨_, h, -⟩ | ⟨_, h, -⟩) <;> cases h

/-- A transaction that keeps what is filed. -/
def KeepsFiled (db db' : Database) : Prop := Filed db → Filed db'

instance : Std.Refl KeepsFiled := ⟨fun _ h => h⟩

instance : IsTrans Database KeepsFiled := ⟨fun _ _ _ h h' hfiled => h' (h hfiled)⟩

/-- A transaction that leaves the filings alone and names nothing new. -/
structure SameFilings (db db' : Database) : Prop where
  filings : filings db' = filings db
  held : ∀ id, Held id db' → Held id db

instance : Std.Refl SameFilings := ⟨fun _ => ⟨rfl, fun _ h => h⟩⟩

instance : IsTrans Database SameFilings :=
  ⟨fun _ _ _ h h' => ⟨h'.filings.trans h.filings, fun id hid => h.held id (h'.held id hid)⟩⟩

theorem SameFilings.keepsFiled (h : SameFilings db db') : KeepsFiled db db' := by
  intro hfiled
  constructor
  · rw [h.filings]
    exact hfiled.unique
  · intro id hid
    rw [h.filings]
    exact hfiled.held id (h.held id hid)

/-- An update of message rows that leaves their filing alone. -/
theorem filings_update {p : Message → Bool} {f : Message → Message}
    (hf : ∀ m, Keyed.key (f m) = Keyed.key m) (hsame : ∀ m, (f m).filing = m.filing)
    (hdb : db'.messages = db.messages.update p f hf) : filings db' = filings db := by
  unfold filings
  rw [hdb]
  unfold Table.update
  rw [List.map_map]
  refine List.map_congr_left fun m _ => ?_
  rw [Function.comp_apply]
  split
  · exact hsame m
  · rfl

@[simp] theorem filings_markDirty {p : Message → Bool} : filings (markDirty p db) = filings db :=
  filings_update (p := p) (f := fun m => { m with threadDirty := true }) (fun _ => rfl)
    (fun _ => rfl) rfl

@[simp] theorem filings_assignThread {p : Message → Bool} {threadId : Uuid} :
    filings (assignThread p threadId db) = filings db :=
  filings_update (p := p) (f := fun m => { m with threadId := some threadId }) (fun _ => rfl)
    (fun _ => rfl) rfl

@[simp] theorem filings_clearDirty : filings (clearDirty id db) = filings db :=
  filings_update (p := (·.id == id)) (f := fun m => { m with threadDirty := false }) (fun _ => rfl)
    (fun _ => rfl) rfl

@[simp] theorem filings_relink {decision : LinkDecision} :
    filings (relink id decision db) = filings db :=
  filings_update (p := (·.id == id)) (f := fun m =>
    { m with parentMessageId := decision.parentId, threadLinkState := decision.state })
    (fun _ => rfl) (fun _ => rfl) rfl

/-! ## Imports and reconciliations -/

/-- A new row whose original, if it has one, is new in its account. -/
theorem keepsFiled_insert {row : Message} {messages : Table Message}
    {messageOccurrences : Table MessageOccurrence}
    (hinsert : db.messages.insert? row = some messages) (hfree : row.originalSha256.isSome →
      ∀ m ∈ db.messages, m.accountId = row.accountId → m.originalSha256 ≠ row.originalSha256) :
    KeepsFiled db { db with messages, messageOccurrences } := by
  have hmem : ∀ f, f ∈ filings { db with messages, messageOccurrences } ↔
      f ∈ filings db ∨ f = row.filing := by
    intro f
    simp only [mem_filings, Table.mem_insert? hinsert]
    constructor
    · rintro ⟨m, hm | rfl, rfl⟩
      · exact .inl ⟨m, hm, rfl⟩
      · exact .inr rfl
    · rintro (⟨m, hm, rfl⟩ | rfl)
      · exact ⟨m, .inl hm, rfl⟩
      · exact ⟨row, .inr rfl, rfl⟩
  have hnew : ∀ f ∈ filings db, f.accountId = row.filing.accountId →
      f.originalSha256 = row.filing.originalSha256 → row.filing.originalSha256.isSome → False := by
    intro f hf haccount hsha hsome
    obtain ⟨m, hm, rfl⟩ := mem_filings.mp hf
    exact hfree hsome m hm haccount hsha
  intro h
  constructor
  · intro f hf f' hf' haccount hsha hsome
    rcases (hmem f).mp hf with hf | rfl <;> rcases (hmem f').mp hf' with hf' | rfl
    · exact h.unique f hf f' hf' haccount hsha hsome
    · exact (hnew f hf haccount hsha (hsha ▸ hsome)).elim
    · exact (hnew f' hf' haccount.symm hsha.symm hsome).elim
    · rfl
  · intro id hid
    obtain ⟨f, hf, hfiled⟩ := h.held id hid
    exact ⟨f, (hmem f).mpr (.inl hf), hfiled⟩

theorem keepsFiled_importWindow {parseHeaderBlock : Bytes → ImportedHeaders} {folderId : Uuid}
    {uidvalidity : ℕ} {records : List (ImportIds × MailboxHeaders)} (db : Database) :
    Steps KeepsFiled db (importWindow parseHeaderBlock accountId folderId uidvalidity records) :=
  steps_importWindow (fun _ _ _ _ _ _ hinsert => keepsFiled_insert hinsert nofun)
    (fun _ _ => SameFilings.keepsFiled ⟨rfl, fun _ h => h⟩)
    (fun _ _ => SameFilings.keepsFiled ⟨filings_markDirty, fun _ h => h⟩) db

theorem keepsFiled_reconcileRow {freshThreadId : Uuid} {outcome : Option RowOutcome}
    (h : reconcileRow accountId messageId freshThreadId db = some (outcome, db')) :
    KeepsFiled db db' := by
  rcases reconcileRow_cases h with ⟨-, rfl⟩ |
    ⟨row, decision, threadId, created, joined, -, -, hjoin, rfl⟩
  · exact fun h => h
  · have hlinked : SameFilings db (recordLink row decision db) := by
      unfold recordLink
      split
      · exact ⟨filings_relink, fun _ h => h⟩
      · exact Std.Refl.refl db
    have hjoined : SameFilings (recordLink row decision db) joined := by
      unfold joinThread at hjoin
      split at hjoin
      · obtain ⟨-, -, rfl⟩ : _ = threadId ∧ 0 = created ∧ recordLink row decision db = joined := by
          simpa using hjoin
        exact Std.Refl.refl _
      · obtain ⟨threads, -, hassigned⟩ := Option.bind_eq_some_iff.mp hjoin
        obtain ⟨-, -, rfl⟩ : freshThreadId = threadId ∧ 1 = created ∧ _ = joined := by
          simpa using hassigned
        exact ⟨filings_assignThread, fun _ h => h⟩
    have hmoved : SameFilings joined
        (clearDirty row.id (propagateThread accountId row.id threadId joined).2) :=
      ⟨filings_clearDirty.trans filings_assignThread, fun _ h => h⟩
    exact (IsTrans.trans _ _ _ hlinked (IsTrans.trans _ _ _ hjoined hmoved) :
      SameFilings db _).keepsFiled

/-! ## Originals -/

/-- A merge removes a row that nothing it cannot move names. -/
theorem keepsFiled_afterMerge {provisional : Message} {parsed : ParsedMessage}
    (hheld : ¬ Held provisional.id db) :
    KeepsFiled db (afterMerge accountId provisional survivorId parsed now db) := by
  have hold : ∀ f ∈ filings (afterMerge accountId provisional survivorId parsed now db),
      f ∈ filings db := by
    intro f hf
    obtain ⟨m, hm, rfl⟩ := mem_filings.mp hf
    obtain ⟨m₀, hm₀, -, threadDirty, rfl⟩ := of_mem_afterMerge hm
    exact mem_filings.mpr ⟨m₀, hm₀, by simp [Message.filing]⟩
  intro h
  constructor
  · exact fun f hf f' hf' => h.unique f (hold f hf) f' (hold f' hf')
  · intro id hid
    have hid : Held id db := held_afterMerge.mp hid
    obtain ⟨f, hf, rfl, hsome⟩ := h.held id hid
    obtain ⟨m, hm, rfl⟩ := mem_filings.mp hf
    have hne : m.id ≠ provisional.id := by
      intro heq
      exact hheld (heq ▸ hid)
    obtain ⟨threadDirty, hkept⟩ : ∃ threadDirty, _ ∈ (afterMerge accountId provisional survivorId
      parsed now db).messages := mem_afterMerge hm hne
    exact ⟨_, mem_filings.mpr ⟨_, hkept, rfl⟩, by simp [Message.filing],
      by simpa [Message.filing] using hsome⟩

/-- Another message with these bytes was looked for in the whole account. -/
theorem findDuplicate_eq_none {sha256 : String}
    (h : findDuplicate accountId messageId sha256 db = none) :
    ∀ m ∈ db.messages, m.accountId = accountId → m.originalSha256 = some sha256 →
      m.id = messageId := by
  intro m hm haccount hsha
  unfold findDuplicate at h
  have hnot := List.find?_eq_none.mp h m hm
  simpa [haccount, hsha] using hnot

theorem findDuplicate_eq_some {sha256 : String} {survivor : Message}
    (h : findDuplicate accountId messageId sha256 db = some survivor) :
    survivor ∈ db.messages ∧ survivor.accountId = accountId ∧
      survivor.originalSha256 = some sha256 ∧ survivor.id ≠ messageId := by
  unfold findDuplicate at h
  refine ⟨List.mem_of_find?_eq_some h, ?_⟩
  have hfound := List.find?_some h
  simpa [and_assoc] using hfound

theorem lockMessage_ok {row : Message} :
    (lockMessage accountId messageId).run db = .ok (row, db') ↔
      findRow accountId messageId db = some row ∧ db = db' := by
  unfold lockMessage findRow
  cases hrow : (db.messages.find? messageId).filter (·.accountId == accountId) <;> simp [hrow]

section

variable {parsed : ParsedMessage} {derived : DerivedBody} {storageKey sha256 : String}
  {sizeBytes : ℕ} {row : Message} {result : IngestResult}

/-- The transaction of a parsed original merges its message when another one has the bytes. -/
theorem commitOriginal_run (hrow : findRow accountId messageId db = some row) :
    (commitOriginal accountId messageId parsed derived storageKey sha256 sizeBytes now).run db =
      match findDuplicate accountId messageId sha256 db with
      | some survivor =>
          (mergeDuplicate accountId row survivor.id sha256 sizeBytes parsed now).run db
      | none => (applyIngested accountId row parsed derived storageKey sha256 sizeBytes).run db := by
  have hlock : (lockMessage accountId messageId).run db = .ok (row, db) :=
    lockMessage_ok.mpr ⟨hrow, rfl⟩
  unfold commitOriginal
  rw [StateT.run_bind, hlock]
  simp only [ok_bind, StateT.run_bind, StateT.run_get, pure_bind]
  cases findDuplicate accountId messageId sha256 db <;> rfl

/-- A message gets the only copy of its original in its account. -/
theorem keepsFiled_applyIngested (hrow : findRow accountId messageId db = some row)
    (hnone : findDuplicate accountId messageId sha256 db = none)
    (h : (applyIngested accountId row parsed derived storageKey sha256 sizeBytes).run db =
      .ok (result, db')) : KeepsFiled db db' := by
  obtain ⟨hrowmem, hid, haccount⟩ := findRow_eq_some_iff.mp hrow
  have hdb : filings db' = db.messages.rows.map fun m =>
      if m.id == row.id then ⟨m.id, m.accountId, some sha256⟩ else m.filing := by
    unfold applyIngested at h
    simp [markThreadJobsDirty_run] at h
    obtain ⟨-, rfl⟩ := h
    refine filings_markDirty.trans ?_
    unfold filings Table.update
    dsimp only
    rw [List.map_map]
    refine List.map_congr_left fun m _ => ?_
    rw [Function.comp_apply]
    split <;> rfl
  have hheld : ∀ id, Held id db' → Held id db := by
    unfold applyIngested at h
    simp [markThreadJobsDirty_run] at h
    obtain ⟨-, rfl⟩ := h
    exact fun _ hid => hid
  have hmem : ∀ f ∈ filings db', ∃ m ∈ db.messages,
      (if m.id == row.id then ⟨m.id, m.accountId, some sha256⟩ else m.filing) = f := by
    intro f hf
    rw [hdb] at hf
    exact List.mem_map.mp hf
  intro hfiled
  constructor
  · intro f hf f' hf' hsame hsha hsome
    obtain ⟨m, hm, rfl⟩ := hmem f hf
    obtain ⟨m', hm', rfl⟩ := hmem f' hf'
    -- no other row of the account has the bytes that the message gets
    have hfree : ∀ a ∈ db.messages, ∀ b ∈ db.messages, a.id = row.id → b.id ≠ row.id →
        a.accountId = b.accountId → b.originalSha256 ≠ some sha256 := by
      intro a ha b hb hida hidb hab hbytes
      obtain rfl : a = row := Table.eq_of_key_eq ha hrowmem hida
      exact hidb ((findDuplicate_eq_none hnone b hb (hab.symm.trans haccount) hbytes).trans
        hid.symm)
    by_cases hr : m.id = row.id <;> by_cases hr' : m'.id = row.id
    · simp only [hr, hr', beq_self_eq_true, if_true]
    · simp only [hr, beq_self_eq_true, if_true, beq_iff_eq, hr', if_false] at hsame hsha
      exact absurd hsha.symm (hfree m hm m' hm' hr hr' hsame)
    · simp only [hr', beq_self_eq_true, if_true, beq_iff_eq, hr, if_false] at hsame hsha
      exact absurd hsha (hfree m' hm' m hm hr' hr hsame.symm)
    · simp only [hr', beq_iff_eq, hr, if_false] at hsame hsha hsome ⊢
      exact hfiled.unique _ (mem_filings.mpr ⟨m, hm, rfl⟩) _ (mem_filings.mpr ⟨m', hm', rfl⟩) hsame
        hsha hsome
  · intro id' hid'
    obtain ⟨f, hf, hfid, hsome⟩ := hfiled.held id' (hheld id' hid')
    obtain ⟨m, hm, rfl⟩ := mem_filings.mp hf
    refine ⟨_, hdb ▸ List.mem_map_of_mem hm, ?_⟩
    split
    · exact ⟨hfid, rfl⟩
    · exact ⟨hfid, hsome⟩

/-- The transaction of a parsed original keeps what is filed. -/
theorem keepsFiled_commitOriginal
    (h : (commitOriginal accountId messageId parsed derived storageKey sha256 sizeBytes now).run db =
      .ok (result, db')) : KeepsFiled db db' := by
  obtain ⟨row, hrow⟩ : ∃ row, findRow accountId messageId db = some row := by
    unfold commitOriginal at h
    rw [StateT.run_bind] at h
    obtain ⟨⟨row, db₁⟩, hlock, -⟩ := bind_eq_ok.mp h
    exact ⟨row, (lockMessage_ok.mp hlock).1⟩
  rw [commitOriginal_run hrow] at h
  cases hduplicate : findDuplicate accountId messageId sha256 db with
  | none =>
      rw [hduplicate] at h
      exact keepsFiled_applyIngested hrow hduplicate h
  | some survivor =>
      rw [hduplicate] at h
      obtain ⟨hheld, rfl⟩ := mergeDuplicate_ok h
      exact keepsFiled_afterMerge hheld

end

/-! ## Acceptances -/

theorem sameFilings_insertAttachments {parts : List LocatedPart} (db : Database) :
    Steps SameFilings db (insertAttachments messageId parts) := by
  induction parts generalizing db with
  | nil => exact .pure _
  | cons part parts ih =>
      refine .get_bind (.bind ⟨fun t db₁ hrun => ?_⟩ fun t db₁ _ => .bind (.modify ?_)
        fun _ db₂ _ => ih db₂)
      · obtain ⟨-, rfl⟩ := Tx.inserted_ok.mp hrun
        exact Std.Refl.refl db
      · exact ⟨rfl, fun _ h => h⟩

/-- A message row is inserted when no other one of the account has its original. -/
theorem filed_insertMessage {row : Message} {u : Unit} (hfiled : Filed db)
    (h : (insertMessage row).run db = .ok (u, db')) : Filed db' ∧ row.filing ∈ filings db' := by
  simp [insertMessage] at h
  obtain ⟨hfree, messages, hinsert, rfl⟩ := h
  refine ⟨keepsFiled_insert hinsert (fun hsome m hm haccount => ?_) hfiled, ?_⟩
  · exact hfree m hm haccount hsome
  · exact mem_filings.mpr ⟨row, (Table.mem_insert? hinsert).mpr (.inr rfl), rfl⟩

/-- The message of an accepted send is there with its original. -/
theorem filed_resolveSentMessage {row : OutboundMessage} {parsed : ParsedMessage} {bytes : Bytes}
    {freshId : Uuid} {time : Time} (hfiled : Filed db)
    (h : (resolveSentMessage row parsed bytes freshId time).run db = .ok (id, db')) :
    Filed db' ∧ ⟨id, row.accountId, some row.mimeSha256⟩ ∈ filings db' := by
  unfold resolveSentMessage at h
  cases hfind : findMessageByHash row.accountId row.mimeSha256 db with
  | some existing =>
      simp [hfind] at h
      obtain ⟨rfl, rfl⟩ := h
      have hmem : existing ∈ db.messages.select fun m =>
          m.accountId == row.accountId && m.originalSha256 == some row.mimeSha256 :=
        (List.mem_insertionSort _).mp (List.mem_of_head? hfind)
      obtain ⟨hin, hboth⟩ := Table.mem_select.mp hmem
      obtain ⟨haccount, hsha⟩ : existing.accountId = row.accountId ∧
        existing.originalSha256 = some row.mimeSha256 := by simpa using hboth
      exact ⟨hfiled, mem_filings.mpr ⟨existing, hin, by simp [Message.filing, haccount, hsha]⟩⟩
  | none =>
      simp [hfind, insertLocalSentMessage, markThreadJobsDirty_run] at h
      obtain ⟨_, db₁, hmessage, bodies, -, _, db₂, hattach, rfl, rfl⟩ := h
      obtain ⟨hfiled₁, hnamed⟩ := filed_insertMessage hfiled hmessage
      have hparts := (sameFilings_insertAttachments _).step _ _ hattach
      have hmarked : SameFilings db₂ (markDirty ((ThreadJobMarking.mk [freshId]
          [some row.rfcMessageId]).marks row.accountId) db₂) := ⟨filings_markDirty, fun _ h => h⟩
      have hbodies : SameFilings db₁ { db₁ with bodies } := ⟨rfl, fun _ h => h⟩
      have hall : SameFilings db₁ _ :=
        IsTrans.trans _ _ _ hbodies (IsTrans.trans _ _ _ hparts hmarked)
      refine ⟨hall.keepsFiled hfiled₁, ?_⟩
      rw [hall.filings]
      exact hnamed

theorem sameFilings_releaseDraftLock {outboundId : Uuid} {status : OutboundStatus}
    (db : Database) : Steps SameFilings db (releaseDraftLock outboundId status) := by
  unfold releaseDraftLock
  refine .get_bind ?_
  split
  · exact .throw
  · refine .ite (fun _ => .throw_bind) fun _ => .get_bind (.bind (.modify ?_) fun _ db₁ _ => .pure _)
    exact ⟨rfl, fun _ h => h⟩

/-- An acceptance names a message with its original. -/
theorem keepsFiled_commitAccepted {row accepted : OutboundMessage} {input : AcceptanceInput}
    {parsed : ParsedMessage} {freshId : Uuid} {time : Time}
    (h : (commitAccepted row input parsed freshId time).run db = .ok (accepted, db')) :
    KeepsFiled db db' := by
  intro hfiled
  simp [commitAccepted] at h
  obtain ⟨messageId, db₁, hmessage, haccept⟩ := h
  obtain ⟨hfiled₁, hnamed⟩ := filed_resolveSentMessage hfiled hmessage
  cases hrows : db₁.outboundMessages.select (inStatus row.id input.fromStatus) with
  | nil => simp [hrows] at haccept
  | cons r rows =>
      simp [hrows, unlockDraftAfterSend, recordSendEvent] at haccept
      obtain ⟨-, n, db₂, hrelease, -, rfl⟩ := haccept
      have hlocked := ((sameFilings_releaseDraftLock _).step _ _ hrelease).keepsFiled
      have hrecorded : SameFilings db₂ { db₂ with events := db₂.events ++ [⟨.system, "send.sent",
          "outbound_message", row.id⟩] } := ⟨rfl, fun _ h => h⟩
      refine hrecorded.keepsFiled (hlocked ⟨hfiled₁.unique, ?_⟩)
      rintro id (hdecided | ⟨row', hrow', hlogical⟩)
      · exact hfiled₁.held id (.inl hdecided)
      · obtain ⟨r₀, hr₀, rfl⟩ := List.mem_map.mp hrow'
        split at hlogical
        · have hid : (acceptedRow input messageId time r₀).logicalMessageId = some messageId := by
            unfold acceptedRow
            split <;> rfl
          obtain rfl : messageId = id := Option.some.inj (hid.symm.trans hlogical)
          exact ⟨_, hnamed, rfl, rfl⟩
        · exact hfiled₁.held id (.inr ⟨r₀, hr₀, hlogical⟩)

/-! ## Runs -/

/-- The database after one transaction that commits. -/
inductive FilingStep (parseHeaderBlock : Bytes → ImportedHeaders) : Database → Database → Prop
  /-- Headers of one folder are imported. -/
  | imported {accountId folderId : Uuid} {uidvalidity : ℕ}
      {records : List (ImportIds × MailboxHeaders)} {db db' : Database}
      (h : (importWindow parseHeaderBlock accountId folderId uidvalidity records).run db =
        .ok ((), db')) : FilingStep parseHeaderBlock db db'
  /-- One row is reconciled. -/
  | reconciled {accountId messageId freshThreadId : Uuid} {outcome : Option RowOutcome}
      {db db' : Database}
      (h : reconcileRow accountId messageId freshThreadId db = some (outcome, db')) :
      FilingStep parseHeaderBlock db db'
  /-- A parsed original is applied or merged. -/
  | committed {accountId messageId : Uuid} {parsed : ParsedMessage} {derived : DerivedBody}
      {storageKey sha256 : String} {sizeBytes : ℕ} {now : Instant} {result : IngestResult}
      {db db' : Database}
      (h : (commitOriginal accountId messageId parsed derived storageKey sha256 sizeBytes now).run
        db = .ok (result, db')) : FilingStep parseHeaderBlock db db'
  /-- A send is accepted. -/
  | accepted {row accepted : OutboundMessage} {input : AcceptanceInput} {parsed : ParsedMessage}
      {freshId : Uuid} {time : Time} {db db' : Database}
      (h : (commitAccepted row input parsed freshId time).run db = .ok (accepted, db')) :
      FilingStep parseHeaderBlock db db'
  /-- A message with its original is decided on. -/
  | decided {decision : Decision} {decisions : Table Decision} {message : Message} {db : Database}
      (hmessage : message ∈ db.messages) (hid : message.id = decision.messageId)
      (horiginal : message.originalSha256.isSome)
      (h : db.decisions.insert? decision = some decisions) :
      FilingStep parseHeaderBlock db { db with decisions }
  /-- Any other transaction: it adds and removes no message, changes no original and names no
  message in a decision or as an accepted send. -/
  | elsewhere {db db' : Database} (h : SameFilings db db') : FilingStep parseHeaderBlock db db'

/-- Every transaction keeps what is filed. -/
theorem FilingStep.keepsFiled {parseHeaderBlock : Bytes → ImportedHeaders}
    (h : FilingStep parseHeaderBlock db db') : KeepsFiled db db' := by
  cases h with
  | imported h => exact (keepsFiled_importWindow db).step _ _ h
  | reconciled h => exact keepsFiled_reconcileRow h
  | committed h => exact keepsFiled_commitOriginal h
  | accepted h => exact keepsFiled_commitAccepted h
  | decided hmessage hid horiginal h =>
      intro hfiled
      refine ⟨hfiled.unique, ?_⟩
      rintro id (⟨d, hd, rfl⟩ | hlogical)
      · rcases (Table.mem_insert? h).mp hd with hold | rfl
        · exact hfiled.held _ (.inl ⟨d, hold, rfl⟩)
        · exact ⟨_, mem_filings.mpr ⟨_, hmessage, rfl⟩, hid, horiginal⟩
      · exact hfiled.held id (.inr hlogical)
  | elsewhere h => exact h.keepsFiled

/-- The databases that transactions lead to. -/
inductive FilingRun (parseHeaderBlock : Bytes → ImportedHeaders) (db₀ : Database) :
    Database → Prop
  | start : FilingRun parseHeaderBlock db₀ db₀
  | next {db db' : Database} (h : FilingRun parseHeaderBlock db₀ db)
      (hstep : FilingStep parseHeaderBlock db db') : FilingRun parseHeaderBlock db₀ db'

theorem FilingRun.filed {parseHeaderBlock : Bytes → ImportedHeaders} {db₀ : Database}
    (h₀ : Filed db₀) (h : FilingRun parseHeaderBlock db₀ db) : Filed db := by
  induction h with
  | start => exact h₀
  | next _ hstep ih => exact hstep.keepsFiled ih

/-! ## What a merge does in a run -/

/-- A merge commits, moves everything that names the removed message, and keeps the constraints on
the rows that it writes and the parent links without cycles. -/
def MergesWell (accountId messageId survivorId : Uuid) (parsed : ParsedMessage)
    (derived : DerivedBody) (storageKey sha256 : String) (sizeBytes : ℕ) (now : Instant)
    (db : Database) : Prop :=
  ∃ result db', (commitOriginal accountId messageId parsed derived storageKey sha256 sizeBytes
      now).run db = .ok (result, db') ∧
    CarriedOver messageId survivorId db db' ∧ Released messageId db' ∧
    (Constrained db → Constrained db') ∧ (NoCycles db → NoCycles db')

/-- Merging closes a cycle exactly when the survivor stands two or more links below the removed
message. -/
theorem noCycles_afterMerge_iff {provisional : Message} {parsed : ParsedMessage} {otherId : Uuid}
    (hacyclic : NoCycles db) (hne : survivorId ≠ provisional.id)
    (haccount : ∀ m ∈ db.messages, m.id = survivorId → m.accountId = accountId) :
    NoCycles (afterMerge otherId provisional survivorId parsed now db) ↔
      ∀ n ≥ 2, ancestor (recordedParent accountId db) n survivorId ≠ some provisional.id := by
  constructor
  · intro h
    have hcontract := h accountId
    rw [recordedParent_afterMerge] at hcontract
    exact (acyclic_contract_iff (hacyclic accountId) hne).mp hcontract
  · intro hfree anyId
    rw [recordedParent_afterMerge]
    refine (acyclic_contract_iff (hacyclic anyId) hne).mpr fun n hn hdeep => ?_
    by_cases hany : anyId = accountId
    · subst hany
      exact hfree n hn hdeep
    · -- the survivor is no row of another account
      have hnone : recordedParent anyId db survivorId = none := by
        unfold recordedParent
        rw [Option.bind_eq_none_iff]
        intro m hm
        obtain ⟨hmem, hid, hother⟩ := findRow_eq_some_iff.mp hm
        exact absurd (hother.symm.trans (haccount m hmem hid)) hany
      obtain ⟨k, rfl⟩ : ∃ k, n = k + 1 := ⟨n - 1, by omega⟩
      rw [ancestor_succ, hnone] at hdeep
      cases hdeep

variable {parseHeaderBlock : Bytes → ImportedHeaders} {db₀ : Database}
  {removed survivor : Message} {sha256 : String}

/-- What a transaction does that finds another message with the bytes. -/
theorem commitOriginal_merges (hrow : findRow accountId removed.id db = some removed)
    (hsurvivor : findDuplicate accountId removed.id sha256 db = some survivor)
    (hheld : ¬ Held removed.id db) (parsed : ParsedMessage) (derived : DerivedBody)
    (storageKey : String) (sizeBytes : ℕ) (now : Instant) :
    (commitOriginal accountId removed.id parsed derived storageKey sha256 sizeBytes now).run db =
      .ok (⟨.merged, survivor.id, some removed.id, sha256, sizeBytes, parsed.attachments.length⟩,
        afterMerge accountId removed survivor.id parsed now db) := by
  rw [commitOriginal_run hrow, hsurvivor]
  exact mergeDuplicate_run hheld

/-- Nothing that a merge cannot move names a message whose body is not there. -/
theorem Filed.not_held (hfiled : Filed db) (hrow : findRow accountId removed.id db = some removed)
    (hsurvivor : findDuplicate accountId removed.id sha256 db = some survivor)
    (hstable : removed.originalSha256 = none ∨ removed.originalSha256 = some sha256) :
    ¬ Held removed.id db := by
  intro hheld
  obtain ⟨hmem, -, haccount⟩ := findRow_eq_some_iff.mp hrow
  obtain ⟨hmem', haccount', hsha, hne⟩ := findDuplicate_eq_some hsurvivor
  obtain ⟨f, hf, hid, hsome⟩ := hfiled.held removed.id hheld
  obtain ⟨m, hm, rfl⟩ := mem_filings.mp hf
  obtain rfl : m = removed := Table.eq_of_key_eq hm hmem hid
  rcases hstable with hnone | hsame
  · have horiginal : m.filing.originalSha256 = none := hnone
    rw [horiginal] at hsome
    cases hsome
  · refine hne (hfiled.unique _ (mem_filings.mpr ⟨survivor, hmem', rfl⟩) _ hf ?_ ?_ ?_)
    · exact haccount'.trans haccount.symm
    · exact hsha.trans hsame.symm
    · exact Option.isSome_of_eq_some hsha

/-- Merges. In every database that transactions lead to, merging a message whose bytes another one
of the account holds does all that it owes, exactly when the survivor does not stand two or more
links below the removed message and no decision and no accepted send names the removed one; and none
does as long as the removed message has no other bytes than these. -/
theorem merges_well_iff (h₀ : Filed db₀) (hrun : FilingRun parseHeaderBlock db₀ db)
    (hrow : findRow accountId removed.id db = some removed)
    (hsurvivor : findDuplicate accountId removed.id sha256 db = some survivor)
    (parsed : ParsedMessage) (derived : DerivedBody) (storageKey : String) (sizeBytes : ℕ)
    (now : Instant) :
    (MergesWell accountId removed.id survivor.id parsed derived storageKey sha256 sizeBytes now db ↔
      ¬ Held removed.id db ∧ (NoCycles db →
        ∀ n ≥ 2, ancestor (recordedParent accountId db) n survivor.id ≠ some removed.id)) ∧
      (removed.originalSha256 = none ∨ removed.originalSha256 = some sha256 →
        ¬ Held removed.id db) := by
  obtain ⟨hmem, haccount, -, hne⟩ := findDuplicate_eq_some hsurvivor
  have hcycles : NoCycles db →
      (NoCycles (afterMerge accountId removed survivor.id parsed now db) ↔
        ∀ n ≥ 2, ancestor (recordedParent accountId db) n survivor.id ≠ some removed.id) := by
    intro hacyclic
    refine noCycles_afterMerge_iff hacyclic hne fun m hm hid => ?_
    obtain rfl : m = survivor := Table.eq_of_key_eq hm hmem hid
    exact haccount
  refine ⟨⟨?_, ?_⟩, (hrun.filed h₀).not_held hrow hsurvivor⟩
  · rintro ⟨result, db', hcommits, -, -, -, hkept⟩
    rw [commitOriginal_run hrow, hsurvivor] at hcommits
    obtain ⟨hheld, rfl⟩ := mergeDuplicate_ok hcommits
    exact ⟨hheld, fun hacyclic => (hcycles hacyclic).mp (hkept hacyclic)⟩
  · rintro ⟨hheld, hfree⟩
    exact ⟨_, _, commitOriginal_merges hrow hsurvivor hheld parsed derived storageKey sizeBytes now,
      carriedOver_afterMerge hne, released_afterMerge hheld hne, constrained_afterMerge,
      fun hacyclic => (hcycles hacyclic).mpr (hfree hacyclic)⟩

/-- Headers of a sample: two messages that name each other as their parent. -/
def sampleLoopHeaders (raw : Bytes) : ImportedHeaders where
  messageId := some (if raw = [] then "<a@list.example>" else "<b@list.example>")
  inReplyTo := some (if raw = [] then "<b@list.example>" else "<a@list.example>")
  referenceIds := []
  sender := none
  replyTo := none
  recipients := none
  subject := none
  sentAt := none

/-- The parsed original of the first of them. -/
def sampleLoopParsed : ParsedMessage where
  messageId := some "<a@list.example>"
  inReplyTo := some "<b@list.example>"
  referenceIds := []
  sender := none
  replyTo := none
  recipients := none
  subject := none
  sentAt := none
  textPlain := none
  html := none
  attachments := []

/-- The database that a transaction leaves. -/
def leftBy {α : Type} (t : Tx α) (db : Database) : Database :=
  match t.run db with
  | .ok (_, db') => db'
  | .error _ => db

theorem run_leftBy {α : Type} {t : Tx α} (h : (t.run db).toBool = true) :
    ∃ r, t.run db = .ok (r, leftBy t db) := by
  unfold leftBy
  cases hrun : t.run db with
  | error e =>
      rw [hrun] at h
      cases h
  | ok r => exact ⟨r.1, rfl⟩

/-- An import that commits goes on with a run. -/
theorem FilingRun.imports (h : FilingRun parseHeaderBlock db₀ db) {folderId : Uuid}
    {uidvalidity : ℕ} {records : List (ImportIds × MailboxHeaders)}
    (hok : ((importWindow parseHeaderBlock accountId folderId uidvalidity records).run db).toBool =
      true) :
    FilingRun parseHeaderBlock db₀
      (leftBy (importWindow parseHeaderBlock accountId folderId uidvalidity records) db) := by
  obtain ⟨r, hr⟩ := run_leftBy hok
  exact .next h (.imported hr)

/-- A commit of an original goes on with a run. -/
theorem FilingRun.commits (h : FilingRun parseHeaderBlock db₀ db) {parsed : ParsedMessage}
    {derived : DerivedBody} {storageKey : String} {sizeBytes : ℕ} {now : Instant}
    (hok : ((commitOriginal accountId messageId parsed derived storageKey sha256 sizeBytes now).run
      db).toBool = true) :
    FilingRun parseHeaderBlock db₀
      (leftBy (commitOriginal accountId messageId parsed derived storageKey sha256 sizeBytes now)
        db) := by
  obtain ⟨r, hr⟩ := run_leftBy hok
  exact .next h (.committed hr)

/-- One record of a sample message. -/
def sampleRecord (id : Uuid) (raw : Bytes) : ImportIds × MailboxHeaders :=
  (⟨id, id, 0⟩, ⟨id, true, false, 0, 0, raw⟩)

/-- Two copies of the first message, the second with its original. -/
def sampleCopies : Database :=
  leftBy (commitOriginal 1 2 sampleLoopParsed ⟨none, none⟩ "originals/2.eml" "digest" 9 0)
    (leftBy (importWindow sampleLoopHeaders 1 3 7 [sampleRecord 1 [], sampleRecord 2 []])
      Database.empty)

/-- The other copy merges well. -/
theorem merges_well_iff_sample : ∃ removed survivor,
    findRow 1 removed.id sampleCopies = some removed ∧
      findDuplicate 1 removed.id "digest" sampleCopies = some survivor ∧
      MergesWell 1 removed.id survivor.id sampleLoopParsed ⟨none, none⟩ "originals/1.eml" "digest"
        9 0 sampleCopies := by
  have hrun : FilingRun sampleLoopHeaders Database.empty sampleCopies :=
    (FilingRun.start.imports (by decide +kernel)).commits (by decide +kernel)
  have hone : (findRow 1 1 sampleCopies).any (·.originalSha256 == none) = true := by decide +kernel
  have htwo : (findDuplicate 1 1 "digest" sampleCopies).any (·.id == 2) = true := by decide +kernel
  obtain ⟨removed, hrow, hnone⟩ := (Option.any_eq_true _ _).mp hone
  obtain ⟨survivor, hsurvivor, hsid⟩ := (Option.any_eq_true _ _).mp htwo
  have hid : removed.id = 1 := (findRow_eq_some_iff.mp hrow).2.1
  have hrow' : findRow 1 removed.id sampleCopies = some removed := by
    rw [hid]
    exact hrow
  have hsurvivor' : findDuplicate 1 removed.id "digest" sampleCopies = some survivor := by
    rw [hid]
    exact hsurvivor
  obtain ⟨hiff, hfree⟩ := merges_well_iff filed_empty hrun hrow' hsurvivor' sampleLoopParsed
    ⟨none, none⟩ "originals/1.eml" 9 0
  refine ⟨removed, survivor, hrow', hsurvivor', hiff.mpr ⟨hfree (.inl (by simpa using hnone)),
    fun _ n hn => ?_⟩⟩
  -- the survivor has no parent
  have hparent : recordedParent 1 sampleCopies survivor.id = none := by
    rw [beq_iff_eq.mp hsid]
    decide +kernel
  obtain ⟨k, rfl⟩ : ∃ k, n = k + 1 := ⟨n - 1, by omega⟩
  rw [ancestor_succ, hparent]
  exact nofun

/-- The database that a reconciliation leaves. -/
def reconciledBy (accountId messageId freshThreadId : Uuid) (db : Database) : Database :=
  match reconcileRow accountId messageId freshThreadId db with
  | some (_, db') => db'
  | none => db

/-- A reconciliation that commits goes on with a run. -/
theorem FilingRun.reconciles (h : FilingRun parseHeaderBlock db₀ db) {freshThreadId : Uuid}
    (hok : (reconcileRow accountId messageId freshThreadId db).isSome = true) :
    FilingRun parseHeaderBlock db₀ (reconciledBy accountId messageId freshThreadId db) := by
  obtain ⟨⟨outcome, db'⟩, hr⟩ := Option.isSome_iff_exists.mp hok
  have hleft : reconciledBy accountId messageId freshThreadId db = db' := by
    unfold reconciledBy
    rw [hr]
  exact hleft ▸ .next h (.reconciled hr)

/-- A message, its reply, and a second copy of the message below the reply, with its original. -/
def sampleLoop : Database :=
  leftBy (commitOriginal 1 3 sampleLoopParsed ⟨none, none⟩ "originals/3.eml" "digest" 9 0)
    (reconciledBy 1 3 10
      (leftBy (importWindow sampleLoopHeaders 1 4 7 [sampleRecord 3 []])
        (reconciledBy 1 2 9
          (leftBy (importWindow sampleLoopHeaders 1 3 7 [sampleRecord 1 [], sampleRecord 2 [1]])
            Database.empty))))

/-- The first copy merges into the second one, and the reply and the survivor are the parents of
each other. -/
theorem merges_loop : ∃ removed survivor,
    FilingRun sampleLoopHeaders Database.empty sampleLoop ∧ NoCycles sampleLoop ∧
      findRow 1 removed.id sampleLoop = some removed ∧ removed.originalSha256 = none ∧
      findDuplicate 1 removed.id "digest" sampleLoop = some survivor ∧
      ¬ MergesWell 1 removed.id survivor.id sampleLoopParsed ⟨none, none⟩ "originals/1.eml"
        "digest" 9 0 sampleLoop := by
  have hrun : FilingRun sampleLoopHeaders Database.empty sampleLoop :=
    ((((FilingRun.start.imports (by decide +kernel)).reconciles (by decide +kernel)).imports
      (by decide +kernel)).reconciles (by decide +kernel)).commits (by decide +kernel)
  have hacyclic : NoCycles sampleLoop := by
    intro accountId
    refine Acyclic.of_lt fun a b hab => ?_
    obtain ⟨m, hm, hparent⟩ := Option.bind_eq_some_iff.mp hab
    obtain ⟨hmem, rfl, -⟩ := findRow_eq_some_iff.mp hm
    have hless : ∀ m ∈ sampleLoop.messages.rows, m.parentMessageId.all (· < m.id) = true := by
      decide +kernel
    have hb := hless m hmem
    rw [hparent] at hb
    simpa using hb
  have hone : (findRow 1 1 sampleLoop).any (·.originalSha256 == none) = true := by decide +kernel
  have hthree : (findDuplicate 1 1 "digest" sampleLoop).any (·.id == 3) = true := by
    decide +kernel
  obtain ⟨removed, hrow, hnone⟩ := (Option.any_eq_true _ _).mp hone
  obtain ⟨survivor, hsurvivor, hsid⟩ := (Option.any_eq_true _ _).mp hthree
  obtain ⟨-, hid, -⟩ := findRow_eq_some_iff.mp hrow
  obtain ⟨hmem, haccount, -, hne⟩ := findDuplicate_eq_some hsurvivor
  have hdeep : ancestor (recordedParent 1 sampleLoop) 2 survivor.id = some removed.id := by
    rw [hid, beq_iff_eq.mp hsid]
    decide +kernel
  have hrow' : findRow 1 removed.id sampleLoop = some removed := by
    rw [hid]
    exact hrow
  have hsurvivor' : findDuplicate 1 removed.id "digest" sampleLoop = some survivor := by
    rw [hid]
    exact hsurvivor
  refine ⟨removed, survivor, hrun, hacyclic, hrow', by simpa using hnone, hsurvivor', ?_⟩
  rintro ⟨result, db', hcommits, -, -, -, hkept⟩
  rw [commitOriginal_run hrow', hsurvivor'] at hcommits
  obtain ⟨-, rfl⟩ := mergeDuplicate_ok hcommits
  have hfree : ∀ n ≥ 2, ancestor (recordedParent 1 sampleLoop) n survivor.id ≠ some removed.id :=
    (noCycles_afterMerge_iff hacyclic (hid ▸ hne) fun m hm hms => by
      rw [Table.eq_of_key_eq hm hmem hms, haccount]).mp (hkept hacyclic)
  exact hfree 2 le_rfl hdeep

end MailHub
