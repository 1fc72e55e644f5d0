import MailHub.Sync.Import
import MailHub.Sync.Reconciliation

/-!
# Parent links without cycles

A link is written only when the walk from the new parent does not come to the row. The walk stops
after a bounded number of rows and then reports that it did not come there, so a cycle longer than
the bound goes unnoticed. The main result is that this is the only way to a cycle.
-/

namespace MailHub

open Relational Ordering Interleaving

variable {accountId otherId messageId freshThreadId id : Uuid} {db db' : Database} {row : Message}
  {decision : LinkDecision}

/-! ## Rows and parents -/

theorem findRow_eq_some_iff : findRow accountId id db = some row ↔
    row ∈ db.messages ∧ row.id = id ∧ row.accountId = accountId := by
  unfold findRow
  rw [Option.filter_eq_some_iff, Table.find?_eq_some_iff, beq_iff_eq, and_assoc]
  exact Iff.rfl

/-- An update that keeps accounts and parents keeps the recorded parents. -/
theorem recordedParent_update {p : Message → Bool} {f : Message → Message}
    (hf : ∀ m, Keyed.key (f m) = Keyed.key m) (hsame : ∀ m, (f m).accountId = m.accountId ∧
      (f m).parentMessageId = m.parentMessageId)
    (hdb : db'.messages = db.messages.update p f hf) :
    recordedParent accountId db' = recordedParent accountId db := by
  funext id
  unfold recordedParent findRow
  rw [hdb, Table.find?_update]
  cases db.messages.find? id with
  | none => rfl
  | some m =>
      obtain ⟨haccount, hparent⟩ := hsame m
      by_cases hp : p m
      · by_cases hm : m.accountId = accountId <;>
          simp [Option.filter, hp, hm, haccount, hparent]
      · simp [hp]

@[simp] theorem recordedParent_assignThread {p : Message → Bool} {threadId : Uuid} :
    recordedParent accountId (assignThread p threadId db) = recordedParent accountId db :=
  recordedParent_update (p := p) (f := fun m => { m with threadId := some threadId })
    (fun _ => rfl) (fun _ => ⟨rfl, rfl⟩) rfl

@[simp] theorem recordedParent_clearDirty :
    recordedParent accountId (clearDirty id db) = recordedParent accountId db :=
  recordedParent_update (p := (·.id == id)) (f := fun m => { m with threadDirty := false })
    (fun _ => rfl) (fun _ => ⟨rfl, rfl⟩) rfl

@[simp] theorem recordedParent_markDirty {p : Message → Bool} :
    recordedParent accountId (markDirty p db) = recordedParent accountId db :=
  recordedParent_update (p := p) (f := fun m => { m with threadDirty := true })
    (fun _ => rfl) (fun _ => ⟨rfl, rfl⟩) rfl

/-- A new link changes the parent of its row only. -/
theorem recordedParent_relink (x : Uuid) : recordedParent accountId (relink id decision db) x =
    if x = id then (findRow accountId id db).bind fun _ => decision.parentId
    else recordedParent accountId db x := by
  unfold recordedParent findRow relink
  dsimp only
  rw [Table.find?_update]
  cases hfind : db.messages.find? x with
  | none =>
      by_cases hx : x = id
      · rw [if_pos hx, ← hx, hfind]
        rfl
      · rw [if_neg hx]
        rfl
  | some m =>
      have hid : m.id = x := Table.key_of_find? hfind
      by_cases hx : x = id
      · rw [if_pos hx, ← hx, hfind]
        by_cases hm : m.accountId = accountId <;> simp [Option.filter, hid, hm]
      · have hne : m.id ≠ id := hid ▸ hx
        simp [hx, hne]

/-- What joining a thread changes leaves the parents alone. -/
theorem recordedParent_joinThread {root : ChainRow} {known : Option Uuid} {threadId : Uuid}
    {created : ℕ} (h : joinThread accountId root known freshThreadId db =
      some (threadId, created, db')) :
    recordedParent otherId db' = recordedParent otherId db := by
  cases known with
  | some known =>
      obtain ⟨-, -, rfl⟩ : known = threadId ∧ 0 = created ∧ db = db' := by
        simpa [joinThread] using h
      rfl
  | none =>
      obtain ⟨threads, -, hjoin⟩ := Option.bind_eq_some_iff.mp h
      obtain ⟨-, -, rfl⟩ : freshThreadId = threadId ∧ 1 = created ∧ _ = db' := by
        simpa using hjoin
      rw [recordedParent_assignThread]
      rfl

/-! ## What a reconciliation does to the links -/

/-- Recording a link changes the parent of the row only, to the one decided on. -/
theorem recordedParent_recordLink (hrow : findRow accountId id db = some row)
    (decision : LinkDecision) :
    recordedParent accountId (recordLink row decision db) id = decision.parentId ∧
      (∀ x, x ≠ id → recordedParent accountId (recordLink row decision db) x =
        recordedParent accountId db x) ∧
      ∀ otherId, otherId ≠ accountId →
        recordedParent otherId (recordLink row decision db) = recordedParent otherId db := by
  obtain ⟨hmem, rfl, haccount⟩ := findRow_eq_some_iff.mp hrow
  unfold recordLink
  split
  next =>
    refine ⟨?_, fun x hx => ?_, fun otherId hother => ?_⟩
    · rw [recordedParent_relink, if_pos rfl, hrow]
      rfl
    · rw [recordedParent_relink, if_neg hx]
    · funext x
      rw [recordedParent_relink]
      split
      next hx =>
        have hnone : findRow otherId row.id db = none := by
          have hfind : db.messages.find? row.id = some row := Table.mem_iff_find?.mp hmem
          unfold findRow
          rw [hfind]
          simp [Option.filter, haccount, Ne.symm hother]
        unfold recordedParent
        rw [hx, hnone]
        rfl
      next => rfl
  next hsame =>
    refine ⟨?_, fun _ _ => rfl, fun _ _ => rfl⟩
    have hparent : row.parentMessageId = decision.parentId := by
      unfold linkChanged at hsame
      simp only [Bool.or_eq_true, bne_iff_ne, not_or, not_not] at hsame
      exact hsame.2
    unfold recordedParent
    rw [hrow]
    exact hparent

/-- A reconciliation changes the parent of its row only, to the one that it decides on. -/
theorem reconcileRow_links {outcome : Option RowOutcome}
    (h : reconcileRow accountId messageId freshThreadId db = some (outcome, db')) :
    (dirtyRow accountId messageId db = none ∧ db' = db) ∨
      ∃ row decision, dirtyRow accountId messageId db = some row ∧
        decideLink accountId row db = some decision ∧
        recordedParent accountId db' messageId = decision.parentId ∧
        (∀ x, x ≠ messageId → recordedParent accountId db' x = recordedParent accountId db x) ∧
        ∀ otherId, otherId ≠ accountId →
          recordedParent otherId db' = recordedParent otherId db := by
  rcases reconcileRow_cases h with hnone |
    ⟨row, decision, threadId, created, joined, hdirty, hdecision, hjoin, rfl⟩
  · exact .inl hnone
  · have hrow : findRow accountId messageId db = some row := (Option.filter_eq_some_iff.mp hdirty).1
    have hkept : ∀ otherId, recordedParent otherId
        (clearDirty row.id (propagateThread accountId row.id threadId joined).2) =
        recordedParent otherId (recordLink row decision db) :=
      fun otherId => recordedParent_clearDirty.trans
        (recordedParent_assignThread.trans (recordedParent_joinThread hjoin))
    obtain ⟨hparent, hrest, hothers⟩ := recordedParent_recordLink hrow decision
    refine .inr ⟨row, decision, hdirty, hdecision, ?_, fun x hx => ?_, fun otherId hother => ?_⟩
    · rw [hkept, hparent]
    · rw [hkept, hrest x hx]
    · rw [hkept, hothers otherId hother]

/-! ## Decisions -/

/-- The one row that holds the candidate of a row, unless the row names itself. -/
def soleHolder (accountId : Uuid) (row : Message) (db : Database) : Option Uuid :=
  match resolveParentReference row.inReplyTo row.referenceIds with
  | .candidate identifier =>
      if row.messageId = some identifier then none
      else
        match holders accountId identifier db with
        | [parentId] => some parentId
        | _ => none
  | _ => none

/-- Without a sole holder a row gets no parent. -/
theorem decideLink_of_none (h : soleHolder accountId row db = none) :
    ∃ decision, decideLink accountId row db = some decision ∧ decision.parentId = none := by
  unfold soleHolder at h
  unfold decideLink
  cases hreference : resolveParentReference row.inReplyTo row.referenceIds with
  | root => exact ⟨.root, rfl, rfl⟩
  | conflicted => exact ⟨.ambiguous, rfl, rfl⟩
  | candidate identifier =>
      rw [hreference] at h
      dsimp only at h ⊢
      by_cases hself : row.messageId = some identifier
      · rw [if_pos hself]
        exact ⟨.ambiguous, rfl, rfl⟩
      · rw [if_neg hself] at h ⊢
        cases hholders : holders accountId identifier db with
        | nil => exact ⟨.pending, rfl, rfl⟩
        | cons first rest =>
            rw [hholders] at h
            cases rest with
            | nil => cases h
            | cons second rest => exact ⟨.ambiguous, rfl, rfl⟩

/-- A row gets its sole holder as parent, unless that is itself or the walk comes back to it. -/
theorem decideLink_of_soleHolder {parentId : Uuid}
    (h : soleHolder accountId row db = some parentId) :
    decideLink accountId row db = if parentId = row.id then some .ambiguous
      else (chainReaches accountId parentId row.id db).map fun reaches =>
        if reaches then .ambiguous else .linked parentId := by
  unfold soleHolder at h
  unfold decideLink
  cases hreference : resolveParentReference row.inReplyTo row.referenceIds with
  | root =>
      rw [hreference] at h
      cases h
  | conflicted =>
      rw [hreference] at h
      cases h
  | candidate identifier =>
      rw [hreference] at h
      dsimp only at h ⊢
      by_cases hself : row.messageId = some identifier
      · rw [if_pos hself] at h
        cases h
      · rw [if_neg hself] at h ⊢
        cases hholders : holders accountId identifier db with
        | nil =>
            rw [hholders] at h
            cases h
        | cons first rest =>
            rw [hholders] at h
            cases rest with
            | nil =>
                obtain rfl := Option.some.inj h
                rfl
            | cons second rest => cases h

/-- Without a cycle every walk ends, with what it meets within the bound. -/
theorem chainReaches_eq_some (hacyclic : Acyclic (recordedParent accountId db)) (startId : Uuid) :
    ∃ reaches, chainReaches accountId startId id db = some reaches ∧
      (reaches = true ↔
        ∃ k < maxChainDepth, ancestor (recordedParent accountId db) k startId = some id) := by
  unfold chainReaches
  exact hacyclic.walkMeets_eq_some maxChainDepth (fun s hs => nomatch hs)

/-! ## When a link closes a cycle -/

/-- No row stands further above its sole holder than a walk looks. -/
def WithinBound (accountId messageId : Uuid) (db : Database) : Prop :=
  ∀ row, dirtyRow accountId messageId db = some row →
    ∀ parentId, soleHolder accountId row db = some parentId →
      ∀ n ≥ maxChainDepth, ancestor (recordedParent accountId db) n parentId ≠ some messageId

/-- No account has a cycle of parents. -/
def NoCycles (db : Database) : Prop := ∀ accountId, Acyclic (recordedParent accountId db)

/-- A decision always comes when there is no cycle. -/
theorem exists_decision (hacyclic : NoCycles db) (accountId : Uuid) (row : Message) :
    ∃ decision, decideLink accountId row db = some decision := by
  cases hsole : soleHolder accountId row db with
  | none =>
      obtain ⟨decision, hdecision, -⟩ := decideLink_of_none hsole
      exact ⟨decision, hdecision⟩
  | some parentId =>
      rw [decideLink_of_soleHolder hsole]
      split
      · exact ⟨_, rfl⟩
      · obtain ⟨reaches, hreaches, -⟩ := chainReaches_eq_some (hacyclic accountId) parentId
        rw [hreaches]
        exact ⟨_, rfl⟩

/-- A reconciliation commits when there is no cycle and the fresh identifier is free. -/
theorem reconcileRow_commits (hacyclic : NoCycles db) (accountId messageId : Uuid)
    (hfresh : db.threads.find? freshThreadId = none) :
    ∃ outcome db', reconcileRow accountId messageId freshThreadId db = some (outcome, db') := by
  unfold reconcileRow
  cases dirtyRow accountId messageId db with
  | none => exact ⟨none, db, rfl⟩
  | some row =>
      obtain ⟨decision, hdecision⟩ := exists_decision hacyclic accountId row
      have hthreads : (recordLink row decision db).threads = db.threads := by
        unfold recordLink
        split <;> rfl
      have hjoin : ∀ root known, ∃ joined,
          joinThread accountId root known freshThreadId (recordLink row decision db) =
            some joined := by
        intro root known
        cases known with
        | some threadId => exact ⟨_, rfl⟩
        | none =>
            have hfree : ((recordLink row decision db).threads.insert? ⟨freshThreadId, accountId,
                threadParticipants root.sender root.recipients⟩).isSome := by
              rw [hthreads, Table.insert?_isSome]
              exact hfresh
            obtain ⟨threads, hinsert⟩ := Option.isSome_iff_exists.mp hfree
            unfold joinThread
            dsimp only
            rw [hinsert]
            exact ⟨_, rfl⟩
      dsimp only
      rw [hdecision]
      dsimp only [Option.bind_eq_bind, Option.bind_some]
      obtain ⟨⟨threadId, created, joined⟩, hjoined⟩ := hjoin
        (chainRoot accountId row.id (recordLink row decision db))
        (knownThread accountId row decision
          (chainRoot accountId row.id (recordLink row decision db)) (recordLink row decision db))
      rw [hjoined]
      exact ⟨_, _, rfl⟩

/-- A reconciliation leaves no cycle behind exactly when its row does not stand above its sole
holder further than the walk looks. -/
theorem noCycles_reconcileRow_iff {outcome : Option RowOutcome} (hacyclic : NoCycles db)
    (h : reconcileRow accountId messageId freshThreadId db = some (outcome, db')) :
    NoCycles db' ↔ WithinBound accountId messageId db := by
  rcases reconcileRow_links h with ⟨hnone, rfl⟩ |
    ⟨row, decision, hdirty, hdecision, hparent, hrest, hothers⟩
  · refine iff_of_true hacyclic fun row hrow => ?_
    rw [hnone] at hrow
    cases hrow
  · have hid : row.id = messageId :=
      (findRow_eq_some_iff.mp (Option.filter_eq_some_iff.mp hdirty).1).2.1
    have hsame : ∀ x, x ≠ messageId →
        recordedParent accountId db x = recordedParent accountId db' x := fun x hx => (hrest x hx).symm
    -- the other accounts have the links that they had
    have hall : NoCycles db' ↔ Acyclic (recordedParent accountId db') := by
      refine ⟨fun h => h accountId, fun h otherId => ?_⟩
      by_cases hother : otherId = accountId
      · exact hother ▸ h
      · rw [hothers otherId hother]
        exact hacyclic otherId
    rw [hall]
    have hbound : WithinBound accountId messageId db ↔
        ∀ parentId, soleHolder accountId row db = some parentId →
          ∀ n ≥ maxChainDepth, ancestor (recordedParent accountId db) n parentId ≠ some messageId := by
      unfold WithinBound
      rw [hdirty]
      constructor
      · exact fun h => h row rfl
      · rintro h _ ⟨⟩
        exact h
    rw [hbound]
    cases hsole : soleHolder accountId row db with
    | none =>
        obtain ⟨decision', hdecision', hnone⟩ := decideLink_of_none hsole
        rw [hdecision] at hdecision'
        obtain rfl := Option.some.inj hdecision'
        exact iff_of_true ((hacyclic accountId).unlink hsame (hparent.trans hnone)) nofun
    | some parentId =>
        rw [decideLink_of_soleHolder hsole] at hdecision
        have hone : (∀ p, some parentId = some p → ∀ n ≥ maxChainDepth,
            ancestor (recordedParent accountId db) n p ≠ some messageId) ↔
            ∀ n ≥ maxChainDepth, ancestor (recordedParent accountId db) n parentId ≠
              some messageId := by
          constructor
          · exact fun h => h parentId rfl
          · rintro h _ ⟨⟩
            exact h
        rw [hone]
        by_cases hself : parentId = row.id
        · rw [if_pos hself] at hdecision
          obtain rfl := Option.some.inj hdecision
          refine iff_of_true ((hacyclic accountId).unlink hsame hparent) fun n hn hcycle => ?_
          rw [hself, hid] at hcycle
          have hpos : 0 < n := lt_of_lt_of_le (by decide) hn
          exact hacyclic accountId messageId (.of_ancestor hpos hcycle)
        · obtain ⟨reaches, hreaches, hmeets⟩ := chainReaches_eq_some (hacyclic accountId) parentId
          rw [if_neg hself, hid, hreaches, Option.map_some] at hdecision
          obtain rfl := Option.some.inj hdecision
          cases reaches with
          | true =>
              obtain ⟨k, hk, hreach⟩ := hmeets.mp rfl
              refine iff_of_true ((hacyclic accountId).unlink hsame hparent) fun n hn hagain => ?_
              have hheight := (hacyclic accountId).height_unique hreach hagain
              omega
          | false =>
              rw [acyclic_relink_iff (hacyclic accountId) hsame hparent]
              refine ⟨fun h n _ => h n, fun h n hn => ?_⟩
              by_cases hlow : n < maxChainDepth
              · exact absurd (hmeets.mpr ⟨n, hlow, hn⟩) Bool.false_ne_true
              · exact h n (by omega) hn

/-! ## Imports -/

/-- Every row keeps its parent, and rows that are new have none. -/
def SameParents (db db' : Database) : Prop :=
  ∀ accountId, recordedParent accountId db' = recordedParent accountId db

instance : Std.Refl SameParents := ⟨fun _ _ => rfl⟩

instance : IsTrans Database SameParents :=
  ⟨fun _ _ _ h h' accountId => (h' accountId).trans (h accountId)⟩

/-- A new row without a parent changes no link. -/
theorem sameParents_insert {messages : Table Message} {messageOccurrences : Table MessageOccurrence}
    (hinsert : db.messages.insert? row = some messages) (hparent : row.parentMessageId = none) :
    SameParents db { db with messages, messageOccurrences } := by
  intro accountId
  funext x
  unfold recordedParent findRow
  dsimp only
  rw [Table.find?_insert? hinsert]
  split
  next hx =>
    have hnone : db.messages.find? x = none := hx ▸ Table.find?_of_insert? hinsert
    rw [hnone]
    by_cases haccount : row.accountId = accountId <;> simp [Option.filter, haccount, hparent]
  next => rfl

/-- An import changes no link. -/
theorem sameParents_importWindow {parseHeaderBlock : Bytes → ImportedHeaders} {folderId : Uuid}
    {uidvalidity : ℕ} {records : List (ImportIds × MailboxHeaders)} (db : Database) :
    Steps SameParents db (importWindow parseHeaderBlock accountId folderId uidvalidity records) :=
  steps_importWindow (fun _ _ _ _ _ _ hinsert => sameParents_insert hinsert rfl)
    (fun _ _ _ => rfl) (fun _ _ _ => recordedParent_markDirty) db

/-! ## Runs -/

/-- The transactions that add rows and decide links. -/
inductive ThreadEvent
  /-- Headers of one folder are imported. -/
  | importWindow (accountId folderId : Uuid) (uidvalidity : ℕ)
      (records : List (ImportIds × MailboxHeaders))
  /-- One row is reconciled. -/
  | reconcileRow (accountId messageId freshThreadId : Uuid)

/-- The database after one transaction that commits. -/
inductive ThreadStep (parseHeaderBlock : Bytes → ImportedHeaders) :
    ThreadEvent → Database → Database → Prop
  | imported {accountId folderId : Uuid} {uidvalidity : ℕ}
      {records : List (ImportIds × MailboxHeaders)} {db db' : Database}
      (h : (importWindow parseHeaderBlock accountId folderId uidvalidity records).run db =
        .ok ((), db')) :
      ThreadStep parseHeaderBlock (.importWindow accountId folderId uidvalidity records) db db'
  | reconciled {accountId messageId freshThreadId : Uuid} {outcome : Option RowOutcome}
      {db db' : Database}
      (h : reconcileRow accountId messageId freshThreadId db = some (outcome, db')) :
      ThreadStep parseHeaderBlock (.reconcileRow accountId messageId freshThreadId) db db'

/-- Whether a transaction stays within the bound of the walks. -/
def ThreadEvent.WithinBound : ThreadEvent → Database → Prop
  | importWindow .., _ => True
  | reconcileRow accountId messageId _, db => MailHub.WithinBound accountId messageId db

/-- The databases that transactions lead to, each of them within the bound. -/
inductive BoundedRun (parseHeaderBlock : Bytes → ImportedHeaders) (db₀ : Database) :
    Database → Prop
  | start : BoundedRun parseHeaderBlock db₀ db₀
  | next {db db' : Database} {e : ThreadEvent} (h : BoundedRun parseHeaderBlock db₀ db)
      (hbound : e.WithinBound db) (hstep : ThreadStep parseHeaderBlock e db db') :
      BoundedRun parseHeaderBlock db₀ db'

/-- A transaction within the bound leaves no cycle behind. -/
theorem noCycles_step {parseHeaderBlock : Bytes → ImportedHeaders} {e : ThreadEvent}
    (hacyclic : NoCycles db) (hbound : e.WithinBound db)
    (hstep : ThreadStep parseHeaderBlock e db db') : NoCycles db' := by
  cases hstep with
  | imported h =>
      intro accountId
      rw [(sameParents_importWindow db).step _ _ h accountId]
      exact hacyclic accountId
  | reconciled h => exact (noCycles_reconcileRow_iff hacyclic h).mpr hbound

/-- Parent links and cycles. Without a cycle every reconciliation commits, and it leaves no cycle
behind exactly when its row does not stand above its sole holder further than the bound of the walk;
so no run of imports and reconciliations within the bound ever comes to a cycle. -/
theorem parents_acyclic_iff (db₀ : Database) (hacyclic : NoCycles db₀) :
    (∀ accountId messageId freshThreadId, db₀.threads.find? freshThreadId = none →
      ∃ outcome db', reconcileRow accountId messageId freshThreadId db₀ = some (outcome, db') ∧
        (NoCycles db' ↔ WithinBound accountId messageId db₀)) ∧
      ∀ parseHeaderBlock db, BoundedRun parseHeaderBlock db₀ db → NoCycles db := by
  refine ⟨fun accountId messageId freshThreadId hfresh => ?_, fun parseHeaderBlock db hrun => ?_⟩
  · obtain ⟨outcome, db', h⟩ := reconcileRow_commits hacyclic accountId messageId hfresh
    exact ⟨outcome, db', h, noCycles_reconcileRow_iff hacyclic h⟩
  · induction hrun with
    | start => exact hacyclic
    | next _ hbound hstep ih => exact noCycles_step ih hbound hstep

/-- Headers of a sample pair: the raw bytes say whether the message is the reply. -/
def sampleHeaders (raw : Bytes) : ImportedHeaders where
  messageId := some (if raw = [] then "<first@list.example>" else "<reply@list.example>")
  inReplyTo := if raw = [] then none else some "<first@list.example>"
  referenceIds := []
  sender := none
  replyTo := none
  recipients := none
  subject := none
  sentAt := none

/-- The import of a message and its reply. -/
def samplePair : List (ImportIds × MailboxHeaders) :=
  [(⟨1, 1, 0⟩, ⟨1, true, false, 0, 0, []⟩), (⟨2, 2, 0⟩, ⟨2, true, false, 0, 0, [1]⟩)]

/-- The database after that import. -/
def samplePairImported : Database :=
  match (importWindow sampleHeaders 1 3 7 samplePair).run Database.empty with
  | .ok (_, db) => db
  | .error _ => Database.empty

/-- A message and its reply are imported and the reply is reconciled, without a cycle. -/
theorem parents_acyclic_iff_sample : ∃ outcome db',
    reconcileRow 1 2 9 samplePairImported = some (outcome, db') ∧
      recordedParent 1 db' 2 = some 1 ∧
      BoundedRun sampleHeaders Database.empty samplePairImported ∧
      NoCycles samplePairImported ∧ NoCycles db' := by
  have himport : (importWindow sampleHeaders 1 3 7 samplePair).run Database.empty =
      .ok ((), samplePairImported) := rfl
  have hrun : BoundedRun sampleHeaders Database.empty samplePairImported :=
    .next (e := .importWindow 1 3 7 samplePair) .start trivial (.imported himport)
  have hempty : NoCycles Database.empty := fun accountId => Acyclic.of_lt fun a b hab => by
    cases hab
  have hacyclic : NoCycles samplePairImported := (parents_acyclic_iff Database.empty hempty).2 _ _ hrun
  obtain ⟨outcome, db', h, hiff⟩ := (parents_acyclic_iff _ hacyclic).1 1 2 9 rfl
  have hparent : (reconcileRow 1 2 9 samplePairImported).map (fun r => recordedParent 1 r.2 2) =
      some (some 1) := by
    decide +kernel
  rw [h] at hparent
  refine ⟨outcome, db', h, Option.some.inj hparent, hrun, hacyclic, hiff.mpr ?_⟩
  intro row hrow parentId hsole n hn
  -- an import leaves every new row without a parent
  have hnone := (sameParents_importWindow Database.empty).step _ _ himport 1
  obtain ⟨k, rfl⟩ : ∃ k, n = k + 1 := ⟨n - 1, by unfold maxChainDepth at hn; omega⟩
  rw [ancestor_succ, hnone]
  exact nofun

/-! ## A chain longer than the walk -/

/-- The identifier of one message of a long chain. -/
def chainIdentifier (k : ℕ) : String := "<" ++ k.repr ++ "@list.example>"

/-- One message of a long chain: it is linked to the message before it; the first names the last as
its parent and is marked. -/
def chainMessage (last k : ℕ) : Message :=
  { Message.bare k 1 k with
    messageId := some (chainIdentifier k)
    inReplyTo := some (chainIdentifier (if k = 0 then last else k - 1))
    threadId := some 1
    parentMessageId := if k = 0 then none else some (k - 1)
    threadLinkState := if k = 0 then .pending else .linked
    threadDirty := k == 0 }

theorem nodup_chainMessages (last n : ℕ) :
    (((List.range n).map (chainMessage last)).map Keyed.key).Nodup := by
  have hkeys : ((List.range n).map (chainMessage last)).map Keyed.key = List.range n := by
    rw [List.map_map]
    exact List.map_id _
  rw [hkeys]
  exact List.nodup_range

/-- One account with a long chain. -/
def longChain (last : ℕ) : Database :=
  { Database.empty with
    threads := Table.empty.put ⟨1, 1, []⟩
    messages := ⟨(List.range (last + 1)).map (chainMessage last), nodup_chainMessages last _⟩ }

theorem mem_longChain {last : ℕ} {m : Message} :
    m ∈ (longChain last).messages ↔ ∃ k, k ≤ last ∧ chainMessage last k = m := by
  refine List.mem_map.trans (exists_congr fun k => and_congr_left fun _ => ?_)
  rw [List.mem_range]
  omega

theorem findRow_longChain {last k : ℕ} (hk : k ≤ last) :
    findRow 1 k (longChain last) = some (chainMessage last k) :=
  findRow_eq_some_iff.mpr ⟨mem_longChain.mpr ⟨k, hk, rfl⟩, rfl, rfl⟩

theorem recordedParent_longChain {last k : ℕ} (hk : k + 1 ≤ last) :
    recordedParent 1 (longChain last) (k + 1) = some k := by
  unfold recordedParent
  rw [findRow_longChain hk]
  rfl

theorem noCycles_longChain (last : ℕ) : NoCycles (longChain last) := by
  intro accountId
  refine Acyclic.of_lt fun a b hab => ?_
  obtain ⟨m, hm, hparent⟩ := Option.bind_eq_some_iff.mp hab
  obtain ⟨hmem, hid, -⟩ := findRow_eq_some_iff.mp hm
  obtain ⟨k, -, rfl⟩ := mem_longChain.mp hmem
  have hkb : (if k = 0 then none else some (k - 1)) = some b := hparent
  obtain rfl : k = a := hid
  split at hkb
  next => cases hkb
  next hzero =>
    obtain rfl := Option.some.inj hkb
    exact Nat.sub_one_lt hzero

/-- The first message stands as many parents above the last as there are messages between. -/
theorem ancestor_longChain {last : ℕ} (k : ℕ) (hk : k ≤ last) :
    ancestor (recordedParent 1 (longChain last)) k last = some (last - k) := by
  induction k with
  | zero => rfl
  | succ k ih =>
      obtain ⟨j, hj⟩ : ∃ j, last - k = j + 1 := ⟨last - k - 1, by omega⟩
      have hnext : last - (k + 1) = j := by omega
      rw [ancestor_add_of_eq_some (ih (by omega)), hj, hnext,
        ancestor_succ_of_eq_some (recordedParent_longChain (by omega)), ancestor_zero]

theorem chainIdentifier_inj {k j : ℕ} : chainIdentifier k = chainIdentifier j ↔ k = j := by
  unfold chainIdentifier
  rw [String.append_left_inj, String.append_right_inj]
  constructor
  · intro h
    have hdigits : Nat.toDigits 10 k = Nat.toDigits 10 j := by
      rw [← Nat.toList_repr, ← Nat.toList_repr, h]
    rw [← Nat.ofDigitChars_ten_toDigits (n := k), hdigits, Nat.ofDigitChars_ten_toDigits]
  · rintro rfl
    rfl

/-- The last message alone holds its identifier. -/
theorem holders_longChain (last : ℕ) :
    holders 1 (chainIdentifier last) (longChain last) = [last] := by
  have hholds : (fun m : Message => m.accountId == 1 &&
      m.messageId == some (chainIdentifier last)) ∘ chainMessage last = (· == last) := by
    funext k
    rw [Bool.eq_iff_iff]
    simpa [chainMessage, Message.bare] using chainIdentifier_inj
  have hrange : (List.range last).filter (· == last) = [] := by
    rw [List.filter_eq_nil_iff]
    intro k hk
    have hlt := List.mem_range.mp hk
    simp only [beq_iff_eq]
    omega
  unfold holders Table.select longChain
  dsimp only
  rw [List.filter_map, hholds, List.range_succ, List.filter_append, hrange]
  simp [chainMessage, Message.bare]

theorem soleHolder_longChain : soleHolder 1 (chainMessage maxChainDepth 0)
    (longChain maxChainDepth) = some maxChainDepth := by
  have hreference : resolveParentReference (chainMessage maxChainDepth 0).inReplyTo
      (chainMessage maxChainDepth 0).referenceIds =
      .candidate (chainIdentifier maxChainDepth) := by
    decide +kernel
  have hself : (chainMessage maxChainDepth 0).messageId ≠ some (chainIdentifier maxChainDepth) := by
    decide +kernel
  unfold soleHolder
  rw [hreference]
  dsimp only
  rw [if_neg hself, holders_longChain]

/-- The first message of a chain of one message more than a walk looks at becomes a reply to the
last one, and closes a cycle. -/
theorem reconcileRow_longChain : ∃ outcome db', NoCycles (longChain maxChainDepth) ∧
    reconcileRow 1 0 2 (longChain maxChainDepth) = some (outcome, db') ∧ ¬ NoCycles db' := by
  have hacyclic := noCycles_longChain maxChainDepth
  obtain ⟨outcome, db', h⟩ : ∃ outcome db',
      reconcileRow 1 0 2 (longChain maxChainDepth) = some (outcome, db') :=
    reconcileRow_commits hacyclic 1 0 rfl
  refine ⟨outcome, db', hacyclic, h, fun hacyclic' => ?_⟩
  have hdirty : dirtyRow 1 0 (longChain maxChainDepth) = some (chainMessage maxChainDepth 0) := by
    unfold dirtyRow
    rw [findRow_longChain (Nat.zero_le _)]
    rfl
  have hfar : ancestor (recordedParent 1 (longChain maxChainDepth)) maxChainDepth maxChainDepth =
      some 0 := by
    rw [ancestor_longChain maxChainDepth le_rfl, Nat.sub_self]
  have hbound := (noCycles_reconcileRow_iff hacyclic h).mp hacyclic'
  exact hbound _ hdirty _ soleHolder_longChain maxChainDepth le_rfl hfar

end MailHub
