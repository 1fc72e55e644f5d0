import MailHub.Ordering.Labels
import MailHub.Sync.Rest

/-!
# Thread membership

A reconciliation moves its row and everything below it onto the thread of the chain root. Between
two reconciliations the rows that lost or changed a link elsewhere may still carry an old thread;
they are marked. The main result is that the threads of the rows follow their links up to these
marks, in every run, so that two rows at rest are in the same thread exactly when their chains end
in the same root.
-/

namespace MailHub

open Relational Ordering Interleaving

variable {accountId otherId messageId survivorId freshThreadId id : Uuid} {now : Instant}
  {db db' : Database} {m m' row : Message}

/-! ## Rows, threads and jobs of an account -/

/-- Whether an account has a row. -/
def IsRow (accountId : Uuid) (db : Database) (id : Uuid) : Prop :=
  (findRow accountId id db).isSome

/-- The thread that a row of an account carries. -/
def carriedThread (accountId : Uuid) (db : Database) (id : Uuid) : Option Uuid :=
  (findRow accountId id db).bind (·.threadId)

/-- Whether a row of an account is a thread job. -/
def IsJob (accountId : Uuid) (db : Database) (id : Uuid) : Prop :=
  (dirtyRow accountId id db).isSome

theorem isRow_iff : IsRow accountId db id ↔
    ∃ m ∈ db.messages, m.id = id ∧ m.accountId = accountId := by
  unfold IsRow
  rw [Option.isSome_iff_exists]
  exact exists_congr fun m => findRow_eq_some_iff

theorem isRow_of_mem (hm : m ∈ db.messages) : IsRow m.accountId db m.id :=
  isRow_iff.mpr ⟨m, hm, rfl, rfl⟩

theorem carriedThread_of_mem (hm : m ∈ db.messages) :
    carriedThread m.accountId db m.id = m.threadId := by
  unfold carriedThread
  rw [findRow_eq_some_iff.mpr ⟨hm, rfl, rfl⟩]
  rfl

theorem isJob_iff : IsJob accountId db id ↔
    ∃ m ∈ db.messages, m.id = id ∧ m.accountId = accountId ∧ m.threadDirty = true := by
  unfold IsJob dirtyRow
  rw [Option.isSome_iff_exists]
  refine exists_congr fun m => ?_
  rw [Option.filter_eq_some_iff, findRow_eq_some_iff, and_assoc, and_assoc]

/-- A row after an update of the message rows. -/
theorem findRow_update {p : Message → Bool} {f : Message → Message}
    (hf : ∀ m, Keyed.key (f m) = Keyed.key m) (haccount : ∀ m, (f m).accountId = m.accountId)
    (hdb : db'.messages = db.messages.update p f hf) : findRow accountId id db' =
      (findRow accountId id db).map fun m => if p m then f m else m := by
  unfold findRow
  rw [hdb, Table.find?_update]
  cases db.messages.find? id with
  | none => rfl
  | some m =>
      by_cases hp : p m
      · by_cases hm : m.accountId = accountId <;> simp [Option.filter, hp, hm, haccount]
      · by_cases hm : m.accountId = accountId <;> simp [Option.filter, hp, hm]

/-- Updates that keep threads keep the carried threads. -/
theorem carriedThread_update {p : Message → Bool} {f : Message → Message}
    (hf : ∀ m, Keyed.key (f m) = Keyed.key m) (hsame : ∀ m, (f m).accountId = m.accountId ∧
      (f m).threadId = m.threadId)
    (hdb : db'.messages = db.messages.update p f hf) :
    carriedThread accountId db' = carriedThread accountId db := by
  funext id
  unfold carriedThread
  rw [findRow_update hf (fun m => (hsame m).1) hdb]
  cases findRow accountId id db with
  | none => rfl
  | some m =>
      rw [Option.map_some, Option.bind_some, Option.bind_some]
      split
      · exact (hsame m).2
      · rfl

/-- Updates keep the rows. -/
theorem isRow_update {p : Message → Bool} {f : Message → Message}
    (hf : ∀ m, Keyed.key (f m) = Keyed.key m) (haccount : ∀ m, (f m).accountId = m.accountId)
    (hdb : db'.messages = db.messages.update p f hf) :
    IsRow accountId db' id ↔ IsRow accountId db id := by
  unfold IsRow
  rw [findRow_update hf haccount hdb, Option.isSome_map]

/-- The thread of a row after some rows got one. -/
theorem carriedThread_assignThread {p : Message → Bool} {threadId : Uuid} :
    carriedThread accountId (assignThread p threadId db) id =
      (findRow accountId id db).bind fun m => if p m then some threadId else m.threadId := by
  unfold carriedThread
  rw [findRow_update (p := p) (f := fun m => { m with threadId := some threadId }) (fun _ => rfl)
    (fun _ => rfl) rfl]
  cases findRow accountId id db with
  | none => rfl
  | some m =>
      rw [Option.map_some, Option.bind_some, Option.bind_some]
      split <;> rfl

/-! ## Parents that exist -/

/-- Every parent is a row of the same account. -/
def Kin (db : Database) : Prop :=
  ∀ m ∈ db.messages, ∀ parentId, m.parentMessageId = some parentId → IsRow m.accountId db parentId

theorem Kin.isRow_of_parent (h : Kin db) {parentId : Uuid}
    (hparent : recordedParent accountId db id = some parentId) : IsRow accountId db parentId := by
  obtain ⟨m, hm, hrecorded⟩ := Option.bind_eq_some_iff.mp hparent
  obtain ⟨hmem, -, rfl⟩ := findRow_eq_some_iff.mp hm
  exact h m hmem parentId hrecorded

/-- Everything above a row is a row. -/
theorem Kin.isRow_of_ancestor (h : Kin db) {n : ℕ} {aboveId : Uuid}
    (hrow : IsRow accountId db id)
    (hup : ancestor (recordedParent accountId db) n id = some aboveId) :
    IsRow accountId db aboveId := by
  induction n generalizing id with
  | zero => exact Option.some.inj hup ▸ hrow
  | succ n ih =>
      rw [ancestor_succ] at hup
      obtain ⟨parentId, hparent, hup⟩ := Option.bind_eq_some_iff.mp hup
      exact ih (h.isRow_of_parent hparent) hup

/-! ## Subtrees -/

theorem mem_childrenOf {ids : List Uuid} : id ∈ childrenOf ids db ↔
    ∃ m ∈ db.messages, m.id = id ∧ ∃ parentId ∈ ids, m.parentMessageId = some parentId := by
  unfold childrenOf
  rw [List.mem_map]
  refine exists_congr fun m => ?_
  rw [Table.mem_select, Option.any_eq_true]
  simp only [decide_eq_true_eq]
  constructor
  · rintro ⟨⟨hm, parentId, hparent, hin⟩, hid⟩
    exact ⟨hm, hid, parentId, hin, hparent⟩
  · rintro ⟨hm, hid, parentId, hin, hparent⟩
    exact ⟨⟨hm, parentId, hparent, hin⟩, hid⟩

/-- What is found below some rows of an account leads to one of them. -/
theorem leads_of_mem_subtree (hkin : Kin db) {n : ℕ} {ids : List Uuid}
    (hrows : ∀ i ∈ ids, IsRow accountId db i) (h : id ∈ subtree db n ids) :
    IsRow accountId db id ∧ ∃ i ∈ ids, Leads (recordedParent accountId db) i id := by
  induction n generalizing ids with
  | zero => exact ⟨hrows id h, id, h, .refl⟩
  | succ n ih =>
      -- a child of a row of the account is a row of the account
      have hchild : ∀ i ∈ childrenOf ids db, IsRow accountId db i ∧
          ∃ parentId ∈ ids, recordedParent accountId db i = some parentId := by
        intro i hi
        obtain ⟨m, hm, rfl, parentId, hin, hparent⟩ := mem_childrenOf.mp hi
        obtain ⟨p, hp, hid, haccount⟩ := isRow_iff.mp (hkin m hm parentId hparent)
        obtain ⟨p', hp', hid', haccount'⟩ := isRow_iff.mp (hrows parentId hin)
        obtain rfl : p = p' := Table.eq_of_key_eq hp hp' (hid.trans hid'.symm)
        have hsame : m.accountId = accountId := haccount.symm.trans haccount'
        refine ⟨hsame ▸ isRow_of_mem hm, parentId, hin, ?_⟩
        rw [← hsame, recordedParent_of_mem hm, hparent]
      have hall : ∀ i ∈ ids ++ (childrenOf ids db).filter (· ∉ ids), IsRow accountId db i := by
        intro i hi
        rcases List.mem_append.mp hi with hi | hi
        · exact hrows i hi
        · exact (hchild i (List.mem_filter.mp hi).1).1
      obtain ⟨hrow, i, hi, hlead⟩ := ih hall h
      refine ⟨hrow, ?_⟩
      rcases List.mem_append.mp hi with hi | hi
      · exact ⟨i, hi, hlead⟩
      · obtain ⟨-, parentId, hin, hparent⟩ := hchild i (List.mem_filter.mp hi).1
        exact ⟨parentId, hin, hlead.trans (.of_parent hparent)⟩

/-- What leads to some rows in so many steps is found below them. -/
theorem mem_subtree_of_ancestor {n k : ℕ} {ids : List Uuid} {i : Uuid} (hk : k ≤ n) (hi : i ∈ ids)
    (hup : ancestor (recordedParent accountId db) k id = some i) : id ∈ subtree db n ids := by
  induction n generalizing ids k i with
  | zero =>
      obtain rfl : k = 0 := by omega
      exact Option.some.inj hup ▸ hi
  | succ n ih =>
      cases k with
      | zero => exact ih (Nat.zero_le n) (List.mem_append_left _ hi) hup
      | succ k =>
          rw [ancestor_add] at hup
          obtain ⟨x, hx, hlast⟩ := Option.bind_eq_some_iff.mp hup
          have hparent : recordedParent accountId db x = some i := by
            rw [ancestor_succ] at hlast
            obtain ⟨y, hy, hlast⟩ := Option.bind_eq_some_iff.mp hlast
            rw [hy, ← hlast, ancestor_zero]
          refine ih (by omega) ?_ hx
          by_cases hin : x ∈ ids
          · exact List.mem_append_left _ hin
          · obtain ⟨m, hm, hmp⟩ := Option.bind_eq_some_iff.mp hparent
            obtain ⟨hmem, hid, -⟩ := findRow_eq_some_iff.mp hm
            refine List.mem_append_right _ (List.mem_filter.mpr ⟨?_, by simpa using hin⟩)
            exact mem_childrenOf.mpr ⟨m, hmem, hid, i, hi, hmp⟩

/-- The rows below a row are those whose chains lead to it. -/
theorem mem_subtree_iff (hkin : Kin db) (hacyclic : Acyclic (recordedParent accountId db))
    (hrow : IsRow accountId db messageId) (hid : IsRow accountId db id) :
    id ∈ subtree db db.messages.rows.length [messageId] ↔
      Leads (recordedParent accountId db) messageId id := by
  constructor
  · intro h
    obtain ⟨-, i, hi, hlead⟩ := leads_of_mem_subtree hkin
      (fun i hi => List.mem_singleton.mp hi ▸ hrow) h
    exact List.mem_singleton.mp hi ▸ hlead
  · rintro ⟨n, hn⟩
    refine mem_subtree_of_ancestor ?_ (List.mem_singleton_self _) hn
    have hlt : n < (db.messages.rows.map (·.id)).length := hacyclic.lt_length hn fun k x hx => by
      obtain ⟨m, hm, rfl, -⟩ := isRow_iff.mp (hkin.isRow_of_ancestor hid hx)
      exact List.mem_map_of_mem hm
    rw [List.length_map] at hlt
    exact hlt.le

/-! ## Chain roots -/

theorem isSome_walkRoot {n : ℕ} {seen : List Uuid} {last : Option ChainRow}
    (hlast : last.isSome) : (walkRoot accountId db n seen last id).isSome := by
  induction n generalizing seen last id with
  | zero => exact hlast
  | succ n ih =>
      unfold walkRoot
      split
      · exact hlast
      split
      · exact hlast
      split
      · rfl
      · exact ih rfl

/-- The row that stands in as the root is a row of the account. -/
theorem findRow_of_walkRoot {n : ℕ} {seen : List Uuid} {last : Option ChainRow} {root : ChainRow}
    (hlast : ∀ chainRow, last = some chainRow → ∃ m,
      findRow accountId chainRow.id db = some m ∧ chainRow = m.chainRow)
    (h : walkRoot accountId db n seen last id = some root) :
    ∃ m, findRow accountId root.id db = some m ∧ root = m.chainRow := by
  induction n generalizing seen last id with
  | zero => exact hlast root h
  | succ n ih =>
      unfold walkRoot at h
      split at h
      · exact hlast root h
      split at h
      · exact hlast root h
      next row hrow =>
        have hfound : ∃ m, findRow accountId row.chainRow.id db = some m ∧
            row.chainRow = m.chainRow := by
          obtain ⟨hmem, hid, haccount⟩ := findRow_eq_some_iff.mp hrow
          exact ⟨row, findRow_eq_some_iff.mpr ⟨hmem, rfl, haccount⟩, rfl⟩
        split at h
        · exact Option.some.inj h ▸ hfound
        · exact ih (fun chainRow hrow => Option.some.inj hrow ▸ hfound) h

theorem findRow_chainRoot (hrow : findRow accountId id db = some row) :
    ∃ m, findRow accountId (chainRoot accountId id db).id db = some m ∧
      chainRoot accountId id db = m.chainRow := by
  have hsome : (walkRoot accountId db (maxChainDepth + 1) [] none id).isSome := by
    unfold walkRoot
    rw [if_neg List.not_mem_nil, hrow]
    dsimp only
    split
    · rfl
    · exact isSome_walkRoot rfl
  obtain ⟨root, hroot⟩ := Option.isSome_iff_exists.mp hsome
  unfold chainRoot
  rw [hroot]
  exact findRow_of_walkRoot (fun _ hlast => by cases hlast) hroot

/-- Within its steps the walk comes to the root. -/
theorem walkRoot_eq (hkin : Kin db) (hacyclic : Acyclic (recordedParent accountId db)) {k n : ℕ}
    {seen : List Uuid} {last : Option ChainRow} {rootId : Uuid} (hid : IsRow accountId db id)
    (hup : ancestor (recordedParent accountId db) k id = some rootId)
    (hroot : recordedParent accountId db rootId = none) (hk : k < n)
    (hseen : ∀ s ∈ seen, Leads (recordedParent accountId db) id s ∧ s ≠ id) :
    ∃ root, walkRoot accountId db n seen last id = some root ∧ root.id = rootId := by
  induction k generalizing n seen last id with
  | zero =>
      obtain ⟨n, rfl⟩ : ∃ j, n = j + 1 := ⟨n - 1, by omega⟩
      obtain rfl : id = rootId := Option.some.inj hup
      obtain ⟨row, hrow⟩ := Option.isSome_iff_exists.mp hid
      have hnone : row.parentMessageId = none := by
        unfold recordedParent at hroot
        rw [hrow] at hroot
        exact hroot
      refine ⟨row.chainRow, ?_, (findRow_eq_some_iff.mp hrow).2.1⟩
      unfold walkRoot
      rw [if_neg fun hin => (hseen id hin).2 rfl, hrow]
      dsimp only
      rw [hnone]
  | succ k ih =>
      obtain ⟨n, rfl⟩ : ∃ j, n = j + 1 := ⟨n - 1, by omega⟩
      obtain ⟨row, hrow⟩ := Option.isSome_iff_exists.mp hid
      rw [ancestor_succ] at hup
      obtain ⟨parentId, hparent, hup⟩ := Option.bind_eq_some_iff.mp hup
      have hsome : row.parentMessageId = some parentId := by
        unfold recordedParent at hparent
        rw [hrow] at hparent
        exact hparent
      unfold walkRoot
      rw [if_neg fun hin => (hseen id hin).2 rfl, hrow]
      dsimp only
      rw [hsome]
      refine ih (hkin.isRow_of_parent hparent) hup (by omega) fun s hs => ?_
      rcases List.mem_cons.mp hs with rfl | hs
      · refine ⟨.of_parent hparent, ?_⟩
        rintro rfl
        exact hacyclic.not_leads hparent .refl
      · refine ⟨(hseen s hs).1.trans (.of_parent hparent), ?_⟩
        rintro rfl
        exact hacyclic.not_leads hparent (hseen _ hs).1

/-- No chain of an account is longer than a walk looks. -/
def Shallow (accountId : Uuid) (db : Database) : Prop :=
  ∀ id, ancestor (recordedParent accountId db) maxChainDepth id = none

theorem Shallow.acyclic (h : Shallow accountId db) : Acyclic (recordedParent accountId db) :=
  acyclic_of_bound h

/-- In a shallow account the chain root is the root of the chain. -/
theorem Shallow.rootOf_chainRoot (h : Shallow accountId db) (hkin : Kin db)
    (hrow : IsRow accountId db id) :
    RootOf (recordedParent accountId db) id (chainRoot accountId id db).id := by
  obtain ⟨k, hk, rootId, hup, hnone⟩ := exists_root h id
  obtain ⟨root, hroot, rfl⟩ : ∃ root, walkRoot accountId db (maxChainDepth + 1) [] none id =
      some root ∧ root.id = rootId :=
    walkRoot_eq hkin h.acyclic hrow hup hnone (by omega)
      fun s hs => (List.not_mem_nil hs).elim
  unfold chainRoot
  rw [hroot]
  exact ⟨⟨k, hup⟩, hnone⟩

/-! ## What a reconciliation does to the threads -/

section

variable {decision : LinkDecision} {threadId : Uuid} {outcome : Option RowOutcome}

/-- Which rows move onto a thread. -/
theorem outsideThread_iff (hkin : Kin db) (hacyclic : Acyclic (recordedParent accountId db))
    (hrow : IsRow accountId db messageId) (hm : m ∈ db.messages) (haccount : m.accountId = accountId) :
    outsideThread accountId messageId threadId db m = true ↔
      Leads (recordedParent accountId db) messageId m.id ∧ m.threadId ≠ some threadId := by
  obtain ⟨row, hfound⟩ := Option.isSome_iff_exists.mp hrow
  have hbase : (findRow accountId messageId db).toList.map (·.id) = [messageId] := by
    rw [hfound, Option.toList_some, List.map_singleton, (findRow_eq_some_iff.mp hfound).2.1]
  unfold outsideThread
  rw [hbase, Bool.and_eq_true, Bool.and_eq_true, decide_eq_true_eq, bne_iff_ne, beq_iff_eq,
    mem_subtree_iff hkin hacyclic hrow (haccount ▸ isRow_of_mem hm)]
  exact and_congr_left fun _ => and_iff_right haccount

/-- The threads after a row and everything below it moved onto one. -/
theorem carriedThread_propagateThread (threadId id : Uuid) (hkin : Kin db)
    (hacyclic : Acyclic (recordedParent accountId db)) (hrow : IsRow accountId db messageId) :
    (Leads (recordedParent accountId db) messageId id → IsRow accountId db id →
      carriedThread accountId (propagateThread accountId messageId threadId db).2 id =
        some threadId) ∧
      (¬ Leads (recordedParent accountId db) messageId id →
        carriedThread accountId (propagateThread accountId messageId threadId db).2 id =
          carriedThread accountId db id) := by
  have hassigned : carriedThread accountId (propagateThread accountId messageId threadId db).2 id =
      (findRow accountId id db).bind fun m =>
        if outsideThread accountId messageId threadId db m then some threadId else m.threadId :=
    carriedThread_assignThread
  rw [hassigned]
  constructor
  · intro hlead hid
    obtain ⟨m, hm⟩ := Option.isSome_iff_exists.mp hid
    obtain ⟨hmem, rfl, haccount⟩ := findRow_eq_some_iff.mp hm
    rw [hm, Option.bind_some]
    by_cases hthread : m.threadId = some threadId
    · split
      · rfl
      · exact hthread
    · rw [if_pos ((outsideThread_iff hkin hacyclic hrow hmem haccount).mpr ⟨hlead, hthread⟩)]
  · intro hlead
    unfold carriedThread
    cases hm : findRow accountId id db with
    | none => rfl
    | some m =>
        obtain ⟨hmem, rfl, haccount⟩ := findRow_eq_some_iff.mp hm
        rw [Option.bind_some, Option.bind_some, if_neg fun hmoves =>
          hlead ((outsideThread_iff hkin hacyclic hrow hmem haccount).mp hmoves).1]

theorem isRow_recordLink : IsRow otherId (recordLink row decision db) id ↔ IsRow otherId db id := by
  unfold recordLink
  split
  · exact isRow_update (p := (·.id == row.id)) (f := fun m =>
      { m with parentMessageId := decision.parentId, threadLinkState := decision.state })
      (fun _ => rfl) (fun _ => rfl) rfl
  · rfl

theorem carriedThread_recordLink (row : Message) (decision : LinkDecision) :
    carriedThread otherId (recordLink row decision db) = carriedThread otherId db := by
  unfold recordLink
  split
  · exact carriedThread_update (p := (·.id == row.id)) (f := fun m =>
      { m with parentMessageId := decision.parentId, threadLinkState := decision.state })
      (fun _ => rfl) (fun _ => ⟨rfl, rfl⟩) rfl
  · rfl

@[simp] theorem isRow_assignThread {p : Message → Bool} :
    IsRow otherId (assignThread p threadId db) id ↔ IsRow otherId db id :=
  isRow_update (p := p) (f := fun m => { m with threadId := some threadId }) (fun _ => rfl)
    (fun _ => rfl) rfl

@[simp] theorem isRow_clearDirty : IsRow otherId (clearDirty messageId db) id ↔ IsRow otherId db id :=
  isRow_update (p := (·.id == messageId)) (f := fun m => { m with threadDirty := false })
    (fun _ => rfl) (fun _ => rfl) rfl

@[simp] theorem carriedThread_clearDirty :
    carriedThread otherId (clearDirty messageId db) = carriedThread otherId db :=
  carriedThread_update (p := (·.id == messageId)) (f := fun m => { m with threadDirty := false })
    (fun _ => rfl) (fun _ => ⟨rfl, rfl⟩) rfl

/-- The parent that a decision names holds an identifier that the row names. -/
theorem holder_of_decision {parentId : Uuid}
    (hdecision : decideLink row.accountId row db = some decision)
    (hparent : decision.parentId = some parentId) :
    ∃ identifier ∈ parentIdentifiers row, parentId ∈ holders row.accountId identifier db := by
  refine holder_of_linked ?_
  rw [decideLink_eq] at hdecision
  cases hholder : holderDecision row db with
  | root => rw [hholder] at hdecision; cases hdecision; cases hparent
  | pending => rw [hholder] at hdecision; cases hdecision; cases hparent
  | ambiguous => rw [hholder] at hdecision; cases hdecision; cases hparent
  | linked holderId =>
      rw [hholder] at hdecision
      obtain ⟨reaches, -, rfl⟩ := Option.map_eq_some_iff.mp hdecision
      cases reaches with
      | true => cases hparent
      | false =>
          obtain rfl : holderId = parentId := Option.some.inj hparent
          rfl

theorem isRow_of_holder {identifier : String} (h : id ∈ holders accountId identifier db) :
    IsRow accountId db id := by
  obtain ⟨holder, hin, hid, haccount, -⟩ := mem_holders.mp h
  exact isRow_iff.mpr ⟨holder, hin, hid, haccount⟩

/-- A decided link keeps every parent a row of the account. -/
theorem Kin.recordLink (h : Kin db) (hrow : row ∈ db.messages)
    (hdecision : decideLink row.accountId row db = some decision) :
    Kin (MailHub.recordLink row decision db) := by
  intro m hm parentId hparent
  rw [isRow_recordLink]
  rcases of_mem_recordLink hrow hm with ⟨hold, -⟩ | rfl
  · exact h m hold parentId hparent
  · obtain ⟨identifier, -, hholder⟩ := holder_of_decision hdecision hparent
    exact isRow_of_holder hholder

/-- What joining a thread leaves of the rows. -/
theorem joinThread_rows {root : ChainRow} {known : Option Uuid} {created : ℕ}
    (h : joinThread accountId root known freshThreadId db = some (threadId, created, db')) :
    (∀ otherId id, IsRow otherId db' id ↔ IsRow otherId db id) ∧
      (known = some threadId ∧ (∀ otherId, carriedThread otherId db' = carriedThread otherId db) ∨
        known = none ∧ db.threads.find? threadId = none ∧
          ∀ otherId id, carriedThread otherId db' id =
            (findRow otherId id db).bind fun m =>
              if m.id == root.id then some threadId else m.threadId) := by
  unfold joinThread at h
  split at h
  · obtain ⟨rfl, -, rfl⟩ : _ = threadId ∧ 0 = created ∧ db = db' := by simpa using h
    exact ⟨fun _ _ => Iff.rfl, .inl ⟨rfl, fun _ => rfl⟩⟩
  · obtain ⟨threads, hinsert, hassigned⟩ := Option.bind_eq_some_iff.mp h
    obtain ⟨rfl, -, rfl⟩ : freshThreadId = threadId ∧ 1 = created ∧ _ = db' := by
      simpa using hassigned
    exact ⟨fun otherId id => isRow_assignThread,
      .inr ⟨rfl, Table.find?_of_insert? hinsert, fun otherId id => carriedThread_assignThread⟩⟩

/-- What a reconciliation of a row does to the threads: the row and everything below it join one, and
so does their root when it had none. -/
structure Moves (accountId messageId rootId threadId : Uuid) (db db' : Database) : Prop where
  root : RootOf (recordedParent accountId db') messageId rootId
  below : ∀ x, Leads (recordedParent accountId db') messageId x → IsRow accountId db x →
    carriedThread accountId db' x = some threadId
  top : carriedThread accountId db' rootId = some threadId
  rest : ∀ x, ¬ Leads (recordedParent accountId db') messageId x → x ≠ rootId →
    carriedThread accountId db' x = carriedThread accountId db x
  /-- The thread is the one of the root, unless the row just lost its parent, or a new one. -/
  source : (carriedThread accountId db rootId = some threadId ∧
      (rootId = messageId → recordedParent accountId db messageId = none)) ∨
    (db.threads.find? threadId = none ∧
      (rootId ≠ messageId → carriedThread accountId db rootId = none))

/-- A reconciliation of a shallow account moves a row and everything below it. -/
theorem reconcileRow_moves (hkin : Kin db) (hshallow : Shallow accountId db')
    (h : reconcileRow accountId messageId freshThreadId db = some (outcome, db'))
    (hjob : IsJob accountId db messageId) :
    ∃ rootId threadId, Moves accountId messageId rootId threadId db db' := by
  rcases reconcileRow_cases h with ⟨hnone, -⟩ |
    ⟨row, decision, threadId, created, joined, hdirty, hdecision, hjoin, rfl⟩
  · unfold IsJob at hjob
    rw [hnone] at hjob
    cases hjob
  have hrow := (Option.filter_eq_some_iff.mp hdirty).1
  obtain ⟨hmem, rfl, rfl⟩ := findRow_eq_some_iff.mp hrow
  obtain ⟨hrows, hthreads⟩ := joinThread_rows hjoin
  have hlinks : recordedParent row.accountId (clearDirty row.id
      (propagateThread row.accountId row.id threadId joined).2) =
      recordedParent row.accountId (recordLink row decision db) := by
    rw [recordedParent_clearDirty]
    exact recordedParent_assignThread.trans (recordedParent_joinThread hjoin)
  have hjoined : recordedParent row.accountId joined =
      recordedParent row.accountId (recordLink row decision db) := recordedParent_joinThread hjoin
  have hin : IsRow row.accountId (recordLink row decision db) row.id :=
    isRow_recordLink.mpr (isRow_of_mem hmem)
  have hkin' : Kin (recordLink row decision db) := hkin.recordLink hmem hdecision
  have hkinJoined : Kin joined := by
    intro m hm parentId hparent
    obtain ⟨m₀, hm₀, thread, rfl⟩ := of_mem_joinThread hjoin hm
    exact (hrows _ _).mpr (hkin' m₀ hm₀ parentId hparent)
  have hshallow' : Shallow row.accountId (recordLink row decision db) := by
    intro id
    rw [← hlinks]
    exact hshallow id
  have hacyclic : Acyclic (recordedParent row.accountId joined) := hjoined ▸ hshallow'.acyclic
  obtain ⟨m, hm, hchain⟩ := findRow_chainRoot (Option.isSome_iff_exists.mp hin).choose_spec
  have hroot := hshallow'.rootOf_chainRoot hkin' hin
  generalize hrootRow : chainRoot row.accountId row.id (recordLink row decision db) = root at *
  have hpropagate := fun x => carriedThread_propagateThread threadId x hkinJoined
    hacyclic ((hrows _ _).mpr hin)
  have hcarried : carriedThread row.accountId (clearDirty row.id
      (propagateThread row.accountId row.id threadId joined).2) =
      carriedThread row.accountId (propagateThread row.accountId row.id threadId joined).2 :=
    carriedThread_clearDirty
  -- the thread that the root carries
  have hknown : root.threadId.or ((findRow row.accountId root.id
      (recordLink row decision db)).bind (·.threadId)) = carriedThread row.accountId db root.id := by
    have hsame : root.threadId = carriedThread row.accountId db root.id := by
      rw [← carriedThread_recordLink row decision]
      unfold carriedThread
      rw [hm, hchain]
      rfl
    have hagain : (findRow row.accountId root.id (recordLink row decision db)).bind (·.threadId) =
        carriedThread row.accountId db root.id := by
      rw [← carriedThread_recordLink row decision]
      rfl
    rw [hsame, hagain]
    cases carriedThread row.accountId db root.id <;> rfl
  have hrecorded : recordedParent row.accountId db row.id = row.parentMessageId :=
    recordedParent_of_mem hmem
  have hdecided : recordedParent row.accountId (recordLink row decision db) row.id =
      decision.parentId := (recordedParent_recordLink hrow decision).1
  have hrootRow : IsRow row.accountId joined root.id :=
    (hrows _ _).mpr (Option.isSome_iff_exists.mpr ⟨m, hm⟩)
  have hstored : (recordLink row decision db).threads = db.threads := by
    unfold recordLink
    split <;> rfl
  -- the thread of the root and of the rows elsewhere, before everything below the row moves
  have hbefore : carriedThread row.accountId joined root.id = some threadId ∧
      (∀ x, x ≠ root.id → carriedThread row.accountId joined x =
        carriedThread row.accountId db x) := by
    rcases hthreads with ⟨hsome, hsame⟩ | ⟨-, -, hassigned⟩
    · rw [hsame, carriedThread_recordLink]
      refine ⟨?_, fun x _ => rfl⟩
      unfold knownThread at hsome
      dsimp only at hsome
      split at hsome
      · cases hsome
      · rw [← hknown, hsome]
    · refine ⟨?_, fun x hx => ?_⟩
      · rw [hassigned, hm, Option.bind_some, if_pos]
        rw [(findRow_eq_some_iff.mp hm).2.1, beq_self_eq_true]
      · rw [hassigned, ← carriedThread_recordLink row decision]
        unfold carriedThread
        cases hx' : findRow row.accountId x (recordLink row decision db) with
        | none => rfl
        | some m' =>
            have hid : m'.id ≠ root.id := (findRow_eq_some_iff.mp hx').2.1 ▸ hx
            rw [Option.bind_some, Option.bind_some, if_neg (by simpa using hid)]
  refine ⟨root.id, threadId, ?_, ?_, ?_, ?_, ?_⟩
  · rw [hlinks]
    exact hroot
  · intro x hlead hx
    rw [hcarried]
    rw [hlinks, ← hjoined] at hlead
    exact (hpropagate x).1 hlead ((hrows _ _).mpr (isRow_recordLink.mpr hx))
  · rw [hcarried]
    by_cases hlead : Leads (recordedParent row.accountId joined) row.id root.id
    · exact (hpropagate root.id).1 hlead hrootRow
    · rw [(hpropagate root.id).2 hlead, hbefore.1]
  · intro x hlead hx
    rw [hcarried]
    rw [hlinks, ← hjoined] at hlead
    rw [(hpropagate x).2 hlead, hbefore.2 x hx]
  · rcases hthreads with ⟨hsome, -⟩ | ⟨hnone, hfresh, -⟩
    · refine .inl ?_
      unfold knownThread at hsome
      dsimp only at hsome
      split at hsome
      next => cases hsome
      next hattached =>
        refine ⟨hknown.symm.trans hsome, fun hself => ?_⟩
        -- a root that was decided has no parent
        have hnoParent : decision.parentId = none := by
          rw [← hdecided, ← hself]
          exact hroot.2
        rw [hself, hnoParent, beq_self_eq_true] at hattached
        simpa [hrecorded] using hattached
    · refine .inr ⟨hstored ▸ hfresh, fun hother => ?_⟩
      unfold knownThread at hnone
      dsimp only at hnone
      rw [if_neg (by simp [hother]), hknown] at hnone
      exact hnone

end

/-! ## The invariant -/

/-- Parents and threads exist, and the threads of an account follow its links up to the jobs. -/
structure Threaded (accountId : Uuid) (db : Database) : Prop where
  kin : Kin db
  stored : ∀ m ∈ db.messages, ∀ threadId, m.threadId = some threadId →
    (db.threads.find? threadId).isSome
  follows : Follows (recordedParent accountId db) (carriedThread accountId db) (IsRow accountId db)
    (IsJob accountId db)

/-- Updates that keep the marks keep the jobs. -/
theorem isJob_update {p : Message → Bool} {f : Message → Message}
    (hf : ∀ m, Keyed.key (f m) = Keyed.key m)
    (hsame : ∀ m, (f m).accountId = m.accountId ∧ (f m).threadDirty = m.threadDirty)
    (hdb : db'.messages = db.messages.update p f hf) :
    IsJob accountId db' id ↔ IsJob accountId db id := by
  unfold IsJob dirtyRow
  rw [findRow_update hf (fun m => (hsame m).1) hdb]
  cases findRow accountId id db with
  | none => rfl
  | some m =>
      have hdirty : (if p m then f m else m).threadDirty = m.threadDirty := by
        split
        · exact (hsame m).2
        · rfl
      by_cases hm : m.threadDirty <;> simp [Option.filter, hdirty, hm]

/-- The jobs after some rows were marked. -/
theorem isJob_markDirty {p : Message → Bool} : IsJob accountId (markDirty p db) id ↔
    IsJob accountId db id ∨ ∃ m ∈ db.messages, m.id = id ∧ m.accountId = accountId ∧ p m := by
  rw [isJob_iff, isJob_iff]
  constructor
  · rintro ⟨m, hm, hid, haccount, hdirty⟩
    obtain ⟨m₀, hm₀, rfl⟩ := mem_markDirty.mp hm
    by_cases hp : p m₀
    · rw [if_pos hp] at hid haccount
      exact .inr ⟨m₀, hm₀, hid, haccount, hp⟩
    · rw [if_neg hp] at hid haccount hdirty
      exact .inl ⟨m₀, hm₀, hid, haccount, hdirty⟩
  · rintro (⟨m, hm, hid, haccount, hdirty⟩ | ⟨m, hm, hid, haccount, hp⟩)
    · refine ⟨_, mem_markDirty.mpr ⟨m, hm, rfl⟩, ?_⟩
      split
      · exact ⟨hid, haccount, rfl⟩
      · exact ⟨hid, haccount, hdirty⟩
    · exact ⟨_, mem_markDirty.mpr ⟨m, hm, if_pos hp⟩, hid, haccount, rfl⟩

/-- An update that keeps accounts, parents and threads, and unmarks no row, keeps the threads. -/
theorem Threaded.update (h : Threaded accountId db) {p : Message → Bool} {f : Message → Message}
    (hf : ∀ m, Keyed.key (f m) = Keyed.key m)
    (hsame : ∀ m, (f m).accountId = m.accountId ∧ (f m).parentMessageId = m.parentMessageId ∧
      (f m).threadId = m.threadId ∧ (m.threadDirty = true → (f m).threadDirty = true))
    (hdb : db'.messages = db.messages.update p f hf)
    (hthreads : ∀ threadId, (db.threads.find? threadId).isSome →
      (db'.threads.find? threadId).isSome) : Threaded accountId db' := by
  have hrow : ∀ m' ∈ db'.messages, ∃ m ∈ db.messages, m'.accountId = m.accountId ∧
      m'.parentMessageId = m.parentMessageId ∧ m'.threadId = m.threadId := by
    intro m' hm'
    rw [hdb] at hm'
    obtain ⟨m, hm, rfl⟩ := List.mem_map.mp hm'
    refine ⟨m, hm, ?_⟩
    split
    · exact ⟨(hsame m).1, (hsame m).2.1, (hsame m).2.2.1⟩
    · exact ⟨rfl, rfl, rfl⟩
  have hrows : ∀ otherId id, IsRow otherId db' id ↔ IsRow otherId db id := fun otherId id =>
    isRow_update hf (fun m => (hsame m).1) hdb
  refine ⟨fun m' hm' parentId hparent => ?_, fun m' hm' threadId hthread => ?_, ?_⟩
  · obtain ⟨m, hm, haccount, hparents, -⟩ := hrow m' hm'
    rw [haccount, hrows]
    exact h.kin m hm parentId (hparents ▸ hparent)
  · obtain ⟨m, hm, -, -, hsameThread⟩ := hrow m' hm'
    exact hthreads threadId (h.stored m hm threadId (hsameThread ▸ hthread))
  · rw [recordedParent_update hf (fun m => ⟨(hsame m).1, (hsame m).2.1⟩) hdb,
      carriedThread_update hf (fun m => ⟨(hsame m).1, (hsame m).2.2.1⟩) hdb]
    refine h.follows.mark (fun id hjob => ?_) (fun id hid => (hrows _ _).mpr hid)
      fun id hid _ => (hrows _ _).mp hid
    obtain ⟨m, hm, hid, haccount, hdirty⟩ := isJob_iff.mp hjob
    have hin : (if p m then f m else m) ∈ db'.messages := by
      rw [hdb]
      exact List.mem_map.mpr ⟨m, hm, rfl⟩
    refine isJob_iff.mpr ⟨_, hin, ?_⟩
    split
    · exact ⟨(hf m).trans hid, (hsame m).1.trans haccount, (hsame m).2.2.2 hdirty⟩
    · exact ⟨hid, haccount, hdirty⟩

/-- Marks change nothing. -/
theorem Threaded.markDirty (h : Threaded accountId db) {p : Message → Bool} :
    Threaded accountId (MailHub.markDirty p db) :=
  h.update (p := p) (f := fun m => { m with threadDirty := true }) (fun _ => rfl)
    (fun _ => ⟨rfl, rfl, rfl, fun _ => rfl⟩) rfl fun _ hthread => hthread

/-- New marked rows without a parent and a thread change nothing. -/
theorem Threaded.append (h : Threaded accountId db) {new : List Message}
    (hrows : db'.messages.rows = db.messages.rows ++ new)
    (hnew : ∀ m ∈ new, m.parentMessageId = none ∧ m.threadId = none ∧ m.threadDirty = true)
    (hthreads : db'.threads = db.threads) (hparents : SameParents db db') :
    Threaded accountId db' := by
  have hmem : ∀ m, m ∈ db'.messages ↔ m ∈ db.messages ∨ m ∈ new := by
    intro m
    rw [Table.mem_iff, hrows, List.mem_append, Table.mem_iff]
  have hin : ∀ otherId id, IsRow otherId db id → IsRow otherId db' id := by
    intro otherId id hid
    obtain ⟨m, hm, hid, haccount⟩ := isRow_iff.mp hid
    exact isRow_iff.mpr ⟨m, (hmem m).mpr (.inl hm), hid, haccount⟩
  have hcarried : carriedThread accountId db' = carriedThread accountId db := by
    funext id
    unfold carriedThread
    cases hm' : findRow accountId id db' with
    | none =>
        cases hm : findRow accountId id db with
        | none => rfl
        | some m =>
            have hrow : IsRow accountId db' id := hin _ _ (Option.isSome_of_eq_some hm)
            unfold IsRow at hrow
            rw [hm'] at hrow
            cases hrow
    | some m' =>
        obtain ⟨hin', rfl, haccount⟩ := findRow_eq_some_iff.mp hm'
        rcases (hmem m').mp hin' with hold | hadded
        · rw [findRow_eq_some_iff.mpr ⟨hold, rfl, haccount⟩]
        · rw [Option.bind_some, (hnew m' hadded).2.1]
          cases hm : findRow accountId m'.id db with
          | none => rfl
          | some m =>
              -- identifiers are not given twice
              obtain ⟨hmold, hid, -⟩ := findRow_eq_some_iff.mp hm
              obtain rfl : m = m' := Table.eq_of_key_eq ((hmem m).mpr (.inl hmold)) hin' hid
              exact (hnew m hadded).2.1.symm
  refine ⟨fun m' hm' parentId hparent => ?_, fun m' hm' threadId hthread => ?_, ?_⟩
  · rcases (hmem m').mp hm' with hold | hadded
    · exact hin _ _ (h.kin m' hold parentId hparent)
    · rw [(hnew m' hadded).1] at hparent
      cases hparent
  · rw [hthreads]
    rcases (hmem m').mp hm' with hold | hadded
    · exact h.stored m' hold threadId hthread
    · rw [(hnew m' hadded).2.1] at hthread
      cases hthread
  · rw [hparents accountId, hcarried]
    refine h.follows.mark (fun id hjob => ?_) (fun id => hin _ _) fun id hid hclean => ?_
    · obtain ⟨m, hm, hrest⟩ := isJob_iff.mp hjob
      exact isJob_iff.mpr ⟨m, (hmem m).mpr (.inl hm), hrest⟩
    · obtain ⟨m, hm, hid, haccount⟩ := isRow_iff.mp hid
      rcases (hmem m).mp hm with hold | hadded
      · exact isRow_iff.mpr ⟨m, hold, hid, haccount⟩
      · exact absurd (isJob_iff.mpr ⟨m, hm, hid, haccount, (hnew m hadded).2.2⟩) hclean

/-! ## Steps -/

section

variable {decision : LinkDecision} {threadId : Uuid} {outcome : Option RowOutcome}

/-- Updates of the rows of one account leave the others alone. -/
theorem findRow_update_other {p : Message → Bool} {f : Message → Message}
    (hf : ∀ m, Keyed.key (f m) = Keyed.key m) (haccount : ∀ m, (f m).accountId = m.accountId)
    (hother : ∀ m ∈ db.messages, p m = true → m.accountId ≠ otherId)
    (hdb : db'.messages = db.messages.update p f hf) :
    findRow otherId id db' = findRow otherId id db := by
  rw [findRow_update hf haccount hdb]
  cases hm : findRow otherId id db with
  | none => rfl
  | some m =>
      obtain ⟨hmem, -, hown⟩ := findRow_eq_some_iff.mp hm
      rw [Option.map_some, if_neg fun hp => hother m hmem hp hown]

/-- A reconciliation leaves the rows of other accounts alone. -/
theorem findRow_reconcileRow (id : Uuid) (hother : otherId ≠ accountId)
    (h : reconcileRow accountId messageId freshThreadId db = some (outcome, db')) :
    findRow otherId id db' = findRow otherId id db := by
  rcases reconcileRow_cases h with ⟨-, rfl⟩ |
    ⟨row, decision, threadId, created, joined, hdirty, hdecision, hjoin, rfl⟩
  · rfl
  obtain ⟨hmem, rfl, rfl⟩ := findRow_eq_some_iff.mp (Option.filter_eq_some_iff.mp hdirty).1
  -- the row with an identifier of the account is one of the account
  have hown : ∀ {db₁ : Database}, ∀ {x}, IsRow row.accountId db₁ x → ∀ m ∈ db₁.messages,
      m.id = x → m.accountId ≠ otherId := by
    intro db₁ x hx m hm hid hsame
    obtain ⟨m', hm', hid', haccount⟩ := isRow_iff.mp hx
    obtain rfl : m = m' := Table.eq_of_key_eq hm hm' (hid.trans hid'.symm)
    exact hother (hsame.symm.trans haccount)
  have hin : IsRow row.accountId (recordLink row decision db) row.id :=
    isRow_recordLink.mpr (isRow_of_mem hmem)
  obtain ⟨hrows, -⟩ := joinThread_rows hjoin
  have hlinked : findRow otherId id (recordLink row decision db) = findRow otherId id db := by
    unfold recordLink
    split
    · exact findRow_update_other (p := (·.id == row.id)) (f := fun m =>
        { m with parentMessageId := decision.parentId, threadLinkState := decision.state })
        (fun _ => rfl) (fun _ => rfl)
        (fun m hm hp => hown (isRow_of_mem hmem) m hm (by simpa using hp)) rfl
    · rfl
  have hjoined : findRow otherId id joined = findRow otherId id (recordLink row decision db) := by
    obtain ⟨m, hm, -⟩ := findRow_chainRoot (Option.isSome_iff_exists.mp hin).choose_spec
    unfold joinThread at hjoin
    split at hjoin
    · obtain ⟨-, -, rfl⟩ : _ = threadId ∧ 0 = created ∧ _ = joined := by simpa using hjoin
      rfl
    · obtain ⟨threads, -, hassigned⟩ := Option.bind_eq_some_iff.mp hjoin
      obtain ⟨-, -, rfl⟩ : freshThreadId = threadId ∧ 1 = created ∧ _ = joined := by
        simpa using hassigned
      exact findRow_update_other (p := (·.id == _)) (f := fun m =>
        { m with threadId := some freshThreadId }) (fun _ => rfl) (fun _ => rfl)
        (fun m' hm' hp => hown (Option.isSome_of_eq_some hm) m' hm' (by simpa using hp)) rfl
  have hmoved : findRow otherId id (propagateThread row.accountId row.id threadId joined).2 =
      findRow otherId id joined := by
    refine findRow_update_other (p := outsideThread row.accountId row.id threadId joined)
      (f := fun m => { m with threadId := some threadId }) (fun _ => rfl) (fun _ => rfl)
      (fun m hm hp hsame => ?_) rfl
    unfold outsideThread at hp
    simp only [Bool.and_eq_true, beq_iff_eq] at hp
    exact hother (hsame.symm.trans hp.1.1)
  have hcleared : findRow otherId id (clearDirty row.id
      (propagateThread row.accountId row.id threadId joined).2) =
      findRow otherId id (propagateThread row.accountId row.id threadId joined).2 := by
    refine findRow_update_other (p := (·.id == row.id)) (f := fun m =>
      { m with threadDirty := false }) (fun _ => rfl) (fun _ => rfl)
      (fun m hm hp => hown ?_ m hm (by simpa using hp)) rfl
    exact isRow_assignThread.mpr ((hrows _ _).mpr hin)
  rw [hcleared, hmoved, hjoined, hlinked]

@[simp] theorem isJob_assignThread {p : Message → Bool} :
    IsJob otherId (assignThread p threadId db) id ↔ IsJob otherId db id :=
  isJob_update (p := p) (f := fun m => { m with threadId := some threadId }) (fun _ => rfl)
    (fun _ => ⟨rfl, rfl⟩) rfl

theorem isJob_recordLink : IsJob otherId (recordLink row decision db) id ↔ IsJob otherId db id := by
  unfold recordLink
  split
  · exact isJob_update (p := (·.id == row.id)) (f := fun m =>
      { m with parentMessageId := decision.parentId, threadLinkState := decision.state })
      (fun _ => rfl) (fun _ => ⟨rfl, rfl⟩) rfl
  · rfl

theorem isJob_joinThread {root : ChainRow} {known : Option Uuid} {created : ℕ}
    (h : joinThread accountId root known freshThreadId db = some (threadId, created, db')) :
    IsJob otherId db' id ↔ IsJob otherId db id := by
  unfold joinThread at h
  split at h
  · obtain ⟨-, -, rfl⟩ : _ = threadId ∧ 0 = created ∧ db = db' := by simpa using h
    rfl
  · obtain ⟨threads, -, hassigned⟩ := Option.bind_eq_some_iff.mp h
    obtain ⟨-, -, rfl⟩ : freshThreadId = threadId ∧ 1 = created ∧ _ = db' := by
      simpa using hassigned
    exact isJob_assignThread

theorem isJob_clearDirty (hid : id ≠ messageId) :
    IsJob otherId (clearDirty messageId db) id ↔ IsJob otherId db id := by
  unfold IsJob dirtyRow
  have hsame : findRow otherId id (clearDirty messageId db) = findRow otherId id db := by
    have hupdate : findRow otherId id (clearDirty messageId db) = (findRow otherId id db).map
        fun m => if m.id == messageId then { m with threadDirty := false } else m :=
      findRow_update (fun _ => rfl) (fun _ => rfl) rfl
    rw [hupdate]
    cases hm : findRow otherId id db with
    | none => rfl
    | some m =>
        have hne : m.id ≠ messageId := (findRow_eq_some_iff.mp hm).2.1 ▸ hid
        rw [Option.map_some, if_neg (by simpa using hne)]
  rw [hsame]

/-- What a reconciliation leaves of the rows and of the other jobs. -/
theorem reconcileRow_rows
    (h : reconcileRow accountId messageId freshThreadId db = some (outcome, db')) :
    (∀ otherId id, IsRow otherId db' id ↔ IsRow otherId db id) ∧
      ∀ otherId id, id ≠ messageId → (IsJob otherId db' id ↔ IsJob otherId db id) := by
  rcases reconcileRow_cases h with ⟨-, rfl⟩ |
    ⟨row, decision, threadId, created, joined, hdirty, hdecision, hjoin, rfl⟩
  · exact ⟨fun _ _ => Iff.rfl, fun _ _ _ => Iff.rfl⟩
  obtain ⟨-, rfl, -⟩ := findRow_eq_some_iff.mp (Option.filter_eq_some_iff.mp hdirty).1
  refine ⟨fun otherId id => ?_, fun otherId id hid => ?_⟩
  · rw [isRow_clearDirty]
    exact isRow_assignThread.trans (((joinThread_rows hjoin).1 _ _).trans isRow_recordLink)
  · rw [isJob_clearDirty hid]
    exact isJob_assignThread.trans ((isJob_joinThread hjoin).trans isJob_recordLink)

/-- What a reconciliation leaves of the parents: each is still a row of the same account. -/
theorem Kin.reconcileRow (hkin : Kin db)
    (h : MailHub.reconcileRow accountId messageId freshThreadId db = some (outcome, db')) :
    Kin db' := by
  obtain ⟨hrows, -⟩ := reconcileRow_rows h
  rcases reconcileRow_cases h with ⟨-, rfl⟩ |
    ⟨row, decision, threadId, created, joined, hdirty, hdecision, hjoin, rfl⟩
  · exact hkin
  obtain ⟨hmem, -, rfl⟩ := findRow_eq_some_iff.mp (Option.filter_eq_some_iff.mp hdirty).1
  intro m hm parentId hparent
  obtain ⟨m₁, hm₁, dirty, rfl, -⟩ := of_mem_clearDirty hm
  obtain ⟨m₂, hm₂, thread₁, rfl⟩ := of_mem_assignThread hm₁
  obtain ⟨m₃, hm₃, thread₂, rfl⟩ := of_mem_joinThread hjoin hm₂
  exact (hrows _ _).mpr (isRow_recordLink.mp (hkin.recordLink hmem hdecision m₃ hm₃ parentId hparent))

/-- The thread of a row after a reconciliation is there. -/
theorem stored_reconcileRow (hstored : ∀ m ∈ db.messages, ∀ threadId, m.threadId = some threadId →
      (db.threads.find? threadId).isSome)
    (h : reconcileRow accountId messageId freshThreadId db = some (outcome, db')) :
    ∀ m ∈ db'.messages, ∀ threadId, m.threadId = some threadId →
      (db'.threads.find? threadId).isSome := by
  rcases reconcileRow_cases h with ⟨-, rfl⟩ |
    ⟨row, decision, joinedId, created, joined, hdirty, hdecision, hjoin, rfl⟩
  · exact hstored
  obtain ⟨hmem, rfl, rfl⟩ := findRow_eq_some_iff.mp (Option.filter_eq_some_iff.mp hdirty).1
  -- the rows with their new link carry the threads that they carried
  have hlinked : ∀ m ∈ (recordLink row decision db).messages, ∀ threadId,
      m.threadId = some threadId → (db.threads.find? threadId).isSome := by
    intro m hm threadId hthread
    rcases of_mem_recordLink hmem hm with ⟨hold, -⟩ | rfl
    · exact hstored m hold threadId hthread
    · exact hstored row hmem threadId hthread
  have hthreads : (recordLink row decision db).threads = db.threads := by
    unfold recordLink
    split <;> rfl
  obtain ⟨m₀, hm₀, hchain⟩ := findRow_chainRoot
    (Option.isSome_iff_exists.mp (isRow_recordLink.mpr (isRow_of_mem hmem))).choose_spec
  obtain ⟨hroot, -, -⟩ := findRow_eq_some_iff.mp hm₀
  have hkept : (∀ threadId, (db.threads.find? threadId).isSome →
      (joined.threads.find? threadId).isSome) ∧ (joined.threads.find? joinedId).isSome ∧
      ∀ m ∈ joined.messages, ∀ threadId, m.threadId = some threadId →
        (joined.threads.find? threadId).isSome := by
    unfold joinThread at hjoin
    split at hjoin
    next known hknown =>
      obtain ⟨rfl, -, rfl⟩ : known = joinedId ∧ 0 = created ∧ _ = joined := by simpa using hjoin
      rw [hthreads]
      refine ⟨fun _ h => h, ?_, hlinked⟩
      unfold knownThread at hknown
      dsimp only at hknown
      split at hknown
      · cases hknown
      · rw [hchain] at hknown
        have hsome : m₀.threadId = some known := by
          have hfound : (findRow row.accountId m₀.id (recordLink row decision db)).bind
              (·.threadId) = m₀.threadId := by
            rw [findRow_eq_some_iff.mpr ⟨hroot, rfl, (findRow_eq_some_iff.mp hm₀).2.2⟩]
            rfl
          have hor : m₀.threadId.or ((findRow row.accountId m₀.id
              (recordLink row decision db)).bind (·.threadId)) = some known := hknown
          rw [hfound, Option.or_self] at hor
          exact hor
        exact hlinked m₀ hroot known hsome
    next =>
      obtain ⟨threads, hinsert, hassigned⟩ := Option.bind_eq_some_iff.mp hjoin
      obtain ⟨rfl, -, rfl⟩ : freshThreadId = joinedId ∧ 1 = created ∧ _ = joined := by
        simpa using hassigned
      have hmono : ∀ threadId, (db.threads.find? threadId).isSome →
          (threads.find? threadId).isSome := by
        intro threadId hthread
        obtain ⟨thread, hfound⟩ := Option.isSome_iff_exists.mp hthread
        exact Option.isSome_of_eq_some
          (Table.find?_insert?_of_eq_some hinsert (hthreads ▸ hfound))
      have hnew : (threads.find? freshThreadId).isSome := by
        rw [Table.find?_insert? hinsert]
        exact Option.isSome_of_eq_some (if_pos rfl)
      refine ⟨hmono, hnew, fun m hm threadId hthread => ?_⟩
      obtain ⟨m₁, hm₁, rfl⟩ := List.mem_map.mp hm
      split at hthread
      · obtain rfl := Option.some.inj hthread
        exact hnew
      · exact hmono threadId (hlinked m₁ hm₁ threadId hthread)
  obtain ⟨-, hthere, hrows⟩ := hkept
  intro m hm threadId hthread
  obtain ⟨m₁, hm₁, dirty, rfl, -⟩ := of_mem_clearDirty hm
  obtain ⟨m₂, hm₂, rfl⟩ := List.mem_map.mp hm₁
  have hthread : (if outsideThread row.accountId row.id joinedId joined m₂ then
      some joinedId else m₂.threadId) = some threadId := by
    rw [← hthread]
    split <;> rfl
  split at hthread
  · obtain rfl := Option.some.inj hthread
    exact hthere
  · exact hrows m₂ hm₂ threadId hthread

/-- A reconciliation keeps the threads of its account along the links. -/
theorem Threaded.reconcileRow (hthreaded : Threaded accountId db) (hshallow : Shallow accountId db')
    (h : MailHub.reconcileRow accountId messageId freshThreadId db = some (outcome, db')) :
    Threaded accountId db' := by
  obtain ⟨hrows, hjobs⟩ := reconcileRow_rows h
  have hkin := hthreaded.kin.reconcileRow h
  refine ⟨hkin, stored_reconcileRow hthreaded.stored h, ?_⟩
  by_cases hjob : IsJob accountId db messageId
  swap
  · rcases reconcileRow_cases h with ⟨-, rfl⟩ | ⟨row, -, -, -, -, hdirty, -⟩
    · exact hthreaded.follows
    · exact absurd (Option.isSome_of_eq_some hdirty) hjob
  rcases reconcileRow_links h with ⟨hnone, -⟩ | ⟨row, -, hdirty, -, -, hsame, -⟩
  · unfold IsJob at hjob
    rw [hnone] at hjob
    cases hjob
  have hrow : IsRow accountId db messageId :=
    Option.isSome_of_eq_some (Option.filter_eq_some_iff.mp hdirty).1
  obtain ⟨rootId, threadId, hmoves⟩ := reconcileRow_moves hthreaded.kin hshallow h hjob
  have heq : IsRow accountId db' = IsRow accountId db := funext fun x => propext (hrows _ x)
  rw [heq]
  refine hthreaded.follows.relabel hshallow.acyclic (fun x hx => (hsame x hx).symm) hrow
    (fun p hp => (hrows _ _).mp (hkin.isRow_of_parent hp)) hmoves.root
    (fun x hlead => hmoves.below x hlead ?_) hmoves.top hmoves.rest
    (fun x hx hclean hold => hclean ((hjobs _ x hx).mpr hold)) ?_
  · -- a row whose chain leads to the job is a row
    rcases leads_iff.mp hlead with rfl | ⟨p, hp, -⟩
    · exact hrow
    · obtain ⟨m, hm, -⟩ := Option.bind_eq_some_iff.mp hp
      exact (hrows _ _).mp (Option.isSome_of_eq_some hm)
  · rcases hmoves.source with hknown | ⟨hfresh, hnone⟩
    · exact .inl hknown
    · refine .inr ⟨fun x hx => ?_, hnone⟩
      obtain ⟨m, hm, hthread⟩ := Option.bind_eq_some_iff.mp hx
      have hthere := hthreaded.stored m (findRow_eq_some_iff.mp hm).1 threadId hthread
      rw [hfresh] at hthere
      cases hthere

/-- A reconciliation keeps the threads of other accounts. -/
theorem Threaded.reconcileRow_other (hthreaded : Threaded otherId db) (hother : otherId ≠ accountId)
    (h : MailHub.reconcileRow accountId messageId freshThreadId db = some (outcome, db')) :
    Threaded otherId db' := by
  have hrows := fun id => findRow_reconcileRow id hother h
  refine ⟨hthreaded.kin.reconcileRow h, stored_reconcileRow hthreaded.stored h, ?_⟩
  have hparents : recordedParent otherId db' = recordedParent otherId db := by
    funext id
    unfold recordedParent
    rw [hrows id]
  have hthreads : carriedThread otherId db' = carriedThread otherId db := by
    funext id
    unfold carriedThread
    rw [hrows id]
  have hin : IsRow otherId db' = IsRow otherId db := by
    funext id
    unfold IsRow
    rw [hrows id]
  have hjobs : IsJob otherId db' = IsJob otherId db := by
    funext id
    unfold IsJob dirtyRow
    rw [hrows id]
  rw [hparents, hthreads, hin, hjobs]
  exact hthreaded.follows

end

/-! ## Links at rest name their parents -/

/-- A row that is no job and has a parent names an identifier that the parent holds. -/
def Named (db : Database) : Prop :=
  ∀ m ∈ db.messages, m.threadDirty = false → ∀ parentId, m.parentMessageId = some parentId →
    ∃ identifier ∈ parentIdentifiers m, parentId ∈ holders m.accountId identifier db

/-- New marked rows change nothing. -/
theorem Named.append (h : Named db) {new : List Message}
    (hrows : db'.messages.rows = db.messages.rows ++ new)
    (hnew : ∀ m ∈ new, m.threadDirty = true) : Named db' := by
  have hmem : ∀ m, m ∈ db'.messages ↔ m ∈ db.messages ∨ m ∈ new := by
    intro m
    rw [Table.mem_iff, hrows, List.mem_append, Table.mem_iff]
  intro m hm hclean parentId hparent
  rcases (hmem m).mp hm with hold | hadded
  · obtain ⟨identifier, hnames, hholder⟩ := h m hold hclean parentId hparent
    obtain ⟨row, hrow, hheld⟩ := mem_holders.mp hholder
    exact ⟨identifier, hnames, mem_holders.mpr ⟨row, (hmem row).mpr (.inl hrow), hheld⟩⟩
  · rw [hnew m hadded] at hclean
    cases hclean

/-- Marks change nothing. -/
theorem Named.markDirty (h : Named db) {p : Message → Bool} : Named (MailHub.markDirty p db) := by
  intro m hm hclean parentId hparent
  obtain ⟨m₀, hm₀, rfl⟩ := mem_markDirty.mp hm
  by_cases hp : p m₀
  · rw [if_pos hp] at hclean
    cases hclean
  rw [if_neg hp] at hclean hparent ⊢
  obtain ⟨identifier, hnames, hholder⟩ := h m₀ hm₀ hclean parentId hparent
  refine ⟨identifier, hnames, ?_⟩
  rw [holders_congr heads_markDirty]
  exact hholder

/-- A reconciliation records a link only to a row that holds what the row names. -/
theorem Named.reconcileRow {outcome : Option RowOutcome} (hnamed : Named db)
    (h : MailHub.reconcileRow accountId messageId freshThreadId db = some (outcome, db')) :
    Named db' := by
  rcases reconcileRow_cases h with ⟨-, rfl⟩ |
    ⟨row, decision, threadId, created, joined, hdirty, hdecision, hjoin, rfl⟩
  · exact hnamed
  obtain ⟨hmem, rfl, rfl⟩ := findRow_eq_some_iff.mp (Option.filter_eq_some_iff.mp hdirty).1
  have hheads : heads (clearDirty row.id
      (propagateThread row.accountId row.id threadId joined).2) = heads db := by
    rw [heads_clearDirty]
    exact heads_assignThread.trans ((heads_joinThread hjoin).trans heads_recordLink)
  intro m hm hclean parentId hparent
  obtain ⟨m₁, hm₁, dirty, rfl, hdirty₁⟩ := of_mem_clearDirty hm
  obtain ⟨m₂, hm₂, thread₁, rfl⟩ := of_mem_assignThread hm₁
  obtain ⟨m₃, hm₃, thread₂, rfl⟩ := of_mem_joinThread hjoin hm₂
  have hnames : ∃ identifier ∈ parentIdentifiers m₃,
      parentId ∈ holders m₃.accountId identifier db := by
    rcases of_mem_recordLink hmem hm₃ with ⟨hm₀, hne⟩ | rfl
    · exact hnamed m₃ hm₀ ((hdirty₁ hne).symm.trans hclean) parentId hparent
    · exact holder_of_decision hdecision hparent
  obtain ⟨identifier, hin, hholder⟩ := hnames
  refine ⟨identifier, hin, ?_⟩
  rw [holders_congr hheads]
  exact hholder

section

variable {parsed : ParsedMessage} {derived : DerivedBody} {storageKey sha256 : String}
  {sizeBytes : ℕ} {result : IngestResult}

/-- An original that is applied marks the rows that named what its row held. -/
theorem Named.applyIngested (hnamed : Named db) (hrow : findRow accountId messageId db = some row)
    (h : (MailHub.applyIngested accountId row parsed derived storageKey sha256 sizeBytes).run db =
      .ok (result, db')) : Named db' := by
  obtain ⟨hmem, -, haccount⟩ := findRow_eq_some_iff.mp hrow
  unfold MailHub.applyIngested at h
  simp [markThreadJobsDirty_run] at h
  obtain ⟨-, rfl⟩ := h
  intro m hm hclean parentId hparent
  obtain ⟨m₁, hm₁, rfl⟩ := mem_markDirty.mp hm
  obtain ⟨m₀, hm₀, rfl⟩ := List.mem_map.mp hm₁
  dsimp only at hclean hparent ⊢
  by_cases hmarks : (ThreadJobMarking.mk [row.id] [row.messageId, parsed.messageId]).marks accountId
      (if (m₀.id == row.id) = true then ingestedRow parsed storageKey sha256 sizeBytes m₀ else m₀)
  · rw [if_pos hmarks] at hclean
    cases hclean
  rw [if_neg hmarks] at hclean hparent ⊢
  have hid : m₀.id ≠ row.id := by
    intro hid
    obtain rfl : m₀ = row := Table.eq_of_key_eq hm₀ hmem hid
    rw [if_pos (by simp)] at hmarks
    simp [ThreadJobMarking.marks, ingestedRow, haccount] at hmarks
  rw [if_neg (by simpa using hid)] at hclean hparent hmarks ⊢
  obtain ⟨identifier, hnames, hholder⟩ := hnamed m₀ hm₀ hclean parentId hparent
  obtain ⟨holder, hin, hholderId, hsame, hheld⟩ := mem_holders.mp hholder
  refine ⟨identifier, hnames, ?_⟩
  have hother : holder.id ≠ row.id := by
    intro hself
    obtain rfl : holder = row := Table.eq_of_key_eq hin hmem hself
    refine hmarks (marks_of_mem_parentIdentifiers ?_ (hsame.symm.trans haccount) hnames)
    rw [hheld]
    exact List.mem_cons_self
  refine mem_holders.mpr ⟨_, mem_markDirty.mpr ⟨holder, List.mem_map.mpr ⟨holder, hin,
    if_neg (by simpa using hother)⟩, rfl⟩, ?_⟩
  split
  · exact ⟨hholderId, hsame, hheld⟩
  · exact ⟨hholderId, hsame, hheld⟩

/-- A merge marks the children of the removed row that were at rest. -/
theorem Named.marks_of_child (hnamed : Named db) (hrow : row ∈ db.messages) (hm : m ∈ db.messages)
    (hclean : m.threadDirty = false) (hchild : m.parentMessageId = some row.id) :
    (ThreadJobMarking.mk [survivorId] [row.messageId, parsed.messageId]).marks row.accountId
      (movedRow row.id survivorId m) = true := by
  obtain ⟨identifier, hnames, hholder⟩ := hnamed m hm hclean row.id hchild
  obtain ⟨holder, hin, hholderId, hsame, hheld⟩ := mem_holders.mp hholder
  obtain rfl : holder = row := Table.eq_of_key_eq hin hrow hholderId
  have hmarked : some identifier ∈ [holder.messageId, parsed.messageId] := by
    rw [hheld]
    exact List.mem_cons_self
  refine marks_of_mem_parentIdentifiers hmarked ?_ ?_
  · rw [movedRow_accountId]
    exact hsame.symm
  · rw [parentIdentifiers_movedRow]
    exact hnames

/-- A merge marks the rows that named what the removed row held. -/
theorem Named.afterMerge (hnamed : Named db) (hrow : findRow accountId messageId db = some row) :
    Named (MailHub.afterMerge accountId row survivorId parsed now db) := by
  obtain ⟨hmem, -, haccount⟩ := findRow_eq_some_iff.mp hrow
  intro m hm hclean parentId hparent
  obtain ⟨m₁, hm₁, hmarked⟩ := mem_markDirty.mp hm
  obtain ⟨hmoved, hid⟩ := Table.mem_delete.mp hm₁
  rw [Table.mem_iff, messages_moveReferences] at hmoved
  obtain ⟨m₀, hm₀, rfl⟩ := List.mem_map.mp hmoved
  by_cases hmarks : (ThreadJobMarking.mk [survivorId] [row.messageId, parsed.messageId]).marks
      accountId (movedRow row.id survivorId m₀)
  · rw [if_pos hmarks] at hmarked
    rw [← hmarked] at hclean
    cases hclean
  rw [if_neg hmarks] at hmarked
  have hclean₀ : m₀.threadDirty = false := by
    rw [← hmarked] at hclean
    exact (movedRow_threadDirty m₀).symm.trans hclean
  have hchild : m₀.parentMessageId ≠ some row.id := fun hchild =>
    hmarks (haccount ▸ hnamed.marks_of_child hmem hm₀ hclean₀ hchild)
  rw [movedRow_eq_self hchild] at hmarked
  subst hmarked
  obtain ⟨identifier, hnames, hholder⟩ := hnamed m₀ hm₀ hclean₀ parentId hparent
  obtain ⟨holder, hin, hholderId, hsame, hheld⟩ := mem_holders.mp hholder
  have hother : holder.id ≠ row.id := by
    rintro hself
    rw [hparent, ← hholderId, hself] at hchild
    exact hchild rfl
  obtain ⟨dirty, hstays⟩ : ∃ threadDirty, { movedRow row.id survivorId holder with threadDirty } ∈
      (MailHub.afterMerge accountId row survivorId parsed now db).messages :=
    mem_afterMerge hin hother
  refine ⟨identifier, hnames, mem_holders.mpr ⟨_, hstays, ?_, ?_, ?_⟩⟩
  · exact (movedRow_id holder).trans hholderId
  · exact (movedRow_accountId holder).trans hsame
  · exact (movedRow_messageId holder).trans hheld

/-! ## Originals -/

/-- An original that is applied keeps the threads. -/
theorem Threaded.applyIngested (hthreaded : Threaded otherId db)
    (h : (MailHub.applyIngested accountId row parsed derived storageKey sha256 sizeBytes).run db =
      .ok (result, db')) : Threaded otherId db' := by
  unfold MailHub.applyIngested at h
  simp [markThreadJobsDirty_run] at h
  obtain ⟨-, rfl⟩ := h
  have hingested : Threaded otherId { db with
      messages := db.messages.update (·.id == row.id)
        (ingestedRow parsed storageKey sha256 sizeBytes) fun _ => rfl } :=
    hthreaded.update (p := (·.id == row.id)) (f := ingestedRow parsed storageKey sha256 sizeBytes)
      (fun _ => rfl) (fun _ => ⟨rfl, rfl, rfl, id⟩) rfl fun _ hthread => hthread
  exact hingested.update (p := (ThreadJobMarking.mk [row.id]
    [row.messageId, parsed.messageId]).marks accountId) (f := fun m => { m with threadDirty := true })
    (fun _ => rfl) (fun _ => ⟨rfl, rfl, rfl, fun _ => rfl⟩) rfl fun _ hthread => hthread

/-- Whether the survivor of the merge that an original brings, if any, leaves no other root with its
thread when it loses its parent. -/
def DetachesAlone (accountId messageId : Uuid) (sha256 : String) (db : Database) : Prop :=
  ∀ survivor, findDuplicate accountId messageId sha256 db = some survivor →
    survivor.parentMessageId = some messageId → ∀ m ∈ db.messages, m.accountId = accountId →
      m.id ≠ messageId → m.parentMessageId = none → m.threadId = survivor.threadId →
        survivor.threadId = none

theorem isRow_afterMerge {provisional : Message} :
    IsRow otherId (afterMerge accountId provisional survivorId parsed now db) id ↔
      IsRow otherId db id ∧ id ≠ provisional.id := by
  rw [isRow_iff, isRow_iff]
  constructor
  · rintro ⟨m, hm, rfl, rfl⟩
    obtain ⟨m₀, hm₀, hid, dirty, rfl⟩ := of_mem_afterMerge hm
    exact ⟨⟨m₀, hm₀, (movedRow_id m₀).symm, (movedRow_accountId m₀).symm⟩,
      fun h => hid ((movedRow_id m₀).symm.trans h)⟩
  · rintro ⟨⟨m, hm, rfl, rfl⟩, hid⟩
    obtain ⟨dirty, hin⟩ : ∃ threadDirty, { movedRow provisional.id survivorId m with threadDirty } ∈
        (afterMerge accountId provisional survivorId parsed now db).messages := mem_afterMerge hm hid
    exact ⟨_, hin, movedRow_id m, movedRow_accountId m⟩

@[simp] theorem movedRow_threadId {removedId : Uuid} (m : Message) :
    (movedRow removedId survivorId m).threadId = m.threadId := by
  unfold movedRow
  dsimp only
  split <;> split <;> rfl

/-- A merge leaves the threads of the rows that stay. -/
theorem carriedThread_afterMerge {provisional : Message} :
    carriedThread otherId (afterMerge accountId provisional survivorId parsed now db) id =
      if id = provisional.id then none else carriedThread otherId db id := by
  have hnone : ∀ {db : Database}, ¬ IsRow otherId db id → carriedThread otherId db id = none := by
    intro db hrow
    unfold carriedThread
    unfold IsRow at hrow
    rw [Option.not_isSome_iff_eq_none.mp hrow]
    rfl
  by_cases hid : id = provisional.id
  · rw [if_pos hid]
    exact hnone fun hrow => (isRow_afterMerge.mp hrow).2 hid
  rw [if_neg hid]
  by_cases hrow : IsRow otherId db id
  · obtain ⟨m, hm, rfl, rfl⟩ := isRow_iff.mp hrow
    obtain ⟨dirty, hin⟩ : ∃ threadDirty, { movedRow provisional.id survivorId m with threadDirty } ∈
        (afterMerge accountId provisional survivorId parsed now db).messages := mem_afterMerge hm hid
    have hcarried := carriedThread_of_mem hin
    simp only [movedRow_id, movedRow_accountId, movedRow_threadId] at hcarried
    rw [hcarried, carriedThread_of_mem hm]
  · rw [hnone hrow, hnone fun hrow' => hrow (isRow_afterMerge.mp hrow').1]

/-- The jobs that a merge keeps and those that it makes. -/
theorem isJob_afterMerge {provisional : Message} (hm : m ∈ db.messages) (hid : m.id ≠ provisional.id)
    (hjob : m.threadDirty = true ∨
      (ThreadJobMarking.mk [survivorId] [provisional.messageId, parsed.messageId]).marks accountId
        (movedRow provisional.id survivorId m) = true) :
    IsJob m.accountId (afterMerge accountId provisional survivorId parsed now db) m.id := by
  have hkept : movedRow provisional.id survivorId m ∈ (removeMessage provisional.id
      (moveReferences provisional.id survivorId now db)).messages := by
    refine Table.mem_delete.mpr ⟨?_, by simpa using hid⟩
    rw [Table.mem_iff, messages_moveReferences]
    exact List.mem_map_of_mem hm
  refine isJob_iff.mpr ⟨_, mem_markDirty.mpr ⟨_, hkept, rfl⟩, ?_⟩
  split
  · exact ⟨movedRow_id m, movedRow_accountId m, rfl⟩
  next hmarks =>
    refine ⟨movedRow_id m, movedRow_accountId m, ?_⟩
    rw [movedRow_threadDirty]
    exact hjob.resolve_right hmarks

/-- A merge leaves the parents rows of the same account. -/
theorem Kin.afterMerge (hkin : Kin db) (hrow : row ∈ db.messages) {survivor : Message}
    (hsurvivor : survivor ∈ db.messages) (hsame : survivor.accountId = row.accountId)
    (hne : survivor.id ≠ row.id) :
    Kin (MailHub.afterMerge accountId row survivor.id parsed now db) := by
  intro m hm parentId hparent
  obtain ⟨m₀, hm₀, hid, dirty, rfl⟩ := of_mem_afterMerge hm
  have hparent : (movedRow row.id survivor.id m₀).parentMessageId = some parentId := hparent
  have haccount : (movedRow row.id survivor.id m₀).accountId = m₀.accountId := movedRow_accountId m₀
  dsimp only
  rw [haccount, isRow_afterMerge]
  rw [movedRow_parentMessageId] at hparent
  split at hparent
  next hchild =>
    split at hparent
    next => cases hparent
    next =>
      obtain rfl := Option.some.inj hparent
      obtain ⟨p, hp, hpid, hpaccount⟩ := isRow_iff.mp (hkin m₀ hm₀ row.id hchild)
      obtain rfl : p = row := Table.eq_of_key_eq hp hrow hpid
      exact ⟨isRow_iff.mpr ⟨survivor, hsurvivor, rfl, hsame.trans hpaccount⟩, hne⟩
  next hother =>
    refine ⟨hkin m₀ hm₀ parentId hparent, ?_⟩
    rintro rfl
    exact hother hparent

/-- A merge keeps the threads along the links. -/
theorem Threaded.afterMerge (hthreaded : Threaded otherId db) (hnamed : Named db)
    (hrow : row ∈ db.messages) {survivor : Message} (hsurvivor : survivor ∈ db.messages)
    (hsame : survivor.accountId = row.accountId) (hne : survivor.id ≠ row.id)
    (hdetached : otherId = row.accountId → survivor.parentMessageId = some row.id →
      ∀ m ∈ db.messages, m.accountId = row.accountId → m.id ≠ row.id → m.parentMessageId = none →
        m.threadId = survivor.threadId → survivor.threadId = none) :
    Threaded otherId (MailHub.afterMerge row.accountId row survivor.id parsed now db) := by
  refine ⟨hthreaded.kin.afterMerge hrow hsurvivor hsame hne, fun m hm threadId hthread => ?_, ?_⟩
  · obtain ⟨m₀, hm₀, hid, dirty, rfl⟩ := of_mem_afterMerge hm
    exact hthreaded.stored m₀ hm₀ threadId ((movedRow_threadId m₀).symm.trans hthread)
  have hjobs : ∀ x, x ≠ row.id → IsJob otherId db x →
      IsJob otherId (MailHub.afterMerge row.accountId row survivor.id parsed now db) x := by
    intro x hx hjob
    obtain ⟨m, hm, rfl, rfl, hdirty⟩ := isJob_iff.mp hjob
    exact isJob_afterMerge hm hx (.inl hdirty)
  rw [recordedParent_afterMerge]
  by_cases hown : otherId = row.accountId
  · subst hown
    refine hthreaded.follows.contract (isRow_iff.mpr ⟨survivor, hsurvivor, rfl, hsame⟩) hne
      (fun x => isRow_afterMerge) (fun x hx => carriedThread_afterMerge.trans (if_neg hx))
      (carriedThread_afterMerge.trans (if_pos rfl)) (fun x hx hmoved => ?_)
      fun hchild q t hq hroot hthread hshared => ?_
    · rcases hmoved with hjob | hchild | rfl
      · exact hjobs x hx hjob
      · obtain ⟨m, hm, hparent⟩ := Option.bind_eq_some_iff.mp hchild
        obtain ⟨hmem, rfl, haccount⟩ := findRow_eq_some_iff.mp hm
        rw [← haccount]
        refine isJob_afterMerge hmem hx ?_
        by_cases hdirty : m.threadDirty = true
        · exact .inl hdirty
        · rw [haccount]
          exact .inr (hnamed.marks_of_child hrow hmem (Bool.eq_false_iff.mpr hdirty) hparent)
      · rw [← hsame]
        refine isJob_afterMerge hsurvivor hne (.inr ?_)
        simp [ThreadJobMarking.marks, hsame]
    · obtain ⟨m, hm, hmthread⟩ := Option.bind_eq_some_iff.mp hthread
      obtain ⟨hmem, rfl, haccount⟩ := findRow_eq_some_iff.mp hm
      rw [← haccount, recordedParent_of_mem hmem] at hroot
      rw [← hsame, recordedParent_of_mem hsurvivor] at hchild
      rw [← hsame, carriedThread_of_mem hsurvivor] at hshared
      have hnone := hdetached rfl hchild m hmem haccount hq hroot (hmthread.trans hshared.symm)
      rw [hshared] at hnone
      cases hnone
  · -- the rows of another account are not concerned
    have hnoRow : ∀ x, IsRow otherId db x → x ≠ row.id := by
      rintro x hx rfl
      obtain ⟨m, hm, hid, haccount⟩ := isRow_iff.mp hx
      obtain rfl : m = row := Table.eq_of_key_eq hm hrow hid
      exact hown haccount.symm
    have hparents : contract (recordedParent otherId db) row.id survivor.id =
        recordedParent otherId db := by
      funext x
      by_cases hx : x = row.id
      · subst hx
        have hnone : findRow otherId row.id db = none := by
          rw [← Option.not_isSome_iff_eq_none]
          exact fun hsome => hnoRow row.id hsome rfl
        unfold contract recordedParent
        rw [if_pos rfl, hnone]
        rfl
      · refine contract_of_ne hx fun hchild => ?_
        exact hnoRow row.id (hthreaded.kin.isRow_of_parent hchild) rfl
    rw [hparents]
    have hthreads : carriedThread otherId
        (MailHub.afterMerge row.accountId row survivor.id parsed now db) =
        carriedThread otherId db := by
      funext x
      rw [carriedThread_afterMerge]
      split
      next hx =>
        subst hx
        unfold carriedThread
        have hnone : findRow otherId row.id db = none := by
          rw [← Option.not_isSome_iff_eq_none]
          exact fun hsome => hnoRow row.id hsome rfl
        rw [hnone]
        rfl
      next => rfl
    rw [hthreads]
    refine hthreaded.follows.mark (fun x hjob => ?_) (fun x hx => ?_) fun x hx _ =>
      (isRow_afterMerge.mp hx).1
    · refine hjobs x ?_ hjob
      obtain ⟨m, hm, hid, haccount, -⟩ := isJob_iff.mp hjob
      exact hnoRow x (isRow_iff.mpr ⟨m, hm, hid, haccount⟩)
    · exact isRow_afterMerge.mpr ⟨hx, hnoRow x hx⟩

/-- The transaction of a parsed original keeps the threads when its merge detaches its survivor
alone. -/
theorem Threaded.commitOriginal (hthreaded : Threaded otherId db) (hnamed : Named db)
    (hdetached : otherId = accountId → DetachesAlone accountId messageId sha256 db)
    (h : (MailHub.commitOriginal accountId messageId parsed derived storageKey sha256 sizeBytes
      now).run db = .ok (result, db')) : Threaded otherId db' ∧ Named db' := by
  obtain ⟨row, hrow⟩ : ∃ row, findRow accountId messageId db = some row := by
    unfold MailHub.commitOriginal at h
    rw [StateT.run_bind] at h
    obtain ⟨⟨row, db₁⟩, hlock, -⟩ := bind_eq_ok.mp h
    exact ⟨row, (lockMessage_ok.mp hlock).1⟩
  rw [commitOriginal_run hrow] at h
  cases hduplicate : findDuplicate accountId messageId sha256 db with
  | none =>
      rw [hduplicate] at h
      exact ⟨hthreaded.applyIngested h, hnamed.applyIngested hrow h⟩
  | some survivor =>
      rw [hduplicate] at h
      obtain ⟨-, rfl⟩ := mergeDuplicate_ok h
      obtain ⟨hmem, haccount, -, hne⟩ := findDuplicate_eq_some hduplicate
      refine ⟨?_, hnamed.afterMerge hrow⟩
      obtain ⟨hin, rfl, rfl⟩ := findRow_eq_some_iff.mp hrow
      exact hthreaded.afterMerge hnamed hin hmem haccount hne
        fun hown => hdetached hown survivor hduplicate

end

/-! ## Imports -/

section

variable {parseHeaderBlock : Bytes → ImportedHeaders} {folderId : Uuid} {uidvalidity : ℕ}

/-- A transaction that keeps the threads of an account along the links. -/
def KeepsThreaded (accountId : Uuid) (db db' : Database) : Prop :=
  Threaded accountId db ∧ Named db → Threaded accountId db' ∧ Named db'

instance : Std.Refl (KeepsThreaded accountId) := ⟨fun _ h => h⟩

instance : IsTrans Database (KeepsThreaded accountId) := ⟨fun _ _ _ h h' => h' ∘ h⟩

/-- An import keeps the threads. -/
theorem keepsThreaded_importWindow {records : List (ImportIds × MailboxHeaders)} (db : Database) :
    Steps (KeepsThreaded otherId) db
      (importWindow parseHeaderBlock accountId folderId uidvalidity records) := by
  refine steps_importWindow (fun db ids header record messages _ hinsert hkept => ?_)
    (fun db events hkept => ?_) (fun db marking hkept => ⟨hkept.1.markDirty, hkept.2.markDirty⟩) db
  · have hrows := Table.rows_of_insert? hinsert
    refine ⟨hkept.1.append hrows ?_ rfl (sameParents_insert hinsert rfl),
      hkept.2.append hrows ?_⟩
    · rintro m (_ | ⟨_, hm⟩)
      · exact ⟨rfl, rfl, rfl⟩
      · cases hm
    · rintro m (_ | ⟨_, hm⟩)
      · rfl
      · cases hm
  · exact ⟨hkept.1.update (p := fun _ => false) (f := id) (fun _ => rfl)
      (fun _ => ⟨rfl, rfl, rfl, id⟩) (Table.update_eq_self fun _ _ => rfl).symm
      fun _ hthread => hthread, hkept.2⟩

end

/-! ## Runs -/

/-- Whether the chains of an account are shallow before a transaction, and the merge that it brings,
if any, detaches its survivor alone. -/
def LinkEvent.Detached (accountId : Uuid) (e : LinkEvent) (db : Database) : Prop :=
  Shallow accountId db ∧
    match e with
    | .commitOriginal ownId messageId _ _ _ sha256 _ _ =>
        ownId = accountId → DetachesAlone ownId messageId sha256 db
    | _ => True

variable {parseHeaderBlock : Bytes → ImportedHeaders} {db₀ : Database}

/-- A transaction keeps the threads. -/
theorem Threaded.step {e : LinkEvent} (hthreaded : Threaded accountId db) (hnamed : Named db)
    (hdetached : e.Detached accountId db) (hshallow : Shallow accountId db')
    (hstep : LinkStep parseHeaderBlock e db db') : Threaded accountId db' ∧ Named db' := by
  cases hstep with
  | imported h => exact (keepsThreaded_importWindow db).step _ _ h ⟨hthreaded, hnamed⟩
  | committed h => exact hthreaded.commitOriginal hnamed (fun hown => hdetached.2 hown.symm) h
  | @reconciled ownId _ _ _ _ _ h =>
      refine ⟨?_, hnamed.reconcileRow h⟩
      by_cases hown : accountId = ownId
      · subst hown
        exact hthreaded.reconcileRow hshallow h
      · exact hthreaded.reconcileRow_other hown h

/-- Runs keep the threads. -/
theorem LinkRun.threaded (h₀ : Threaded accountId db₀) (hnamed₀ : Named db₀)
    (h : LinkRun parseHeaderBlock (LinkEvent.Detached accountId) db₀ db)
    (hshallow : Shallow accountId db) : Threaded accountId db ∧ Named db := by
  induction h with
  | start => exact ⟨h₀, hnamed₀⟩
  | next _ hdetached hstep ih =>
      obtain ⟨hthreaded, hnamed⟩ := ih hdetached.1
      exact hthreaded.step hnamed hdetached hshallow hstep

/-- There are no threads in an empty database. -/
theorem threaded_empty : Threaded accountId Database.empty where
  kin m hm := (List.not_mem_nil hm).elim
  stored m hm := (List.not_mem_nil hm).elim
  follows :=
    { closed := fun hparent => by cases hparent
      child := fun hparent => by cases hparent
      roots := fun _ _ hthread => by cases hthread
      labelled := fun hrow => by cases hrow }

theorem not_isJob (hrest : ∀ m ∈ db.messages, m.accountId = accountId →
      m.threadDirty = false) (id : Uuid) : ¬ IsJob accountId db id := by
  intro hjob
  obtain ⟨m, hm, -, haccount, hdirty⟩ := isJob_iff.mp hjob
  rw [hrest m hm haccount] at hdirty
  cases hdirty

theorem Shallow.exists_rootOf (h : Shallow accountId db) (id : Uuid) :
    ∃ rootId, RootOf (recordedParent accountId db) id rootId := by
  obtain ⟨k, -, rootId, hup, hnone⟩ := exists_root h id
  exact ⟨rootId, ⟨k, hup⟩, hnone⟩

/-- Two rows at rest are in the same thread exactly when their chains end in the same root. -/
theorem Threaded.same_thread_iff (hthreaded : Threaded accountId db) (hshallow : Shallow accountId db)
    (hrest : ∀ m ∈ db.messages, m.accountId = accountId → m.threadDirty = false)
    (hm : m ∈ db.messages) (haccount : m.accountId = accountId) (hm' : m' ∈ db.messages)
    (haccount' : m'.accountId = accountId) : m.threadId = m'.threadId ↔
      ∃ rootId, RootOf (recordedParent accountId db) m.id rootId ∧
        RootOf (recordedParent accountId db) m'.id rootId := by
  subst haccount
  have hthread' : carriedThread m.accountId db m'.id = m'.threadId :=
    haccount' ▸ carriedThread_of_mem hm'
  obtain ⟨rootId, hroot⟩ := hshallow.exists_rootOf m.id
  obtain ⟨rootId', hroot'⟩ := hshallow.exists_rootOf m'.id
  have hlabels := hthreaded.follows.same_label_iff (not_isJob hrest) (isRow_of_mem hm)
    hroot hroot'
  rw [carriedThread_of_mem hm, hthread'] at hlabels
  rw [hlabels]
  constructor
  · rintro rfl
    exact ⟨rootId, hroot, hroot'⟩
  · rintro ⟨sharedId, hshared, hshared'⟩
    exact (hroot.unique hshared).trans (hshared'.unique hroot')

/-- Thread membership. In every run in which the chains of an account stay shallow and every merge
that detaches its survivor detaches it alone, once no row of the account is marked, each row has a
thread, each chain ends in a root, and two rows are in the same thread exactly when their chains end
in the same root. -/
theorem threads_at_rest (h₀ : Threaded accountId db₀) (hnamed₀ : Named db₀)
    (hrun : LinkRun parseHeaderBlock (LinkEvent.Detached accountId) db₀ db)
    (hshallow : Shallow accountId db)
    (hrest : ∀ m ∈ db.messages, m.accountId = accountId → m.threadDirty = false) :
    ∀ m ∈ db.messages, m.accountId = accountId → m.threadId.isSome ∧
      (∃ rootId, RootOf (recordedParent accountId db) m.id rootId) ∧
      ∀ m' ∈ db.messages, m'.accountId = accountId → (m.threadId = m'.threadId ↔
        ∃ rootId, RootOf (recordedParent accountId db) m.id rootId ∧
          RootOf (recordedParent accountId db) m'.id rootId) := by
  obtain ⟨hthreaded, -⟩ := hrun.threaded h₀ hnamed₀ hshallow
  intro m hm haccount
  have hsome := hthreaded.follows.labelled (haccount ▸ isRow_of_mem hm)
    (not_isJob hrest m.id)
  rw [← haccount, carriedThread_of_mem hm] at hsome
  exact ⟨Option.isSome_iff_ne_none.mpr hsome, hshallow.exists_rootOf m.id, fun m' hm' haccount' =>
    hthreaded.same_thread_iff hshallow hrest hm haccount hm' haccount'⟩

/-- Chains of two rows are shallow. -/
theorem shallow_of_flat (hflat : ∀ m ∈ db.messages, m.accountId = accountId →
      m.parentMessageId.bind (recordedParent accountId db) = none) : Shallow accountId db := by
  intro id
  have htwo : ancestor (recordedParent accountId db) 2 id = none := by
    rw [ancestor_succ]
    cases hparent : recordedParent accountId db id with
    | none => rfl
    | some parentId =>
        obtain ⟨m, hm, hmp⟩ := Option.bind_eq_some_iff.mp hparent
        obtain ⟨hmem, -, haccount⟩ := findRow_eq_some_iff.mp hm
        have hnone := hflat m hmem haccount
        rw [hmp, Option.bind_some] at hnone
        rw [Option.bind_some, ancestor_succ, hnone]
        rfl
  have hdepth : maxChainDepth = 2 + 998 := rfl
  rw [hdepth, ancestor_add, htwo]
  rfl

/-- A message and its reply end in one thread, and both follow their links. -/
theorem threads_at_rest_sample :
    carriedThread 1 (reconciledBy 1 1 10 samplePairReplied) 2 =
        carriedThread 1 (reconciledBy 1 1 10 samplePairReplied) 1 ∧
      ∀ m ∈ (reconciledBy 1 1 10 samplePairReplied).messages, m.accountId = 1 → m.threadId.isSome := by
  have hempty : Shallow 1 Database.empty :=
    shallow_of_flat fun m hm => (List.not_mem_nil hm).elim
  have hadded : Shallow 1 samplePairAdded := by
    have hflat : ∀ m ∈ samplePairAdded.messages.rows, m.accountId = 1 →
        m.parentMessageId.bind (recordedParent 1 samplePairAdded) = none := by decide +kernel
    exact shallow_of_flat hflat
  have hreplied : Shallow 1 samplePairReplied := by
    have hflat : ∀ m ∈ samplePairReplied.messages.rows, m.accountId = 1 →
        m.parentMessageId.bind (recordedParent 1 samplePairReplied) = none := by decide +kernel
    exact shallow_of_flat hflat
  have hlast : Shallow 1 (reconciledBy 1 1 10 samplePairReplied) := by
    have hflat : ∀ m ∈ (reconciledBy 1 1 10 samplePairReplied).messages.rows, m.accountId = 1 →
        m.parentMessageId.bind (recordedParent 1 (reconciledBy 1 1 10 samplePairReplied)) = none := by
      decide +kernel
    exact shallow_of_flat hflat
  have hrun : LinkRun sampleHeaders (LinkEvent.Detached 1) Database.empty
      (reconciledBy 1 1 10 samplePairReplied) :=
    ((LinkRun.start.imports ⟨hempty, trivial⟩ (by decide +kernel)).reconciles ⟨hadded, trivial⟩
      (by decide +kernel)).reconciles ⟨hreplied, trivial⟩ (by decide +kernel)
  have hrest : ∀ m ∈ (reconciledBy 1 1 10 samplePairReplied).messages.rows,
      m.threadDirty = false := by
    decide +kernel
  refine ⟨by decide +kernel, fun m hm haccount => ?_⟩
  exact (threads_at_rest threaded_empty (fun m hm => (List.not_mem_nil hm).elim) hrun hlast
    (fun m hm _ => hrest m hm) m hm haccount).1

end MailHub
