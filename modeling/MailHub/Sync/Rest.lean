import MailHub.Sync.Filing

/-!
# Links at rest

The link of a row follows from its references and the rows that hold the identifier it names, and
every transaction that changes these marks the row. It also depends on the links above the holder,
when they come back to the row, and nothing marks the row when one of these goes. The main result is
that without such returns the links of all rows at rest are the ones that would be decided now.
-/

namespace MailHub

open Relational Ordering Interleaving

variable {accountId messageId survivorId freshThreadId id : Uuid} {identifier : String}
  {now : Instant} {db db' : Database} {m m' row : Message}

/-! ## Holders -/

/-- What the holders of an identifier depend on. -/
structure Head where
  id : Uuid
  accountId : Uuid
  messageId : Option String

/-- The head of one message row. -/
def Message.head (m : Message) : Head := ⟨m.id, m.accountId, m.messageId⟩

/-- The heads of a database. -/
def heads (db : Database) : List Head := db.messages.rows.map Message.head

/-- Holders are read off the heads. -/
theorem holders_eq : holders accountId identifier db =
    ((heads db).filter fun h => h.accountId == accountId && h.messageId == some identifier).map
      (·.id) := by
  unfold holders heads Table.select
  rw [List.filter_map, List.map_map]
  rfl

theorem holders_congr (h : heads db' = heads db) :
    holders accountId identifier db' = holders accountId identifier db := by
  rw [holders_eq, holders_eq, h]

theorem mem_holders : id ∈ holders accountId identifier db ↔
    ∃ m ∈ db.messages, m.id = id ∧ m.accountId = accountId ∧ m.messageId = some identifier := by
  unfold holders
  rw [List.mem_map]
  refine exists_congr fun m => ?_
  rw [Table.mem_select, Bool.and_eq_true, beq_iff_eq, beq_iff_eq]
  tauto

/-- An update of message rows that leaves their heads alone. -/
theorem heads_update {p : Message → Bool} {f : Message → Message}
    (hf : ∀ m, Keyed.key (f m) = Keyed.key m) (hsame : ∀ m, (f m).head = m.head)
    (hdb : db'.messages = db.messages.update p f hf) : heads db' = heads db := by
  unfold heads
  rw [hdb]
  unfold Table.update
  rw [List.map_map]
  refine List.map_congr_left fun m _ => ?_
  rw [Function.comp_apply]
  split
  · exact hsame m
  · rfl

/-- Rewriting rows keeps the holders when it keeps identifiers and who holds. -/
theorem holders_map {f : Message → Message} (hdb : db'.messages.rows = db.messages.rows.map f)
    (hid : ∀ m, (f m).id = m.id) (hsame : ∀ m ∈ db.messages,
      ((f m).accountId = accountId ∧ (f m).messageId = some identifier ↔
        m.accountId = accountId ∧ m.messageId = some identifier)) :
    holders accountId identifier db' = holders accountId identifier db := by
  have hfilter : db.messages.rows.filter ((fun m => m.accountId == accountId &&
      m.messageId == some identifier) ∘ f) = db.messages.rows.filter fun m =>
        m.accountId == accountId && m.messageId == some identifier := by
    refine List.filter_congr fun m hm => ?_
    rw [Bool.eq_iff_iff]
    simpa using hsame m hm
  unfold holders Table.select
  rw [hdb, List.filter_map, hfilter, List.map_map]
  exact List.map_congr_left fun m _ => hid m

/-- Deleting rows keeps the holders when none of them is deleted. -/
theorem holders_filter {q : Message → Bool} (hdb : db'.messages.rows = db.messages.rows.filter q)
    (hkept : ∀ m ∈ db.messages, m.accountId = accountId → m.messageId = some identifier →
      q m = true) : holders accountId identifier db' = holders accountId identifier db := by
  unfold holders Table.select
  rw [hdb, List.filter_filter]
  congr 1
  refine List.filter_congr fun m hm => ?_
  rw [Bool.eq_iff_iff]
  simp only [Bool.and_eq_true, beq_iff_eq]
  constructor
  · exact fun h => h.1
  · exact fun h => ⟨h, hkept m hm h.1 h.2⟩

@[simp] theorem heads_assignThread {p : Message → Bool} {threadId : Uuid} :
    heads (assignThread p threadId db) = heads db :=
  heads_update (p := p) (f := fun m => { m with threadId := some threadId }) (fun _ => rfl)
    (fun _ => rfl) rfl

@[simp] theorem heads_clearDirty : heads (clearDirty id db) = heads db :=
  heads_update (p := (·.id == id)) (f := fun m => { m with threadDirty := false }) (fun _ => rfl)
    (fun _ => rfl) rfl

@[simp] theorem heads_markDirty {p : Message → Bool} : heads (markDirty p db) = heads db :=
  heads_update (p := p) (f := fun m => { m with threadDirty := true }) (fun _ => rfl)
    (fun _ => rfl) rfl

/-! ## Decisions by the holders -/

/-- The link of a row by the holders of the identifier that it names. -/
def holderDecision (row : Message) (db : Database) : LinkDecision :=
  match resolveParentReference row.inReplyTo row.referenceIds with
  | .root => .root
  | .conflicted => .ambiguous
  | .candidate identifier =>
      if row.messageId = some identifier then .ambiguous
      else
        match holders row.accountId identifier db with
        | [] => .pending
        | [parentId] => if parentId = row.id then .ambiguous else .linked parentId
        | _ => .ambiguous

/-- The row named by its holder decision holds an identifier that the row depends on. -/
theorem holder_of_linked {parentId : Uuid} (h : holderDecision row db = .linked parentId) :
    ∃ identifier ∈ parentIdentifiers row, parentId ∈ holders row.accountId identifier db := by
  unfold holderDecision at h
  unfold parentIdentifiers
  cases hreference : resolveParentReference row.inReplyTo row.referenceIds with
  | root =>
      rw [hreference] at h
      cases h
  | conflicted =>
      rw [hreference] at h
      cases h
  | candidate identifier =>
      rw [hreference] at h
      refine ⟨identifier, List.mem_singleton_self _, ?_⟩
      dsimp only at h
      split at h
      next => cases h
      next =>
        split at h
        next => cases h
        next holder hholders =>
          split at h
          next => cases h
          next =>
            obtain rfl : holder = parentId := by simpa using h
            rw [hholders]
            exact List.mem_singleton_self _
        next => cases h

/-- The holder decision of a row depends on its own columns and on the holders of what it names. -/
theorem holderDecision_congr (hrow : m'.id = m.id ∧ m'.accountId = m.accountId ∧
      m'.messageId = m.messageId ∧ m'.inReplyTo = m.inReplyTo ∧ m'.referenceIds = m.referenceIds)
    (hholders : ∀ identifier ∈ parentIdentifiers m,
      holders m.accountId identifier db' = holders m.accountId identifier db) :
    holderDecision m' db' = holderDecision m db := by
  obtain ⟨hid, haccount, hmessage, hreply, hreferences⟩ := hrow
  unfold holderDecision
  unfold parentIdentifiers at hholders
  rw [hid, haccount, hmessage, hreply, hreferences]
  cases hreference : resolveParentReference m.inReplyTo m.referenceIds with
  | root => rfl
  | conflicted => rfl
  | candidate identifier =>
      rw [hreference] at hholders
      dsimp only
      rw [hholders identifier (List.mem_singleton_self _)]

/-- A link is decided by the holders, and then the walk from the holder has the last word. -/
theorem decideLink_eq : decideLink row.accountId row db =
    match holderDecision row db with
    | .linked parentId => (chainReaches row.accountId parentId row.id db).map fun reaches =>
        if reaches then .ambiguous else .linked parentId
    | decision => some decision := by
  unfold decideLink holderDecision
  cases resolveParentReference row.inReplyTo row.referenceIds with
  | root => rfl
  | conflicted => rfl
  | candidate identifier =>
      dsimp only
      by_cases hself : row.messageId = some identifier
      · simp only [hself, if_true]
      · simp only [hself, if_false]
        cases holders row.accountId identifier db with
        | nil => rfl
        | cons parentId rest =>
            cases rest with
            | cons second rest => rfl
            | nil => by_cases hid : parentId = row.id <;> simp [hid]

/-- The decision of a row depends on its columns, the holders of what it names, and the walk from
the holder. -/
theorem decideLink_congr (hrow : m'.id = m.id ∧ m'.accountId = m.accountId ∧
      m'.messageId = m.messageId ∧ m'.inReplyTo = m.inReplyTo ∧ m'.referenceIds = m.referenceIds)
    (hholders : ∀ identifier ∈ parentIdentifiers m,
      holders m.accountId identifier db' = holders m.accountId identifier db)
    (hwalk : ∀ parentId, holderDecision m db = .linked parentId →
      chainReaches m.accountId parentId m.id db' = chainReaches m.accountId parentId m.id db) :
    decideLink m'.accountId m' db' = decideLink m.accountId m db := by
  rw [decideLink_eq, decideLink_eq, holderDecision_congr hrow hholders, hrow.1, hrow.2.1]
  cases hlinked : holderDecision m db with
  | root => rfl
  | pending => rfl
  | ambiguous => rfl
  | linked parentId =>
      dsimp only
      rw [hwalk parentId hlinked]

/-- Two walks without a cycle find the same when the chains come to the same within the bound. -/
theorem chainReaches_congr (hacyclic : NoCycles db) (hacyclic' : NoCycles db') {startId : Uuid}
    (hsame : (∃ k < maxChainDepth, ancestor (recordedParent accountId db') k startId = some id) ↔
      ∃ k < maxChainDepth, ancestor (recordedParent accountId db) k startId = some id) :
    chainReaches accountId startId id db' = chainReaches accountId startId id db := by
  obtain ⟨reaches, hreaches, hmeets⟩ : ∃ reaches, chainReaches accountId startId id db =
      some reaches ∧ _ := chainReaches_eq_some (hacyclic accountId) startId
  obtain ⟨reaches', hreaches', hmeets'⟩ : ∃ reaches', chainReaches accountId startId id db' =
      some reaches' ∧ _ := chainReaches_eq_some (hacyclic' accountId) startId
  rw [hreaches, hreaches', Option.some.injEq, Bool.eq_iff_iff, hmeets, hmeets', hsame]

/-! ## The invariant -/

/-- The link that a row records is the one that would be decided now. -/
def Message.Agrees (m : Message) (db : Database) : Prop :=
  ∃ decision, decideLink m.accountId m db = some decision ∧
    m.threadLinkState = decision.state ∧ m.parentMessageId = decision.parentId

/-- There is no cycle, and every row that is no job records the link that would be decided now. -/
structure Settled (db : Database) : Prop where
  acyclic : NoCycles db
  clean : ∀ m ∈ db.messages, m.threadDirty = false → m.Agrees db

/-- A row with the columns that its link depends on, and with the link. -/
structure SameLink (m m' : Message) : Prop where
  columns : m'.id = m.id ∧ m'.accountId = m.accountId ∧ m'.messageId = m.messageId ∧
    m'.inReplyTo = m.inReplyTo ∧ m'.referenceIds = m.referenceIds
  state : m'.threadLinkState = m.threadLinkState
  parent : m'.parentMessageId = m.parentMessageId

theorem recordedParent_of_mem (hm : m ∈ db.messages) :
    recordedParent m.accountId db m.id = m.parentMessageId := by
  unfold recordedParent
  rw [findRow_eq_some_iff.mpr ⟨hm, rfl, rfl⟩]
  rfl

/-- The ways from the holder of a row back to the row are still there. -/
def KeepsReturns (m : Message) (db db' : Database) : Prop :=
  ∀ parentId, holderDecision m db = .linked parentId → ∀ k,
    ancestor (recordedParent m.accountId db) k parentId = some m.id →
    ancestor (recordedParent m.accountId db') k parentId = some m.id

theorem keepsReturns_of_same
    (h : recordedParent m.accountId db' = recordedParent m.accountId db) :
    KeepsReturns m db db' := by
  intro parentId _ k hup
  rw [h, hup]

/-- A row goes on agreeing as long as the holders of what it names stay, and the ways back to it: a
new way back would be a cycle with the link that it records. -/
theorem Message.Agrees.congr (h : m.Agrees db) (hacyclic : NoCycles db) (hacyclic' : NoCycles db')
    (hm : m' ∈ db'.messages) (hsame : SameLink m m')
    (hholders : ∀ identifier ∈ parentIdentifiers m,
      holders m.accountId identifier db' = holders m.accountId identifier db)
    (hreturns : KeepsReturns m db db') : m'.Agrees db' := by
  obtain ⟨decision, hdecision, hstate, hparent⟩ := h
  refine ⟨decision, ?_, hsame.state.trans hstate, hsame.parent.trans hparent⟩
  rw [← hdecision]
  refine decideLink_congr hsame.columns hholders fun parentId hlinked =>
    chainReaches_congr hacyclic hacyclic' ⟨?_, ?_⟩
  · rintro ⟨k, hk, hup⟩
    obtain ⟨reaches, hreaches, hmeets⟩ : ∃ reaches, chainReaches m.accountId parentId m.id db =
        some reaches ∧ _ := chainReaches_eq_some (hacyclic m.accountId) parentId
    refine hmeets.mp ?_
    by_contra hfalse
    rw [Bool.not_eq_true] at hfalse
    have hlink : decision = .linked parentId := by
      rw [decideLink_eq, hlinked] at hdecision
      dsimp only at hdecision
      rw [hreaches, hfalse] at hdecision
      exact (Option.some.inj hdecision).symm
    obtain ⟨hid, haccount, -⟩ := hsame.columns
    have hrecorded : recordedParent m.accountId db' m.id = some parentId := by
      rw [← hid, ← haccount, recordedParent_of_mem hm, hsame.parent, hparent, hlink]
      rfl
    refine hacyclic' m.accountId m.id ⟨k, ?_⟩
    rw [ancestor_succ_of_eq_some hrecorded, hup]
  · rintro ⟨k, hk, hup⟩
    exact ⟨k, hk, hreturns parentId hlinked k hup⟩

/-- A transaction keeps the links settled when it marks every row whose holders it changes, and the
other rows keep the ways back to them. -/
theorem Settled.marked {marking : ThreadJobMarking} {db₁ : Database} (hsettled : Settled db)
    (hrows : ∀ m ∈ db₁.messages, m.threadDirty = false → marking.marks accountId m = false →
      ∃ m₀ ∈ db.messages, m₀.threadDirty = false ∧ SameLink m₀ m ∧ KeepsReturns m₀ db db')
    (hholders : ∀ otherId identifier,
      (otherId = accountId → some identifier ∉ marking.identifiers) →
      holders otherId identifier db₁ = holders otherId identifier db)
    (hdb : db'.messages = (markDirty (marking.marks accountId) db₁).messages)
    (hacyclic : NoCycles db') : Settled db' := by
  refine ⟨hacyclic, fun m' hm' hclean => ?_⟩
  have hin := hm'
  rw [hdb] at hin
  obtain ⟨m, hm, rfl⟩ := mem_markDirty.mp hin
  by_cases hmarks : marking.marks accountId m = true
  · rw [if_pos hmarks] at hclean
    cases hclean
  rw [if_neg hmarks] at hclean hm' ⊢
  obtain ⟨m₀, hm₀, hclean₀, hsame, hreturns⟩ := hrows m hm hclean (Bool.eq_false_iff.mpr hmarks)
  refine (hsettled.clean m₀ hm₀ hclean₀).congr hsettled.acyclic hacyclic hm' hsame
    (fun identifier hidentifier => ?_) hreturns
  obtain ⟨-, haccount, -, hreply, hreferences⟩ := hsame.columns
  have hheads : heads db' = heads db₁ := by
    unfold heads
    rw [hdb]
    exact heads_markDirty
  rw [holders_congr hheads]
  refine hholders _ _ fun hown hmarked => ?_
  -- a row that names a marked identifier is marked
  have hnames : identifier ∈ parentIdentifiers m := by
    unfold parentIdentifiers
    rw [hreply, hreferences]
    exact hidentifier
  exact hmarks (marks_of_mem_parentIdentifiers hmarked (haccount.trans hown) hnames)

/-- Whether the way from the holder of a row back to the row passes a given row. -/
def ReturnsThrough (id : Uuid) (m : Message) (db : Database) : Prop :=
  ∃ parentId, holderDecision m db = .linked parentId ∧
    ∃ n, ancestor (recordedParent m.accountId db) n parentId = some m.id ∧
      ∃ k < n, ancestor (recordedParent m.accountId db) k parentId = some id

/-- No row at rest has a way back to itself that passes a given row. -/
def OffReturns (id : Uuid) (db : Database) : Prop :=
  ∀ m ∈ db.messages, m.threadDirty = false → ¬ ReturnsThrough id m db

/-! ## Reconciliations -/

section

variable {decision : LinkDecision} {outcome : Option RowOutcome}

theorem mem_relink : m ∈ (relink id decision db).messages ↔ ∃ m₀ ∈ db.messages,
    (if m₀.id == id then { m₀ with
      parentMessageId := decision.parentId, threadLinkState := decision.state } else m₀) = m :=
  List.mem_map

/-- The rows after a link was recorded. -/
theorem of_mem_recordLink (hrow : row ∈ db.messages)
    (hm : m ∈ (recordLink row decision db).messages) :
    (m ∈ db.messages ∧ m.id ≠ row.id) ∨ m = { row with
      parentMessageId := decision.parentId, threadLinkState := decision.state } := by
  unfold recordLink at hm
  split at hm
  next =>
    obtain ⟨m₀, hm₀, rfl⟩ := mem_relink.mp hm
    by_cases hid : m₀.id = row.id
    · obtain rfl : m₀ = row := Table.eq_of_key_eq hm₀ hrow hid
      exact .inr (if_pos (beq_self_eq_true _))
    · rw [if_neg (by simpa using hid)]
      exact .inl ⟨hm₀, hid⟩
  next hsame =>
    by_cases hid : m.id = row.id
    · obtain rfl : m = row := Table.eq_of_key_eq hm hrow hid
      unfold linkChanged at hsame
      simp only [Bool.or_eq_true, bne_iff_ne, not_or, not_not] at hsame
      right
      rw [← hsame.1, ← hsame.2]
    · exact .inl ⟨hm, hid⟩

/-- The rows after some of them got a thread. -/
theorem of_mem_assignThread {p : Message → Bool} {threadId : Uuid}
    (hm : m ∈ (assignThread p threadId db).messages) :
    ∃ m₀ ∈ db.messages, ∃ threadId, { m₀ with threadId } = m := by
  obtain ⟨m₀, hm₀, rfl⟩ := List.mem_map.mp hm
  refine ⟨m₀, hm₀, ?_⟩
  split
  · exact ⟨_, rfl⟩
  · exact ⟨_, rfl⟩

theorem of_mem_joinThread {root : ChainRow} {known : Option Uuid} {threadId : Uuid} {created : ℕ}
    (h : joinThread accountId root known freshThreadId db = some (threadId, created, db'))
    (hm : m ∈ db'.messages) : ∃ m₀ ∈ db.messages, ∃ threadId, { m₀ with threadId } = m := by
  unfold joinThread at h
  split at h
  · obtain ⟨-, -, rfl⟩ : _ = threadId ∧ 0 = created ∧ db = db' := by simpa using h
    exact ⟨m, hm, m.threadId, rfl⟩
  · obtain ⟨threads, -, hassigned⟩ := Option.bind_eq_some_iff.mp h
    obtain ⟨-, -, rfl⟩ : freshThreadId = threadId ∧ 1 = created ∧ _ = db' := by
      simpa using hassigned
    exact of_mem_assignThread hm

theorem heads_recordLink : heads (recordLink row decision db) = heads db := by
  unfold recordLink
  split
  · exact heads_update (p := (·.id == row.id)) (f := fun m =>
      { m with parentMessageId := decision.parentId, threadLinkState := decision.state })
      (fun _ => rfl) (fun _ => rfl) rfl
  · rfl

theorem heads_joinThread {root : ChainRow} {known : Option Uuid} {threadId : Uuid} {created : ℕ}
    (h : joinThread accountId root known freshThreadId db = some (threadId, created, db')) :
    heads db' = heads db := by
  unfold joinThread at h
  split at h
  · obtain ⟨-, -, rfl⟩ : _ = threadId ∧ 0 = created ∧ db = db' := by simpa using h
    rfl
  · obtain ⟨threads, -, hassigned⟩ := Option.bind_eq_some_iff.mp h
    obtain ⟨-, -, rfl⟩ : freshThreadId = threadId ∧ 1 = created ∧ _ = db' := by
      simpa using hassigned
    exact heads_assignThread

/-- The rows after a row is no job any more. -/
theorem of_mem_clearDirty (hm : m ∈ (clearDirty id db).messages) : ∃ m₀ ∈ db.messages,
    ∃ threadDirty, { m₀ with threadDirty } = m ∧ (m₀.id ≠ id → threadDirty = m₀.threadDirty) := by
  obtain ⟨m₀, hm₀, rfl⟩ := List.mem_map.mp hm
  refine ⟨m₀, hm₀, ?_⟩
  by_cases hid : m₀.id = id
  · exact ⟨false, (if_pos (by simpa using hid)).symm, fun hne => absurd hid hne⟩
  · exact ⟨m₀.threadDirty, (if_neg (by simpa using hid)).symm, fun _ => rfl⟩

/-- Whether a reconciliation decides its row within the bound of the walk, and either leaves the
link that the row records or breaks no way back to a row at rest. -/
def ReconcilesWell (accountId messageId : Uuid) (db : Database) : Prop :=
  WithinBound accountId messageId db ∧
    ∀ row, dirtyRow accountId messageId db = some row →
      (∃ parentId, row.parentMessageId = some parentId ∧
        holderDecision row db = .linked parentId) ∨ OffReturns messageId db

/-- A recorded link whose parent is still the only holder is decided again. -/
theorem decideLink_of_recorded {parentId : Uuid} (hacyclic : NoCycles db) (hrow : row ∈ db.messages)
    (hparent : row.parentMessageId = some parentId)
    (hlinked : holderDecision row db = .linked parentId) :
    decideLink row.accountId row db = some (.linked parentId) := by
  obtain ⟨reaches, hreaches, hmeets⟩ : ∃ reaches, chainReaches row.accountId parentId row.id db =
      some reaches ∧ _ := chainReaches_eq_some (hacyclic row.accountId) parentId
  have hfalse : reaches = false := by
    rw [Bool.eq_false_iff]
    intro htrue
    obtain ⟨k, -, hup⟩ := hmeets.mp htrue
    refine hacyclic row.accountId row.id ⟨k, ?_⟩
    rw [ancestor_succ_of_eq_some ((recordedParent_of_mem hrow).trans hparent), hup]
  rw [decideLink_eq, hlinked]
  dsimp only
  rw [hreaches, hfalse]
  rfl

/-- What a reconciliation leaves of the ways back to a row at rest. -/
theorem keepsReturns_reconcileRow (hacyclic : NoCycles db)
    (hwell : ReconcilesWell accountId messageId db)
    (h : MailHub.reconcileRow accountId messageId freshThreadId db = some (outcome, db'))
    (hm : m ∈ db.messages) (hclean : m.threadDirty = false) : KeepsReturns m db db' := by
  rcases reconcileRow_links h with ⟨-, rfl⟩ |
    ⟨row, decision, hdirty, hdecision, hparent, hsame, hothers⟩
  · exact keepsReturns_of_same rfl
  by_cases hother : m.accountId = accountId
  swap
  · exact keepsReturns_of_same (hothers _ hother)
  subst hother
  rcases hwell.2 row hdirty with ⟨parentId, hrecorded, hlinked⟩ | hoff
  · -- the link stays
    obtain ⟨hrow, hid, haccount⟩ :=
      findRow_eq_some_iff.mp (Option.filter_eq_some_iff.mp hdirty).1
    have hagain := decideLink_of_recorded hacyclic hrow hrecorded hlinked
    rw [haccount, hdecision] at hagain
    obtain rfl := Option.some.inj hagain
    refine keepsReturns_of_same (funext fun x => ?_)
    by_cases hx : x = messageId
    · rw [hx, hparent, ← hid, ← haccount, recordedParent_of_mem hrow, hrecorded]
      rfl
    · exact hsame x hx
  · intro parentId hlinked k hup
    rw [ancestor_congr (fun x hx => (hsame x hx).symm) fun j hj hpass => ?_]
    · exact hup
    · exact hoff m hm hclean ⟨parentId, hlinked, k, hup, j, hj, hpass⟩

/-- A reconciliation within the bound of the walk keeps the links settled when it breaks no way back
to a row at rest. -/
theorem Settled.reconcileRow (hsettled : Settled db)
    (hwell : ReconcilesWell accountId messageId db)
    (h : MailHub.reconcileRow accountId messageId freshThreadId db = some (outcome, db')) :
    Settled db' := by
  have hacyclic := (noCycles_reconcileRow_iff hsettled.acyclic h).mpr hwell.1
  refine ⟨hacyclic, fun m' hm' hclean => ?_⟩
  rcases reconcileRow_cases h with ⟨-, -, rfl⟩ |
    ⟨row, decision, threadId, created, joined, hdirty, hdecision, hjoin, rfl⟩
  · exact hsettled.clean m' hm' hclean
  obtain ⟨hmem, rfl, rfl⟩ := findRow_eq_some_iff.mp (Option.filter_eq_some_iff.mp hdirty).1
  have hheads : heads (clearDirty row.id
      (propagateThread row.accountId row.id threadId joined).2) = heads db := by
    rw [heads_clearDirty]
    exact heads_assignThread.trans ((heads_joinThread hjoin).trans heads_recordLink)
  obtain ⟨m₁, hm₁, dirty, rfl, hdirty₁⟩ := of_mem_clearDirty hm'
  obtain ⟨m₂, hm₂, thread₁, rfl⟩ := of_mem_assignThread hm₁
  obtain ⟨m₃, hm₃, thread₂, rfl⟩ := of_mem_joinThread hjoin hm₂
  rcases of_mem_recordLink hmem hm₃ with ⟨hm₀, hne⟩ | rfl
  · have hclean₀ : m₃.threadDirty = false := (hdirty₁ hne).symm.trans hclean
    exact (hsettled.clean m₃ hm₀ hclean₀).congr hsettled.acyclic hacyclic hm'
      ⟨⟨rfl, rfl, rfl, rfl, rfl⟩, rfl, rfl⟩ (fun identifier _ => holders_congr hheads)
      (keepsReturns_reconcileRow hsettled.acyclic hwell h hm₀ hclean₀)
  · refine ⟨decision, ?_, rfl, rfl⟩
    rw [← hdecision]
    rcases reconcileRow_links h with ⟨hnone, -⟩ | ⟨-, -, -, -, -, hsame, -⟩
    · rw [hnone] at hdirty
      cases hdirty
    · exact decideLink_congr ⟨rfl, rfl, rfl, rfl, rfl⟩ (fun identifier _ => holders_congr hheads)
        fun parentId _ => chainReaches_congr hsettled.acyclic hacyclic
          (exists_ancestor_congr fun x hx => (hsame x hx).symm)

end

/-! ## Imports -/

section

variable {parseHeaderBlock : Bytes → ImportedHeaders} {folderId : Uuid} {uidvalidity : ℕ}

/-- The rows of an account that are jobs, have no parent and hold one of some identifiers. -/
def IsNew (accountId : Uuid) (identifiers : List String) (m : Message) : Prop :=
  m.accountId = accountId ∧ m.threadDirty = true ∧ m.parentMessageId = none ∧
    ∀ identifier, m.messageId = some identifier → identifier ∈ identifiers

theorem IsNew.mono {identifiers identifiers' : List String} (h : IsNew accountId identifiers m)
    (hsub : ∀ identifier ∈ identifiers, identifier ∈ identifiers') :
    IsNew accountId identifiers' m :=
  ⟨h.1, h.2.1, h.2.2.1, fun identifier hid => hsub identifier (h.2.2.2 identifier hid)⟩

/-- What one record adds: at most one new row, at the end. -/
theorem importHeaderRecord_ok {ids : ImportIds} {record : MailboxHeaders} {imported : Bool}
    {carried : Option String}
    (h : (importHeaderRecord parseHeaderBlock accountId folderId uidvalidity ids record).run db =
      .ok ((imported, carried), db')) :
    ∃ new, db'.messages.rows = db.messages.rows ++ new ∧
      ∀ m ∈ new, IsNew accountId carried.toList m := by
  unfold importHeaderRecord at h
  simp only [StateT.run_bind, StateT.run_get, pure_bind] at h
  split at h
  · obtain ⟨-, rfl⟩ := Prod.mk.inj (Except.ok.inj h)
    exact ⟨[], by simp, fun m hm => (List.not_mem_nil hm).elim⟩
  · simp at h
    obtain ⟨messages, hmessages, occurrences, -, h⟩ := h
    refine ⟨_, Eq.trans ?_ (Table.rows_of_insert? hmessages), ?_⟩
    · rcases h with ⟨-, -, rfl⟩ | ⟨-, -, rfl⟩ <;> rfl
    · intro m hm
      obtain rfl := List.mem_singleton.mp hm
      have hcarried : (parseHeaderBlock record.rawHeaders).messageId = carried := by
        rcases h with ⟨-, h, -⟩ | ⟨-, h, -⟩
        · exact h.2
        · exact h.2
      refine ⟨rfl, rfl, rfl, fun identifier hid => ?_⟩
      rw [← hcarried]
      exact Option.mem_toList.mpr hid

/-- What the records of a window add: new rows at the end. -/
theorem importRecords_ok {records : List (ImportIds × MailboxHeaders)} {identifiers : List String}
    (h : (importRecords parseHeaderBlock accountId folderId uidvalidity records).run db =
      .ok (identifiers, db')) :
    ∃ new, db'.messages.rows = db.messages.rows ++ new ∧
      ∀ m ∈ new, IsNew accountId identifiers m := by
  induction records generalizing db identifiers with
  | nil =>
      obtain ⟨-, rfl⟩ : [] = identifiers ∧ db = db' := by simpa [importRecords] using h
      exact ⟨[], by simp, fun m hm => (List.not_mem_nil hm).elim⟩
  | cons entry rest ih =>
      obtain ⟨ids, record⟩ := entry
      unfold importRecords at h
      rw [StateT.run_bind] at h
      obtain ⟨⟨⟨imported, carried⟩, db₁⟩, hrecord, h⟩ := bind_eq_ok.mp h
      dsimp only at h
      rw [StateT.run_bind] at h
      obtain ⟨⟨later, db₂⟩, hrest, h⟩ := bind_eq_ok.mp h
      obtain ⟨hids, rfl⟩ := Prod.mk.inj (Except.ok.inj h)
      obtain ⟨new, hrows, hnew⟩ := importHeaderRecord_ok hrecord
      obtain ⟨new', hrows', hnew'⟩ := ih hrest
      refine ⟨new ++ new', by rw [hrows', hrows, List.append_assoc], fun m hm => ?_⟩
      rw [← hids]
      rcases List.mem_append.mp hm with hm | hm
      · exact (hnew m hm).mono fun _ h => List.mem_append_left _ h
      · exact (hnew' m hm).mono fun _ h => List.mem_append_right _ h

/-- An import keeps the links settled. -/
theorem Settled.importWindow {records : List (ImportIds × MailboxHeaders)} (hsettled : Settled db)
    (h : (MailHub.importWindow parseHeaderBlock accountId folderId uidvalidity records).run db =
      .ok ((), db')) : Settled db' := by
  have hparents : SameParents db db' := (sameParents_importWindow db).step _ _ h
  have hacyclic : NoCycles db' := by
    intro otherId
    rw [hparents otherId]
    exact hsettled.acyclic otherId
  unfold MailHub.importWindow at h
  rw [StateT.run_bind] at h
  obtain ⟨⟨identifiers, db₁⟩, hrecords, h⟩ := bind_eq_ok.mp h
  obtain ⟨new, hrows, hnew⟩ := importRecords_ok hrecords
  -- marking no identifiers marks no rows
  have hdb : db' =
      markDirty ((ThreadJobMarking.mk [] (identifiers.map some)).marks accountId) db₁ := by
    dsimp only at h
    by_cases hids : identifiers = []
    · rw [if_neg (not_not.mpr hids)] at h
      obtain ⟨-, rfl⟩ := Prod.mk.inj (Except.ok.inj h)
      refine (markDirty_eq_self fun m _ => ?_).symm
      simp [ThreadJobMarking.marks, ThreadJobMarking.present, hids, referencesIdentifier_nil]
    · rw [if_pos hids, markThreadJobsDirty_run] at h
      exact (Prod.mk.inj (Except.ok.inj h)).2.symm
  refine hsettled.marked (fun m hm hclean _ => ?_) (fun otherId identifier hunmarked => ?_)
    (congrArg Database.messages hdb) hacyclic
  · rw [Table.mem_iff, hrows] at hm
    rcases List.mem_append.mp hm with hold | hm
    · exact ⟨m, hold, hclean, ⟨⟨rfl, rfl, rfl, rfl, rfl⟩, rfl, rfl⟩,
        keepsReturns_of_same (hparents m.accountId)⟩
    · rw [(hnew m hm).2.1] at hclean
      cases hclean
  · have hnone : new.filter (fun m => m.accountId == otherId && m.messageId == some identifier) =
        [] := by
      rw [List.filter_eq_nil_iff]
      intro m hm hholds
      obtain ⟨haccount, -, -, hcarried⟩ := hnew m hm
      obtain ⟨hother, hid⟩ : m.accountId = otherId ∧ m.messageId = some identifier := by
        simpa using hholds
      exact hunmarked (hother.symm.trans haccount)
        (List.mem_map_of_mem (hcarried identifier hid))
    unfold holders Table.select
    rw [hrows, List.filter_append, hnone, List.append_nil]

end

/-! ## Originals -/

section

variable {parsed : ParsedMessage} {derived : DerivedBody} {storageKey sha256 : String}
  {sizeBytes : ℕ} {result : IngestResult}

/-- Applying an original keeps the links settled. -/
theorem Settled.applyIngested (hsettled : Settled db)
    (hrow : findRow accountId messageId db = some row)
    (h : (MailHub.applyIngested accountId row parsed derived storageKey sha256 sizeBytes).run db =
      .ok (result, db')) : Settled db' := by
  obtain ⟨hmem, -, haccount⟩ := findRow_eq_some_iff.mp hrow
  unfold MailHub.applyIngested at h
  simp [markThreadJobsDirty_run] at h
  obtain ⟨-, rfl⟩ := h
  have hparents : ∀ otherId, recordedParent otherId (markDirty ((ThreadJobMarking.mk [row.id]
      [row.messageId, parsed.messageId]).marks accountId) { db with
        messages := db.messages.update (·.id == row.id)
          (ingestedRow parsed storageKey sha256 sizeBytes) fun _ => rfl }) =
      recordedParent otherId db := fun otherId =>
    recordedParent_markDirty.trans (recordedParent_update (p := (·.id == row.id))
      (f := ingestedRow parsed storageKey sha256 sizeBytes) (fun _ => rfl) (fun _ => ⟨rfl, rfl⟩)
      rfl)
  refine hsettled.marked (fun m hm hclean hunmarked => ?_)
    (fun otherId identifier hunmarked => ?_) rfl
    fun otherId => ?_
  · obtain ⟨m₀, hm₀, rfl⟩ := List.mem_map.mp hm
    by_cases hid : m₀.id = row.id
    · -- the row itself is marked
      obtain rfl : m₀ = row := Table.eq_of_key_eq hm₀ hmem hid
      rw [if_pos (by simp)] at hunmarked
      simp [ThreadJobMarking.marks, ingestedRow, haccount] at hunmarked
    · rw [if_neg (by simpa using hid)] at hclean ⊢
      exact ⟨m₀, hm₀, hclean, ⟨⟨rfl, rfl, rfl, rfl, rfl⟩, rfl, rfl⟩,
        keepsReturns_of_same (hparents m₀.accountId)⟩
  · refine holders_map rfl (fun m => ?_) fun m hm => ?_
    · split <;> rfl
    · by_cases hid : m.id = row.id
      · obtain rfl : m = row := Table.eq_of_key_eq hm hmem hid
        rw [if_pos (by simp)]
        -- neither the old identifier of the row nor the new one is looked for
        by_cases hother : otherId = accountId
        · have hfree := hunmarked hother
          simp only [List.mem_cons, List.not_mem_nil, or_false, not_or] at hfree
          exact iff_of_false (fun hholds => hfree.2 hholds.2.symm)
            fun hholds => hfree.1 hholds.2.symm
        · exact iff_of_false (fun hholds => hother (hholds.1.symm.trans haccount))
            fun hholds => hother (hholds.1.symm.trans haccount)
      · rw [if_neg (by simpa using hid)]
  · have hacyclic := hsettled.acyclic otherId
    rw [← hparents] at hacyclic
    exact hacyclic

@[simp] theorem movedRow_threadDirty {removedId : Uuid} (m : Message) :
    (movedRow removedId survivorId m).threadDirty = m.threadDirty := by
  unfold movedRow
  dsimp only
  split <;> split <;> rfl

theorem parentIdentifiers_movedRow {removedId : Uuid} (m : Message) :
    parentIdentifiers (movedRow removedId survivorId m) = parentIdentifiers m := by
  unfold movedRow
  dsimp only
  split <;> split <;> rfl

/-- A child of a row names an identifier that the row holds. -/
theorem Settled.names_of_child (hsettled : Settled db) (hm : m ∈ db.messages)
    (hclean : m.threadDirty = false) (hrow : row ∈ db.messages)
    (hchild : m.parentMessageId = some row.id) :
    ∃ identifier ∈ parentIdentifiers m, row.messageId = some identifier ∧
      row.accountId = m.accountId := by
  obtain ⟨decision, hdecision, -, hparent⟩ := hsettled.clean m hm hclean
  rw [hchild] at hparent
  have hlinked : holderDecision m db = .linked row.id := by
    rw [decideLink_eq] at hdecision
    cases hholder : holderDecision m db with
    | root => rw [hholder] at hdecision; cases hdecision; cases hparent
    | pending => rw [hholder] at hdecision; cases hdecision; cases hparent
    | ambiguous => rw [hholder] at hdecision; cases hdecision; cases hparent
    | linked parentId =>
        rw [hholder] at hdecision
        obtain ⟨reaches, -, rfl⟩ := Option.map_eq_some_iff.mp hdecision
        cases reaches with
        | true => cases hparent
        | false =>
            obtain rfl : row.id = parentId := Option.some.inj hparent
            rfl
  obtain ⟨identifier, hnames, hholder⟩ := holder_of_linked hlinked
  obtain ⟨holder, hin, hid, haccount, hheld⟩ := mem_holders.mp hholder
  obtain rfl : holder = row := Table.eq_of_key_eq hin hrow hid
  exact ⟨identifier, hnames, hheld, haccount⟩

/-- A merge keeps the links settled unless it closes a cycle, when no way back to a row at rest
passes the removed row. -/
theorem Settled.afterMerge (hsettled : Settled db)
    (hrow : findRow accountId messageId db = some row) (hfree : OffReturns row.id db)
    (hacyclic : NoCycles (MailHub.afterMerge accountId row survivorId parsed now db)) :
    Settled (MailHub.afterMerge accountId row survivorId parsed now db) := by
  obtain ⟨hmem, -, haccount⟩ := findRow_eq_some_iff.mp hrow
  have hrows : (removeMessage row.id (moveReferences row.id survivorId now db)).messages.rows =
      (db.messages.rows.map (movedRow row.id survivorId)).filter (!·.id == row.id) := by
    rw [← messages_moveReferences]
    rfl
  refine hsettled.marked (fun m hm hclean hunmarked => ?_)
    (fun otherId identifier hunmarked => ?_) rfl
    hacyclic
  · rw [Table.mem_iff, hrows] at hm
    obtain ⟨hmoved, hid⟩ := List.mem_filter.mp hm
    obtain ⟨m₀, hm₀, rfl⟩ := List.mem_map.mp hmoved
    have hclean₀ : m₀.threadDirty = false := (movedRow_threadDirty m₀).symm.trans hclean
    have hid : m₀.id ≠ row.id := by simpa using hid
    -- a child of the removed row names an identifier that the row held, so it is marked
    have hparent : m₀.parentMessageId ≠ some row.id := by
      intro hchild
      obtain ⟨identifier, hnames, hheld, hsame⟩ := hsettled.names_of_child hm₀ hclean₀ hmem hchild
      have hmarked : some identifier ∈ [row.messageId, parsed.messageId] := by
        rw [hheld]
        exact List.mem_cons_self
      have hmoved : identifier ∈ parentIdentifiers (movedRow row.id survivorId m₀) := by
        rw [parentIdentifiers_movedRow]
        exact hnames
      rw [marks_of_mem_parentIdentifiers hmarked
        ((movedRow_accountId m₀).trans (hsame.symm.trans haccount)) hmoved] at hunmarked
      cases hunmarked
    rw [movedRow_eq_self hparent]
    refine ⟨m₀, hm₀, hclean₀, ⟨⟨rfl, rfl, rfl, rfl, rfl⟩, rfl, rfl⟩, ?_⟩
    intro parentId hlinked k hup
    rw [recordedParent_afterMerge]
    refine (ancestor_eq_of_parents fun j hj x hx => ?_).trans hup
    -- no row on the way back is the removed one or one of its children
    have havoid : ∀ i < k, ancestor (recordedParent m₀.accountId db) i parentId ≠ some row.id :=
      fun i hi hpass => hfree m₀ hm₀ hclean₀ ⟨parentId, hlinked, k, hup, i, hi, hpass⟩
    refine (contract_of_ne ?_ fun hchild => ?_).symm
    · rintro rfl
      exact havoid j hj hx
    · have hnext : ancestor (recordedParent m₀.accountId db) (j + 1) parentId = some row.id := by
        rw [ancestor_add_of_eq_some hx, ancestor_succ_of_eq_some hchild, ancestor_zero]
      by_cases hlast : j + 1 = k
      · rw [hlast, hup] at hnext
        exact hid (Option.some.inj hnext)
      · exact havoid (j + 1) (by omega) hnext
  · have hmoved : holders otherId identifier (moveReferences row.id survivorId now db) =
        holders otherId identifier db :=
      holders_map messages_moveReferences movedRow_id fun m _ => by
        rw [movedRow_accountId, movedRow_messageId]
    rw [← hmoved]
    refine holders_filter rfl fun m hm hother hheld => ?_
    rw [Table.mem_iff, messages_moveReferences] at hm
    obtain ⟨m₀, hm₀, rfl⟩ := List.mem_map.mp hm
    rw [movedRow_accountId] at hother
    rw [movedRow_messageId] at hheld
    dsimp only
    rw [movedRow_id, Bool.not_eq_true', beq_eq_false_iff_ne]
    intro hid
    obtain rfl : m₀ = row := Table.eq_of_key_eq hm₀ hmem hid
    refine hunmarked (hother.symm.trans haccount) ?_
    rw [← hheld]
    exact List.mem_cons_self

/-- Whether the merge that a parsed original brings, if any, closes no cycle and breaks no way back
to a row at rest. -/
def CommitsWell (accountId messageId : Uuid) (sha256 : String) (db : Database) : Prop :=
  ∀ survivor, findDuplicate accountId messageId sha256 db = some survivor →
    (∀ n ≥ 2, ancestor (recordedParent accountId db) n survivor.id ≠ some messageId) ∧
      OffReturns messageId db

/-- The transaction of a parsed original keeps the links settled, unless its merge closes a cycle or
breaks a way back. -/
theorem Settled.commitOriginal (hsettled : Settled db)
    (hwell : CommitsWell accountId messageId sha256 db)
    (h : (MailHub.commitOriginal accountId messageId parsed derived storageKey sha256 sizeBytes
      now).run db = .ok (result, db')) : Settled db' := by
  obtain ⟨row, hrow⟩ : ∃ row, findRow accountId messageId db = some row := by
    unfold MailHub.commitOriginal at h
    rw [StateT.run_bind] at h
    obtain ⟨⟨row, db₁⟩, hlock, -⟩ := bind_eq_ok.mp h
    exact ⟨row, (lockMessage_ok.mp hlock).1⟩
  rw [commitOriginal_run hrow] at h
  cases hduplicate : findDuplicate accountId messageId sha256 db with
  | none =>
      rw [hduplicate] at h
      exact hsettled.applyIngested hrow h
  | some survivor =>
      rw [hduplicate] at h
      obtain ⟨-, rfl⟩ := mergeDuplicate_ok h
      obtain ⟨hdeep, hoff⟩ := hwell survivor hduplicate
      obtain ⟨hmem, haccount, -, hne⟩ := findDuplicate_eq_some hduplicate
      obtain ⟨-, rfl, -⟩ := findRow_eq_some_iff.mp hrow
      refine hsettled.afterMerge hrow hoff ?_
      refine (noCycles_afterMerge_iff hsettled.acyclic hne fun m hm hms => ?_).mpr hdeep
      rw [Table.eq_of_key_eq hm hmem hms, haccount]

end

/-! ## Runs -/

/-- The transactions that add rows and change what links depend on. -/
inductive LinkEvent
  /-- Headers of one folder are imported. -/
  | importWindow (accountId folderId : Uuid) (uidvalidity : ℕ)
      (records : List (ImportIds × MailboxHeaders))
  /-- A parsed original is applied or merged. -/
  | commitOriginal (accountId messageId : Uuid) (parsed : ParsedMessage) (derived : DerivedBody)
      (storageKey sha256 : String) (sizeBytes : ℕ) (now : Instant)
  /-- One row is reconciled. -/
  | reconcileRow (accountId messageId freshThreadId : Uuid)

/-- The database after one transaction that commits. -/
inductive LinkStep (parseHeaderBlock : Bytes → ImportedHeaders) :
    LinkEvent → Database → Database → Prop
  | imported {accountId folderId : Uuid} {uidvalidity : ℕ}
      {records : List (ImportIds × MailboxHeaders)} {db db' : Database}
      (h : (importWindow parseHeaderBlock accountId folderId uidvalidity records).run db =
        .ok ((), db')) :
      LinkStep parseHeaderBlock (.importWindow accountId folderId uidvalidity records) db db'
  | committed {accountId messageId : Uuid} {parsed : ParsedMessage} {derived : DerivedBody}
      {storageKey sha256 : String} {sizeBytes : ℕ} {now : Instant} {result : IngestResult}
      {db db' : Database}
      (h : (commitOriginal accountId messageId parsed derived storageKey sha256 sizeBytes now).run
        db = .ok (result, db')) :
      LinkStep parseHeaderBlock
        (.commitOriginal accountId messageId parsed derived storageKey sha256 sizeBytes now) db db'
  | reconciled {accountId messageId freshThreadId : Uuid} {outcome : Option RowOutcome}
      {db db' : Database}
      (h : reconcileRow accountId messageId freshThreadId db = some (outcome, db')) :
      LinkStep parseHeaderBlock (.reconcileRow accountId messageId freshThreadId) db db'

/-- The databases that transactions lead to, each of them where it is allowed. -/
inductive LinkRun (parseHeaderBlock : Bytes → ImportedHeaders)
    (allowed : LinkEvent → Database → Prop) (db₀ : Database) : Database → Prop
  | start : LinkRun parseHeaderBlock allowed db₀ db₀
  | next {db db' : Database} {e : LinkEvent} (h : LinkRun parseHeaderBlock allowed db₀ db)
      (hallowed : allowed e db) (hstep : LinkStep parseHeaderBlock e db db') :
      LinkRun parseHeaderBlock allowed db₀ db'

/-- Whether a transaction breaks no way back to a row at rest. -/
def LinkEvent.Quiet : LinkEvent → Database → Prop
  | importWindow .., _ => True
  | commitOriginal accountId messageId _ _ _ sha256 _ _, db =>
      CommitsWell accountId messageId sha256 db
  | reconcileRow accountId messageId _, db => ReconcilesWell accountId messageId db

variable {parseHeaderBlock : Bytes → ImportedHeaders} {db₀ : Database}

/-- A quiet transaction keeps the links settled. -/
theorem Settled.step {e : LinkEvent} (hsettled : Settled db) (hquiet : e.Quiet db)
    (hstep : LinkStep parseHeaderBlock e db db') : Settled db' := by
  cases hstep with
  | imported h => exact hsettled.importWindow h
  | committed h => exact hsettled.commitOriginal hquiet h
  | reconciled h => exact hsettled.reconcileRow hquiet h

/-- Quiet runs keep the links settled. -/
theorem LinkRun.settled (h₀ : Settled db₀)
    (h : LinkRun parseHeaderBlock LinkEvent.Quiet db₀ db) : Settled db := by
  induction h with
  | start => exact h₀
  | next _ hquiet hstep ih => exact ih.step hquiet hstep

/-- There is nothing to settle in an empty database. -/
theorem settled_empty : Settled Database.empty where
  acyclic accountId := Acyclic.of_lt fun a b hab => by cases hab
  clean m hm _ := (List.not_mem_nil hm).elim

/-- Links at rest. In every quiet run, once no row of an account is marked, every row of the account
records the state and the parent that would be decided now. -/
theorem links_at_rest (h₀ : Settled db₀) (hrun : LinkRun parseHeaderBlock LinkEvent.Quiet db₀ db)
    (hrest : ∀ m ∈ db.messages, m.accountId = accountId → m.threadDirty = false) :
    ∀ m ∈ db.messages, m.accountId = accountId → m.Agrees db :=
  fun m hm haccount => (hrun.settled h₀).clean m hm (hrest m hm haccount)

/-! ## Samples -/

/-- A transaction that commits goes on with a run. -/
theorem LinkRun.imports {allowed : LinkEvent → Database → Prop} {folderId : Uuid} {uidvalidity : ℕ}
    {records : List (ImportIds × MailboxHeaders)}
    (h : LinkRun parseHeaderBlock allowed db₀ db)
    (hallowed : allowed (.importWindow accountId folderId uidvalidity records) db)
    (hok : ((importWindow parseHeaderBlock accountId folderId uidvalidity records).run db).toBool =
      true) :
    LinkRun parseHeaderBlock allowed db₀
      (leftBy (importWindow parseHeaderBlock accountId folderId uidvalidity records) db) := by
  obtain ⟨r, hr⟩ := run_leftBy hok
  exact .next h hallowed (.imported hr)

/-- A reconciliation that commits goes on with a run. -/
theorem LinkRun.reconciles {allowed : LinkEvent → Database → Prop}
    (h : LinkRun parseHeaderBlock allowed db₀ db)
    (hallowed : allowed (.reconcileRow accountId messageId freshThreadId) db)
    (hok : (reconcileRow accountId messageId freshThreadId db).isSome = true) :
    LinkRun parseHeaderBlock allowed db₀ (reconciledBy accountId messageId freshThreadId db) := by
  obtain ⟨⟨outcome, db'⟩, hr⟩ := Option.isSome_iff_exists.mp hok
  have hleft : reconciledBy accountId messageId freshThreadId db = db' := by
    unfold reconciledBy
    rw [hr]
  exact hleft ▸ .next h hallowed (.reconciled hr)

/-- A row without a parent is on no way back. -/
theorem not_returnsThrough (hnone : recordedParent m.accountId db id = none) :
    ¬ ReturnsThrough id m db := by
  rintro ⟨parentId, -, n, hback, k, hk, hpass⟩
  obtain ⟨j, rfl⟩ : ∃ j, n = k + (j + 1) := ⟨n - k - 1, by omega⟩
  rw [ancestor_add_of_eq_some hpass, ancestor_succ, hnone] at hback
  cases hback

/-- A row without a parent disturbs no row. -/
theorem offReturns_of_none (hnone : ∀ m ∈ db.messages, recordedParent m.accountId db id = none) :
    OffReturns id db :=
  fun m hm _ => not_returnsThrough (hnone m hm)

/-- A message and its reply, imported. -/
def samplePairAdded : Database := leftBy (importWindow sampleHeaders 1 3 7 samplePair) Database.empty

/-- The reply is reconciled. -/
def samplePairReplied : Database := reconciledBy 1 2 9 samplePairAdded

/-- After both rows are reconciled the reply is linked, and both record what would be decided
now. -/
theorem links_at_rest_sample : recordedParent 1 (reconciledBy 1 1 10 samplePairReplied) 2 = some 1 ∧
    ∀ m ∈ (reconciledBy 1 1 10 samplePairReplied).messages, m.accountId = 1 →
      m.Agrees (reconciledBy 1 1 10 samplePairReplied) := by
  have himport : (importWindow sampleHeaders 1 3 7 samplePair).run Database.empty =
      .ok ((), samplePairAdded) := rfl
  have hnone : ∀ accountId id, recordedParent accountId samplePairAdded id = none := by
    intro accountId id
    rw [(sameParents_importWindow Database.empty).step _ _ himport accountId]
    rfl
  have hreply : ReconcilesWell 1 2 samplePairAdded := by
    refine ⟨fun row hrow parentId hsole n hn => ?_, fun row hrow => .inr ?_⟩
    · obtain ⟨k, rfl⟩ : ∃ k, n = k + 1 := ⟨n - 1, by unfold maxChainDepth at hn; omega⟩
      rw [ancestor_succ, hnone]
      exact nofun
    · exact offReturns_of_none fun m _ => hnone m.accountId 2
  have hfirst : ReconcilesWell 1 1 samplePairReplied := by
    refine ⟨fun row hrow parentId hsole => ?_, fun row hrow => .inr ?_⟩
    · -- the first message names no parent
      have hroot : (dirtyRow 1 1 samplePairReplied).all
          (fun row => (soleHolder 1 row samplePairReplied).isNone) = true := by
        decide +kernel
      rw [hrow] at hroot
      have hnoHolder : (soleHolder 1 row samplePairReplied).isNone = true := hroot
      rw [hsole] at hnoHolder
      cases hnoHolder
    · have haccounts : ∀ m ∈ samplePairReplied.messages.rows, m.accountId = 1 := by decide +kernel
      refine offReturns_of_none fun m hm => ?_
      rw [haccounts m hm]
      decide +kernel
  have hrun : LinkRun sampleHeaders LinkEvent.Quiet Database.empty
      (reconciledBy 1 1 10 samplePairReplied) :=
    ((LinkRun.start.imports trivial (by decide +kernel)).reconciles hreply
      (by decide +kernel)).reconciles hfirst (by decide +kernel)
  have hrest : ∀ m ∈ (reconciledBy 1 1 10 samplePairReplied).messages.rows, m.threadDirty = false := by
    decide +kernel
  have hlink : recordedParent 1 (reconciledBy 1 1 10 samplePairReplied) 2 = some 1 := by decide +kernel
  exact ⟨hlink, links_at_rest settled_empty hrun fun m hm _ => hrest m hm⟩

/-- Headers of three replies in a ring, and of a second message with the identifier of the third. -/
def ringHeaders (raw : Bytes) : ImportedHeaders where
  messageId := some (if raw = [] then "<a@list.example>" else
    if raw = [1] then "<b@list.example>" else "<c@list.example>")
  inReplyTo := if raw = [] then some "<b@list.example>" else
    if raw = [1] then some "<c@list.example>" else
    if raw = [2] then some "<a@list.example>" else none
  referenceIds := []
  sender := none
  replyTo := none
  recipients := none
  subject := none
  sentAt := none

/-- The ring is reconciled, and then the second message comes and all jobs are done. -/
def sampleRing : Database :=
  reconciledBy 1 4 14 (reconciledBy 1 2 13
    (leftBy (importWindow ringHeaders 1 3 7 [sampleRecord 4 [3]])
      (reconciledBy 1 3 12 (reconciledBy 1 2 11 (reconciledBy 1 1 10
        (leftBy (importWindow ringHeaders 1 3 7
          [sampleRecord 1 [], sampleRecord 2 [1], sampleRecord 3 [2]]) Database.empty))))))

/-- The third message stays ambiguous after the link is gone that would have closed the ring. -/
theorem links_adrift : LinkRun ringHeaders (fun _ _ => True) Database.empty sampleRing ∧
    (∀ m ∈ sampleRing.messages, m.threadDirty = false) ∧
    ∃ m ∈ sampleRing.messages, m.accountId = 1 ∧ ¬ m.Agrees sampleRing := by
  have hrun : LinkRun ringHeaders (fun _ _ => True) Database.empty sampleRing :=
    ((((((LinkRun.start.imports trivial (by decide +kernel)).reconciles trivial
      (by decide +kernel)).reconciles trivial (by decide +kernel)).reconciles trivial
      (by decide +kernel)).imports trivial (by decide +kernel)).reconciles trivial
      (by decide +kernel)).reconciles trivial (by decide +kernel)
  have hrest : ∀ m ∈ sampleRing.messages.rows, m.threadDirty = false := by decide +kernel
  have hthird : (findRow 1 3 sampleRing).any (fun m => m.threadLinkState == .ambiguous &&
      (decideLink 1 m sampleRing).any (·.state == .linked)) = true := by
    decide +kernel
  obtain ⟨m, hm, hboth⟩ := (Option.any_eq_true _ _).mp hthird
  obtain ⟨hstored, hnow⟩ := Bool.and_eq_true_iff.mp hboth
  obtain ⟨hmem, -, haccount⟩ := findRow_eq_some_iff.mp hm
  refine ⟨hrun, hrest, m, hmem, haccount, ?_⟩
  rintro ⟨decision, hdecision, hstate, -⟩
  rw [haccount] at hdecision
  rw [hdecision] at hnow
  have hlinked : decision.state = .linked := by simpa using hnow
  rw [hlinked, beq_iff_eq.mp hstored] at hstate
  cases hstate

end MailHub
