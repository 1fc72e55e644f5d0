import MailHub.Ordering.Parents
import MailHub.Sync.Threads

/-!
# Thread reconciliation

One dirty row is resolved in one transaction: its parent link is decided from its references and
the current holders, the row joins the thread of its chain root, and its descendants move with it.
The times and the normalized subjects of threads are left out.
-/

namespace MailHub

open Relational Ordering

/-- Chains longer than this are not walked to their end. -/
def maxChainDepth : ℕ := 1000

/-- Participants stored on one thread row; long recipient lists truncate. -/
def maxParticipants : ℕ := 50

/-- One row of an account. -/
def findRow (accountId id : Uuid) (db : Database) : Option Message :=
  (db.messages.find? id).filter (·.accountId == accountId)

/-- The parent that a row of an account records. -/
def recordedParent (accountId : Uuid) (db : Database) (id : Uuid) : Option Uuid :=
  (findRow accountId id db).bind (·.parentMessageId)

/-! ## Link decisions -/

/-- The link decision for one row. -/
inductive LinkDecision
  | root | pending | ambiguous
  | linked (parentId : Uuid)
  deriving DecidableEq, Repr

def LinkDecision.state : LinkDecision → ThreadLinkState
  | root => .root
  | pending => .pending
  | ambiguous => .ambiguous
  | linked _ => .linked

def LinkDecision.parentId : LinkDecision → Option Uuid
  | linked parentId => some parentId
  | _ => none

/-- Whether walking parents from one row reaches another, or nothing when the walk never ends: the
bound counts the rows seen, so a walk that enters a cycle goes around in it. -/
def chainReaches (accountId startId targetId : Uuid) (db : Database) : Option Bool :=
  walkMeets (recordedParent accountId db) targetId maxChainDepth [] (some startId)

/-- The rows of an account that hold an identifier. -/
def holders (accountId : Uuid) (identifier : String) (db : Database) : List Uuid :=
  (db.messages.select fun m => m.accountId == accountId && m.messageId == some identifier).map (·.id)

/-- Decide the parent link of one row, or nothing when the decision never comes. Subject and
participants play no part. -/
def decideLink (accountId : Uuid) (row : Message) (db : Database) : Option LinkDecision :=
  match resolveParentReference row.inReplyTo row.referenceIds with
  | .root => some .root
  | .conflicted => some .ambiguous
  | .candidate identifier =>
      -- a row that names itself stays unlinked and flagged
      if row.messageId = some identifier then some .ambiguous
      else
        match holders accountId identifier db with
        | [] => some .pending
        | [parentId] =>
            if parentId = row.id then some .ambiguous
            else (chainReaches accountId parentId row.id db).map fun reaches =>
              if reaches then .ambiguous else .linked parentId
        | _ => some .ambiguous

/-! ## Threads -/

/-- One row of a parent chain, with the fields that thread creation needs. -/
structure ChainRow where
  id : Uuid
  parentId : Option Uuid
  threadId : Option Uuid
  sender : Option EmailAddress
  recipients : Option Recipients
  deriving DecidableEq, Repr

def Message.chainRow (m : Message) : ChainRow :=
  ⟨m.id, m.parentMessageId, m.threadId, m.sender, m.recipients⟩

/-- Follow parents until a row has none; a chain that runs past the bound or meets itself ends with
the last row that was reached. -/
def walkRoot (accountId : Uuid) (db : Database) :
    ℕ → List Uuid → Option ChainRow → Uuid → Option ChainRow
  | 0, _, last, _ => last
  | n + 1, seen, last, current =>
      if current ∈ seen then last
      else
        match findRow accountId current db with
        | none => last
        | some row =>
            match row.parentMessageId with
            | none => some row.chainRow
            | some parent => walkRoot accountId db n (current :: seen) (some row.chainRow) parent

/-- The chain root of one row. -/
def chainRoot (accountId startId : Uuid) (db : Database) : ChainRow :=
  (walkRoot accountId db (maxChainDepth + 1) [] none startId).getD ⟨startId, none, none, none, none⟩

/-- The rows whose parent is one of these. -/
def childrenOf (ids : List Uuid) (db : Database) : List Uuid :=
  (db.messages.select fun m => m.parentMessageId.any (· ∈ ids)).map (·.id)

/-- These rows and their descendants, down so many generations. -/
def subtree (db : Database) : ℕ → List Uuid → List Uuid
  | 0, ids => ids
  | n + 1, ids => subtree db n (ids ++ (childrenOf ids db).filter (· ∉ ids))

/-- The rows that move when one row and its descendants join a thread. -/
def outsideThread (accountId rowId threadId : Uuid) (db : Database) (m : Message) : Bool :=
  let base := (findRow accountId rowId db).toList.map (·.id)
  m.accountId == accountId && m.id ∈ subtree db db.messages.rows.length base &&
    m.threadId != some threadId

/-- Rows that a condition selects get a thread. -/
def assignThread (p : Message → Bool) (threadId : Uuid) (db : Database) : Database :=
  { db with
    messages := db.messages.update p (fun m => { m with threadId := some threadId }) fun _ => rfl }

/-- Move one row and every descendant onto a thread. -/
def propagateThread (accountId rowId threadId : Uuid) (db : Database) : ℕ × Database :=
  let moves := outsideThread accountId rowId threadId db
  ((db.messages.select moves).length, assignThread moves threadId db)

/-- The participants of one thread, seeded from its root: the sender, then visible recipients, each
address once. -/
def threadParticipants (sender : Option EmailAddress) (recipients : Option Recipients) :
    List EmailAddress :=
  let visible := match recipients with
    | none => []
    | some recipients => recipients.to ++ recipients.cc
  let participants := (sender.toList ++ visible).foldl (fun participants address =>
    if participants.any (·.address == address.address) then participants
    else participants ++ [address]) []
  participants.take maxParticipants

/-- The thread of a root, or a new one, which the root joins. -/
def joinThread (accountId : Uuid) (root : ChainRow) (known : Option Uuid) (freshThreadId : Uuid)
    (db : Database) : Option (Uuid × ℕ × Database) :=
  match known with
  | some threadId => some (threadId, 0, db)
  | none => do
      let threads ← db.threads.insert?
        ⟨freshThreadId, accountId, threadParticipants root.sender root.recipients⟩
      some (freshThreadId, 1, assignThread (·.id == root.id) freshThreadId { db with threads })

/-! ## Rows -/

/-- What resolving one row did. -/
structure RowOutcome where
  messageId : Uuid
  state : ThreadLinkState
  parentId : Option Uuid
  changed : Bool
  unlinked : Bool
  threadsCreated : ℕ
  reassigned : ℕ
  deriving DecidableEq, Repr

/-- Record the link of a row. -/
def relink (id : Uuid) (decision : LinkDecision) (db : Database) : Database :=
  { db with
    messages := db.messages.update (·.id == id) (fun m =>
      { m with parentMessageId := decision.parentId, threadLinkState := decision.state })
      fun _ => rfl }

/-- Whether a decision differs from the link that a row records. -/
def linkChanged (row : Message) (decision : LinkDecision) : Bool :=
  row.threadLinkState != decision.state || row.parentMessageId != decision.parentId

/-- Record the link of a row when it changed. -/
def recordLink (row : Message) (decision : LinkDecision) (db : Database) : Database :=
  if linkChanged row decision then relink row.id decision db else db

/-- The thread that a row joins, unless it needs a new one. A row that just lost its parent is its
own chain root again and starts a fresh thread. -/
def knownThread (accountId : Uuid) (row : Message) (decision : LinkDecision) (root : ChainRow)
    (db : Database) : Option Uuid :=
  let detached := root.id == row.id && row.parentMessageId.isSome && decision.parentId.isNone
  if detached then none
  else root.threadId.or ((findRow accountId root.id db).bind (·.threadId))

/-- A row is no thread job any more. -/
def clearDirty (id : Uuid) (db : Database) : Database :=
  { db with
    messages := db.messages.update (·.id == id) (fun m => { m with threadDirty := false })
      fun _ => rfl }

/-- The row that a reconciliation resolves: it has not merged away, and no other pass resolved it
already. -/
def dirtyRow (accountId messageId : Uuid) (db : Database) : Option Message :=
  (findRow accountId messageId db).filter (·.threadDirty)

/-- Resolve one dirty row in one transaction; nothing comes back when it cannot commit, because a
walk never ends or the fresh identifier is taken. -/
def reconcileRow (accountId messageId freshThreadId : Uuid) (db : Database) :
    Option (Option RowOutcome × Database) :=
  match dirtyRow accountId messageId db with
  | none => some (none, db)
  | some row => do
      let decision ← decideLink accountId row db
      let linked := recordLink row decision db
      let root := chainRoot accountId row.id linked
      let known := knownThread accountId row decision root linked
      let (threadId, threadsCreated, joined) ← joinThread accountId root known freshThreadId linked
      let (reassigned, moved) := propagateThread accountId row.id threadId joined
      some (some
        { messageId := row.id
          state := decision.state
          parentId := decision.parentId
          changed := linkChanged row decision
          unlinked := row.threadLinkState == .linked && decision.state != .linked
          threadsCreated
          reassigned },
        clearDirty row.id moved)

variable {accountId messageId freshThreadId : Uuid} {db db' : Database}
  {outcome : Option RowOutcome}

/-- What a reconciliation that commits did. -/
theorem reconcileRow_cases
    (h : reconcileRow accountId messageId freshThreadId db = some (outcome, db')) :
    (dirtyRow accountId messageId db = none ∧ db' = db) ∨
      ∃ row decision threadId created joined, dirtyRow accountId messageId db = some row ∧
        decideLink accountId row db = some decision ∧
        joinThread accountId (chainRoot accountId row.id (recordLink row decision db))
          (knownThread accountId row decision
            (chainRoot accountId row.id (recordLink row decision db)) (recordLink row decision db))
          freshThreadId (recordLink row decision db) = some (threadId, created, joined) ∧
        db' = clearDirty row.id (propagateThread accountId row.id threadId joined).2 := by
  unfold reconcileRow at h
  cases hdirty : dirtyRow accountId messageId db with
  | none =>
      rw [hdirty] at h
      obtain ⟨-, rfl⟩ : none = outcome ∧ db = db' := by simpa using h
      exact .inl ⟨rfl, rfl⟩
  | some row =>
      rw [hdirty] at h
      obtain ⟨decision, hdecision, h⟩ := Option.bind_eq_some_iff.mp h
      obtain ⟨⟨threadId, created, joined⟩, hjoin, h⟩ := Option.bind_eq_some_iff.mp h
      obtain ⟨-, hdb⟩ := Prod.mk.inj (Option.some.inj h)
      exact .inr ⟨row, decision, threadId, created, joined, rfl, hdecision, hjoin, hdb.symm⟩

end MailHub
