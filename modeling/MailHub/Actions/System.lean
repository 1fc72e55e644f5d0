import MailHub.Actions.Service
import MailHub.Interleaving.Safety
import Mathlib.Logic.Function.Basic

/-!
# Mail actions as a system

The API and the worker run the same service on one database. The log records every remote write
with the run that made it, the run that claimed each item, and the items that a run found executing
when it read the items it was about to work on.
-/

namespace MailHub

open Relational Interleaving

/-! ## Operations and log -/

/-- One call of the action service in some process. -/
inductive ActionOp
  | submit (generation requestGeneration : Option Uuid) (submission : MailActionSubmission)
  | receipt (actionId : Uuid)
  | execute (generation : Option Uuid) (actionId : Uuid) (mailbox : ℕ)
  | reconcileIncomplete (generation : Option Uuid) (accountId : Uuid) (mailbox limit : ℕ)
  | dispositionRestoredActions (currentGeneration : Uuid)
  /-- A transaction of a service that leaves actions and items alone. -/
  | elsewhere (f : Database → Database)
      (hf : ∀ db, (f db).actions = db.actions ∧ (f db).actionItems = db.actionItems)

/-- The program of one call; its result goes back to the caller. -/
def ActionOp.run (libs : Libraries) : ActionOp → MailProgram Unit
  | submit generation g submission => do
      let _ ← MailHub.submitAction ⟨generation, libs⟩ g submission
  | receipt actionId => do let _ ← MailHub.receipt actionId
  | execute generation actionId mailbox => do
      let _ ← MailHub.executeAction ⟨generation, libs⟩ actionId mailbox
  | reconcileIncomplete generation accountId mailbox limit => do
      let _ ← MailHub.reconcileIncomplete ⟨generation, libs⟩ accountId mailbox limit
  | dispositionRestoredActions currentGeneration => do
      let _ ← MailHub.dispositionRestoredActions currentGeneration
  | elsewhere f _ => MailProgram.transact (modify f)

/-- The key of a prepared item. -/
def PreparedActionItem.key (item : PreparedActionItem) : Uuid × Uuid :=
  (item.actionId, item.itemKey)

/-- What a run did. -/
structure ActionLog where
  /-- Every remote write, with the worker that made it. -/
  applied : List (ℕ × PreparedActionItem)
  /-- The worker that claimed an item. -/
  claimant : Uuid × Uuid → Option ℕ
  /-- The items that a worker's reload found executing. -/
  found : List (ℕ × Uuid × Uuid)

/-- The log at the start. -/
def ActionLog.empty : ActionLog := ⟨[], fun _ => none, []⟩

/-- Whether an item has a status. -/
def itemHasStatus (status : ActionItemStatus) (key : Uuid × Uuid) (db : Database) : Bool :=
  (db.actionItems.find? key).any fun item => item.status == status

/-- The items of an action that are executing. -/
def executingKeys (actionId : Uuid) (db : Database) : List (Uuid × Uuid) :=
  ((itemsOf actionId db).filter fun item => item.status == .executing).map Keyed.key

/-- The log after a request. -/
def ActionLog.afterCall (i : ℕ) (log : ActionLog) : MailCall → ActionLog
  | .applyAction _ item => { log with applied := log.applied ++ [(i, item)] }
  | _ => log

/-- The log after a commit. -/
def ActionLog.afterCommit (i : ℕ) (db db' : Database) (log : ActionLog) : Option MailTag → ActionLog
  | some (.claimItem actionId itemKey) =>
      if itemHasStatus .queued (actionId, itemKey) db &&
          itemHasStatus .executing (actionId, itemKey) db' then
        { log with claimant := Function.update log.claimant (actionId, itemKey) (some i) }
      else log
  | some (.reloadItems actionId) =>
      { log with found := log.found ++ (executingKeys actionId db).map fun key => (i, key) }
  | _ => log

/-- Mail actions with given libraries: mailboxes and executors may answer anything, every request
may fail, and every transaction may meet a database fault. -/
def actionSystem (libs : Libraries) : System mailSignature ActionLog where
  Op := ActionOp
  program := ActionOp.run libs
  Tick := Empty
  advance := fun t => nomatch t
  respond := fun i c _ log => some (log.afterCall i c)
  fault := Failure.isDatabaseFault
  observe := fun i tag db db' log => log.afterCommit i db db' tag
  observe_read := fun _ _ _ => rfl
  retire := fun _ log => log

/-- The start of a run: no actions, and whatever else the database holds. -/
structure ActionStart (c : Config mailSignature ActionLog) : Prop where
  actions : c.world.store.actions = .empty
  actionItems : c.world.store.actionItems = .empty
  log : c.world.outside = .empty
  workers : c.workers = []

/-! ## How actions evolve -/

/-- Every item is named by the occurrence that it targets. -/
def Targeted (db : Database) : Prop :=
  ∀ item ∈ db.actionItems, item.target.occurrenceId = item.itemKey

/-- How the actions evolve: they stay, with their kind, and no item returns to the queue or changes
its target. -/
structure ActionsEvolve (db db' : Database) : Prop where
  action : ∀ id action, db.actions.find? id = some action →
    ∃ action', db'.actions.find? id = some action' ∧ action'.kind = action.kind
  item : ∀ key item, db.actionItems.find? key = some item →
    ∃ item', db'.actionItems.find? key = some item' ∧
      (item'.status = .queued → item.status = .queued)
  targeted : Targeted db → Targeted db'

namespace ActionsEvolve

variable {db db' : Database}

theorem of_same (ha : db'.actions = db.actions) (hi : db'.actionItems = db.actionItems) :
    ActionsEvolve db db' where
  action id action h := ⟨action, by rw [ha, h], rfl⟩
  item key item h := ⟨item, by rw [hi, h], id⟩
  targeted h := by
    unfold Targeted
    rw [hi]
    exact h

theorem refl (db : Database) : ActionsEvolve db db := .of_same rfl rfl

theorem trans {db₁ db₂ db₃ : Database} (h₁ : ActionsEvolve db₁ db₂) (h₂ : ActionsEvolve db₂ db₃) :
    ActionsEvolve db₁ db₃ where
  action id action h := by
    obtain ⟨action₂, ha₂, hk₂⟩ := h₁.action id action h
    obtain ⟨action₃, ha₃, hk₃⟩ := h₂.action id action₂ ha₂
    exact ⟨action₃, ha₃, hk₃.trans hk₂⟩
  item key item h := by
    obtain ⟨item₂, hi₂, hq₂⟩ := h₁.item key item h
    obtain ⟨item₃, hi₃, hq₃⟩ := h₂.item key item₂ hi₂
    exact ⟨item₃, hi₃, fun hq => hq₂ (hq₃ hq)⟩
  targeted h := h₂.targeted (h₁.targeted h)

instance : Std.Refl ActionsEvolve := ⟨refl⟩
instance : IsTrans Database ActionsEvolve := ⟨fun _ _ _ => trans⟩

/-- New rows leave the ones that are there alone. -/
theorem of_insert_action {action : Action} {actions : Table Action}
    (h : db.actions.insert? action = some actions) : ActionsEvolve db { db with actions } where
  action id a ha := by
    refine ⟨a, ?_, rfl⟩
    have hne : Keyed.key action ≠ id := by
      rintro rfl
      exact absurd (ha.symm.trans (Table.find?_of_insert? h)) (by simp)
    rw [Table.find?_insert? h, if_neg hne, ha]
  item key item hi := ⟨item, hi, id⟩
  targeted ht := ht

theorem of_insert_item {item : ActionItem} {actionItems : Table ActionItem}
    (htarget : item.target.occurrenceId = item.itemKey)
    (h : db.actionItems.insert? item = some actionItems) :
    ActionsEvolve db { db with actionItems } where
  action id a ha := ⟨a, ha, rfl⟩
  item key i hi := by
    refine ⟨i, ?_, id⟩
    have hne : Keyed.key item ≠ key := by
      rintro rfl
      exact absurd (hi.symm.trans (Table.find?_of_insert? h)) (by simp)
    rw [Table.find?_insert? h, if_neg hne, hi]
  targeted ht i hi := by
    rcases (Table.mem_insert? h).mp hi with hold | rfl
    · exact ht i hold
    · exact htarget

/-- Rewritten actions keep their kind. -/
theorem of_update_actions {p : Action → Bool} {f : Action → Action}
    {hf : ∀ a, Keyed.key (f a) = Keyed.key a} (hkind : ∀ a, (f a).kind = a.kind) :
    ActionsEvolve db { db with actions := db.actions.update p f hf } where
  action id a h := by
    refine ⟨if p a then f a else a, by rw [Table.find?_update, h]; rfl, ?_⟩
    split
    · exact hkind a
    · rfl
  item key i h := ⟨i, h, id⟩
  targeted ht := ht

/-- Rewritten items stay out of the queue, with their target. -/
theorem of_update_items {p : ActionItem → Bool} {f : ActionItem → ActionItem}
    {hf : ∀ i, Keyed.key (f i) = Keyed.key i} (hqueue : ∀ i, (f i).status ≠ .queued)
    (htarget : ∀ i, (f i).target = i.target) :
    ActionsEvolve db { db with actionItems := db.actionItems.update p f hf } where
  action id a h := ⟨a, h, rfl⟩
  item key i h := by
    refine ⟨if p i then f i else i, by rw [Table.find?_update, h]; rfl, ?_⟩
    split
    · exact fun hq => absurd hq (hqueue i)
    · exact id
  targeted ht i hi := by
    obtain ⟨i₀, hi₀, rfl⟩ := List.mem_map.mp hi
    split
    · have hkey : (f i₀).itemKey = i₀.itemKey := (Prod.mk.inj (hf i₀)).2
      rw [htarget, hkey]
      exact ht i₀ hi₀
    · exact ht i₀ hi₀

end ActionsEvolve

/-! ## What each transaction does to actions -/

section

variable {db db' : Database}

/-- Every successful run of the statements evolves the actions. -/
abbrev EvolvesActions {α : Type} (db : Database) (t : Tx α) : Prop := Steps ActionsEvolve db t

theorem recordEvent_evolves (actor : Actor) (type entityType : String) (id : Uuid) :
    EvolvesActions db (Tx.recordEvent actor type entityType id) :=
  ⟨fun _ _ h => by
    obtain rfl := (Prod.mk.inj (Except.ok.inj h)).2
    exact .of_same rfl rfl⟩

theorem insertItems_evolves {actionId : Uuid} {targets : List ActionItemTarget} :
    EvolvesActions db (insertItems actionId targets) := by
  induction targets generalizing db with
  | nil => exact .pure ()
  | cons target targets ih =>
      refine .get_bind (.bind ⟨fun t db₁ h => ?_⟩ fun t db₁ h => ?_)
      · obtain ⟨-, rfl⟩ := Tx.inserted_ok.mp h
        exact .refl _
      · obtain ⟨hins, rfl⟩ := Tx.inserted_ok.mp h
        exact .set_bind (.of_insert_item rfl hins) ih

theorem commitSubmission_evolves {action : Action} {targets : List ActionItemTarget} :
    EvolvesActions db (commitSubmission action targets) := by
  refine .get_bind (.ite (fun _ => .throw_bind) fun _ => .bind ⟨fun t db₁ h => ?_⟩ fun t db₁ h => ?_)
  · obtain ⟨-, rfl⟩ := Tx.inserted_ok.mp h
    exact .refl _
  · obtain ⟨hins, rfl⟩ := Tx.inserted_ok.mp h
    refine .set_bind (.of_insert_action hins) ?_
    exact .bind insertItems_evolves fun _ _ _ => recordEvent_evolves ..

theorem finalizeActionStatus_evolves {actionId : Uuid} :
    EvolvesActions db (finalizeActionStatus actionId) := by
  refine .get_bind (.ite (fun _ => ?_) fun _ => .ite (fun _ => ?_) fun _ => .pure ())
  · exact .set (.of_update_actions fun _ => rfl)
  · exact .set_bind (.of_update_actions fun _ => rfl) (recordEvent_evolves ..)

theorem recordObservation_evolves {occurrenceId : Uuid} {write : ItemWrite} {now : Time} :
    EvolvesActions db (recordObservation occurrenceId write now) := by
  refine .get_bind ?_
  cases findOccurrence occurrenceId db with
  | none => exact .pure ()
  | some current => exact .ite (fun _ => .set (.of_same rfl rfl)) fun _ => .pure ()

theorem disposeItem_evolves {actionId : Uuid} {item : ActionItem} {write : ItemWrite} {now : Time}
    (hwrite : write.status ≠ .queued) :
    EvolvesActions db (disposeItem actionId item write now) := by
  refine .get_bind (.ite (fun _ => .set_bind (.of_update_items (fun _ => hwrite) fun _ => rfl) ?_)
    fun _ => .pure ())
  have hevent : ∀ db, EvolvesActions db (do
      if write.applied then
        Tx.recordEvent .user "action.applied" "occurrence" item.target.occurrenceId
      finalizeActionStatus actionId) := fun db =>
    .ite (fun _ => .bind (recordEvent_evolves ..) fun _ _ _ => finalizeActionStatus_evolves)
      fun _ => finalizeActionStatus_evolves
  exact .ite (fun _ => .bind recordObservation_evolves fun _ _ _ => hevent _) fun _ => hevent _

theorem holdItems_evolves {actionId : Uuid} {fromStatus toStatus : ActionItemStatus}
    (hto : toStatus ≠ .queued) : EvolvesActions db (holdItems actionId fromStatus toStatus) :=
  .get_bind (.set_bind (.of_update_items (fun _ => hto) fun _ => rfl) (.pure _))

theorem holdRestored_evolves {actionId : Uuid} : EvolvesActions db (holdRestored actionId) := by
  refine .bind (holdItems_evolves (by simp)) fun _ _ _ => .bind (holdItems_evolves (by simp))
    fun _ _ _ => .get_bind (.set_bind (.of_update_actions fun _ => rfl) ?_)
  exact .ite (fun _ => .pure _) fun _ => .bind (recordEvent_evolves ..) fun _ _ _ => .pure _

theorem claimItem_evolves {actionId itemKey : Uuid} :
    EvolvesActions db (claimItem actionId itemKey) :=
  .get_bind (.set_bind (.of_update_items (fun _ => by simp) fun _ => rfl) (.pure _))

end

end MailHub
