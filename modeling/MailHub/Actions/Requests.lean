import MailHub.Actions.Runs
import MailHub.Interleaving.Roles
import Mathlib.Data.List.Perm.Subperm

/-!
# The requests behind the actions

An action is written once, by the submission that queued it, with the scope of its request and with
exactly the targets of that scope. Whatever works on it later changes its status and the receipts
of its items, and no key has two actions.
-/

namespace MailHub

open Relational Interleaving

variable {libs : Libraries} {ops : ℕ → ActionOp} {i : ℕ} {α : Type} {db db' : Database}

/-! ## What later steps leave alone -/

/-- The action as its submission queued it. -/
def Action.asQueued (action : Action) : Action := { action with status := .queued }

/-- The item as the submission of its action queued it. -/
def ActionItem.asQueued (item : ActionItem) : ActionItem :=
  { item with status := .queued, outcome := none }

/-- The same requests are queued, and have been worked on. -/
structure SameRequests (db db' : Database) : Prop where
  actions : db'.actions.rows.map Action.asQueued = db.actions.rows.map Action.asQueued
  items : db'.actionItems.rows.map ActionItem.asQueued =
    db.actionItems.rows.map ActionItem.asQueued

namespace SameRequests

theorem of_same (ha : db'.actions = db.actions) (hi : db'.actionItems = db.actionItems) :
    SameRequests db db' := ⟨by rw [ha], by rw [hi]⟩

theorem refl (db : Database) : SameRequests db db := ⟨rfl, rfl⟩

theorem trans {db₁ db₂ db₃ : Database} (h : SameRequests db₁ db₂) (h' : SameRequests db₂ db₃) :
    SameRequests db₁ db₃ := ⟨h'.actions.trans h.actions, h'.items.trans h.items⟩

instance : Std.Refl SameRequests := ⟨refl⟩
instance : IsTrans Database SameRequests := ⟨fun _ _ _ => trans⟩

/-- An action that is there was there, as it was queued. -/
theorem mem_action (h : SameRequests db db') {a' : Action} (ha : a' ∈ db'.actions) :
    ∃ a ∈ db.actions, a'.asQueued = a.asQueued := by
  have hmem : a'.asQueued ∈ db.actions.rows.map Action.asQueued := by
    rw [← h.actions]
    exact List.mem_map_of_mem ha
  obtain ⟨a, hmema, heq⟩ := List.mem_map.mp hmem
  exact ⟨a, hmema, heq.symm⟩

/-- An item that is there was there, as it was queued. -/
theorem mem_item (h : SameRequests db db') {item' : ActionItem} (hi : item' ∈ db'.actionItems) :
    ∃ item ∈ db.actionItems, item'.asQueued = item.asQueued := by
  have hmem : item'.asQueued ∈ db.actionItems.rows.map ActionItem.asQueued := by
    rw [← h.items]
    exact List.mem_map_of_mem hi
  obtain ⟨item, hmemi, heq⟩ := List.mem_map.mp hmem
  exact ⟨item, hmemi, heq.symm⟩

theorem symm (h : SameRequests db db') : SameRequests db' db := ⟨h.actions.symm, h.items.symm⟩

/-- Rewriting rows keeps what a function does not see of them. -/
theorem map_update {ρ κ β : Type} [Keyed ρ κ] {t : Table ρ} {p : ρ → Bool} {f : ρ → ρ}
    (hf : ∀ r, Keyed.key (f r) = Keyed.key r) {g : ρ → β} (hg : ∀ r, g (f r) = g r) :
    (t.update p f hf).rows.map g = t.rows.map g := by
  change (t.rows.map fun r => if p r then f r else r).map g = t.rows.map g
  rw [List.map_map]
  refine List.map_congr_left fun r _ => ?_
  simp only [Function.comp_apply]
  split
  · exact hg r
  · rfl

theorem of_update_actions {p : Action → Bool} {f : Action → Action}
    {hf : ∀ a, Keyed.key (f a) = Keyed.key a} (h : ∀ a, (f a).asQueued = a.asQueued) :
    SameRequests db { db with actions := db.actions.update p f hf } := ⟨map_update hf h, rfl⟩

theorem of_update_items {p : ActionItem → Bool} {f : ActionItem → ActionItem}
    {hf : ∀ i, Keyed.key (f i) = Keyed.key i} (h : ∀ i, (f i).asQueued = i.asQueued) :
    SameRequests db { db with actionItems := db.actionItems.update p f hf } :=
  ⟨rfl, map_update hf h⟩

end SameRequests

/-! ## The transactions that work on actions -/

theorem recordEvent_sameRequests (actor : Actor) (type entityType : String) (id : Uuid) :
    Steps SameRequests db (Tx.recordEvent actor type entityType id) :=
  ⟨fun _ _ h => by
    obtain rfl := (Prod.mk.inj (Except.ok.inj h)).2
    exact .of_same rfl rfl⟩

theorem finalizeActionStatus_sameRequests {actionId : Uuid} :
    Steps SameRequests db (finalizeActionStatus actionId) := by
  refine .get_bind (.ite (fun _ => ?_) fun _ => .ite (fun _ => ?_) fun _ => .pure ())
  · exact .set (.of_update_actions fun _ => rfl)
  · exact .set_bind (.of_update_actions fun _ => rfl) (recordEvent_sameRequests ..)

theorem recordObservation_sameRequests {occurrenceId : Uuid} {write : ItemWrite} {now : Time} :
    Steps SameRequests db (recordObservation occurrenceId write now) := by
  refine .get_bind ?_
  cases findOccurrence occurrenceId db with
  | none => exact .pure ()
  | some current => exact .ite (fun _ => .set (.of_same rfl rfl)) fun _ => .pure ()

theorem disposeItem_sameRequests {actionId : Uuid} {item : ActionItem} {write : ItemWrite}
    {now : Time} : Steps SameRequests db (disposeItem actionId item write now) := by
  refine .get_bind (.ite (fun _ => .set_bind (.of_update_items fun _ => rfl) ?_) fun _ => .pure ())
  have hevent : ∀ db, Steps SameRequests db (do
      if write.applied then
        Tx.recordEvent .user "action.applied" "occurrence" item.target.occurrenceId
      finalizeActionStatus actionId) := fun db =>
    .ite
      (fun _ => .bind (recordEvent_sameRequests ..) fun _ _ _ => finalizeActionStatus_sameRequests)
      fun _ => finalizeActionStatus_sameRequests
  exact .ite (fun _ => .bind recordObservation_sameRequests fun _ _ _ => hevent _) fun _ => hevent _

theorem claimItem_sameRequests {actionId itemKey : Uuid} :
    Steps SameRequests db (claimItem actionId itemKey) :=
  .get_bind (.set_bind (.of_update_items fun _ => rfl) (.pure _))

theorem holdItems_sameRequests {actionId : Uuid} {fromStatus toStatus : ActionItemStatus} :
    Steps SameRequests db (holdItems actionId fromStatus toStatus) :=
  .get_bind (.set_bind (.of_update_items fun _ => rfl) (.pure _))

theorem holdRestored_sameRequests {actionId : Uuid} :
    Steps SameRequests db (holdRestored actionId) := by
  refine .bind holdItems_sameRequests fun _ _ _ => .bind holdItems_sameRequests
    fun _ _ _ => .get_bind (.set_bind (.of_update_actions fun _ => rfl) ?_)
  exact .ite (fun _ => .pure _) fun _ => .bind (recordEvent_sameRequests ..) fun _ _ _ => .pure _

/-! ## The programs that work on actions -/

/-- What a program that submits nothing may do. -/
def workingVocabulary : Vocabulary mailSignature :=
  ⟨fun _ db db' => SameRequests db db', fun _ => True⟩

/-- A program that submits nothing. -/
abbrev Works (p : MailProgram α) : Prop := p.Within workingVocabulary

namespace Works

theorem transaction {tag : Option MailTag} {t : Tx α} (h : ∀ db, Steps SameRequests db t) :
    Works (Program.transaction (S := mailSignature) tag t) :=
  ⟨fun db b db' hrun => (h db).step b db' hrun, fun r => .ofExcept r⟩

theorem query (f : Database → α) : Works (MailProgram.query f) := .read fun db => .refl db

theorem ask (c : MailCall) : Works (MailProgram.ask c) := .request trivial

theorem throw_bind {β : Type} {e : Failure} {g : α → MailProgram β} :
    Works ((throw e : MailProgram α) >>= g) := Program.Within.throw (S := mailSignature) e

theorem loadAction (actionId : Uuid) : Works (loadAction actionId) := by
  refine .bind (query _) fun row => ?_
  cases row with
  | some row => exact .pure row
  | none => exact .throw _

theorem receiptOf (action : Action) : Works (receiptOf action) :=
  .bind (query _) fun _ => .pure _

theorem receipt (actionId : Uuid) : Works (receipt actionId) :=
  .bind (loadAction actionId) receiptOf

theorem commitDisposition (actionId : Uuid) (item : ActionItem) (write : ItemWrite) :
    Works (commitDisposition actionId item write) :=
  .bind (ask _) fun _ => transaction fun _ => disposeItem_sameRequests

theorem conflictItems (actionId : Uuid) (items : List ActionItem) (reason : String)
    (extra : List (String × OutcomeValue)) : Works (conflictItems actionId items reason extra) :=
  .bind (.forIn fun _ _ _ => .bind (commitDisposition ..) fun _ => .pure _) fun _ => .pure _

theorem assessmentOf (d : Deployment) (action : Action) : Works (assessmentOf d action) := by
  refine .bind (query _) fun status => ?_
  cases assessJob status action.recoveryGeneration <;> exact .pure _

theorem applyPrepared (mailbox : ℕ) (prepared : PreparedActionItem) :
    Works (applyPrepared mailbox prepared) := by
  refine .bind (.attempt (ask _)) fun r => ?_
  cases r with
  | ok outcome => exact .pure outcome
  | error cause => exact .pure _

theorem applyItem (d : Deployment) (mailbox : ℕ) (g : SelectedGroup) (item : ActionItem)
    (remote : ActionMailboxFlags) : Works (applyItem d mailbox g item remote) := by
  refine .bind (transaction fun _ => claimItem_sameRequests) fun claimed => ?_
  refine .ite (fun _ => .pure _) fun _ => .bind (assessmentOf d g.action) fun stop => ?_
  cases stop with
  | some stop => exact .pure _
  | none =>
      exact .bind (applyPrepared _ _) fun outcome => .bind (commitDisposition ..) fun _ => .pure _

theorem executeItem (d : Deployment) (mailbox : ℕ) (g : SelectedGroup) (item : ActionItem) :
    Works (executeItem d mailbox g item) := by
  unfold MailHub.executeItem
  cases g.remote item.target.uid with
  | none => exact .bind (commitDisposition ..) fun _ => .pure _
  | some remote =>
      refine .bind (query _) fun occurrence => ?_
      cases preflight g item remote occurrence with
      | some write => exact .bind (commitDisposition ..) fun _ => .pure _
      | none => exact applyItem d mailbox g item remote

theorem executeItems (d : Deployment) (mailbox : ℕ) (g : SelectedGroup) (items : List ActionItem) :
    Works (executeItems d mailbox g items) := by
  induction items with
  | nil => exact .pure _
  | cons item items ih =>
      refine .bind (ask _) fun recheck => .ite (fun _ => .bind (conflictItems ..) fun _ => .pure _)
        fun _ => .bind (executeItem d mailbox g item) fun stop => ?_
      cases stop with
      | some stop => exact .pure _
      | none => exact ih

theorem executeFolderGroup (d : Deployment) (mailbox : ℕ) (action : Action)
    (destination : Option (Uuid × String)) (folderId : Uuid) (items : List ActionItem) :
    Works (executeFolderGroup d mailbox action destination folderId items) := by
  refine .bind (query _) fun folder => ?_
  cases folder with
  | none => exact .bind (conflictItems ..) fun _ => .pure _
  | some folder =>
      dsimp only
      cases folder.uidvalidity with
      | none => exact .bind (conflictItems ..) fun _ => .pure _
      | some uidvalidity =>
          exact .bind (ask _) fun selected => .ite
            (fun _ => .bind (conflictItems ..) fun _ => .pure _)
            fun _ => .bind (ask _) fun _ => executeItems ..

theorem executeGroups (d : Deployment) (mailbox : ℕ) (action : Action)
    (destination : Option (Uuid × String)) (pending : List ActionItem) (folderIds : List Uuid) :
    Works (executeGroups d mailbox action destination pending folderIds) := by
  induction folderIds with
  | nil => exact .pure _
  | cons folderId folderIds ih =>
      refine .bind (executeFolderGroup ..) fun stop => ?_
      cases stop with
      | some stop => exact .pure _
      | none => exact ih

theorem workItems (d : Deployment) (mailbox : ℕ) (action : Action)
    (destination : Option (Uuid × String)) : Works (workItems d mailbox action destination) :=
  .bind (transaction fun _ => .get_bind (.pure _)) fun _ => executeGroups ..

theorem runItems (d : Deployment) (mailbox : ℕ) (action : Action) :
    Works (runItems d mailbox action) := by
  refine .ite (fun _ => .bind (query _) fun destination => ?_) fun _ => workItems ..
  cases destination with
  | none => exact .bind (.bind (query _) fun _ => conflictItems ..) fun _ => .pure _
  | some row => exact workItems ..

theorem holdInterrupted (action : Action) : Works (holdInterrupted action) :=
  .bind (query _) fun _ => .bind (.forIn fun _ _ _ => .ite
    (fun _ => .bind (commitDisposition ..) fun _ => .pure _) fun _ => .pure _) fun _ => .pure _

theorem blockedResult (d : Deployment) (actionId : Uuid) (stop : ExecutionStop) :
    Works (blockedResult d actionId stop) := by
  refine .bind (receipt actionId) fun _ => ?_
  cases stop with
  | blocked => exact .pure _
  | stale => exact .bind (query _) fun _ => .pure _

theorem executeAction (d : Deployment) (actionId : Uuid) (mailbox : ℕ) :
    Works (executeAction d actionId mailbox) := by
  refine .bind (loadAction actionId) fun action => .ite
    (fun _ => .bind (receiptOf action) fun _ => .pure _)
    fun _ => .bind (assessmentOf d action) fun stop => ?_
  cases stop with
  | some stop => exact blockedResult ..
  | none =>
      refine .bind (holdInterrupted action) fun _ => .bind (runItems d mailbox action) fun stop => ?_
      cases stop with
      | some stop => exact blockedResult ..
      | none =>
          exact .bind (transaction fun _ => finalizeActionStatus_sameRequests) fun _ =>
            .bind (receipt _) fun _ => .pure _

theorem reconcileIncomplete (d : Deployment) (accountId : Uuid) (mailbox limit : ℕ) :
    Works (reconcileIncomplete d accountId mailbox limit) :=
  .ite (fun _ => throw_bind) fun _ => .bind (query _) fun _ => .bind (.forIn fun _ _ _ =>
    .bind (executeAction ..) fun _ => .pure _) fun _ => .pure _

theorem dispositionRestoredActions (currentGeneration : Uuid) :
    Works (dispositionRestoredActions currentGeneration) := by
  refine .bind (query _) fun restored => .bind (.forIn fun id _ _ => ?_) fun _ => .pure _
  refine .bind (transaction fun _ => holdRestored_sameRequests) fun held => ?_
  cases held with
  | some counts => exact .pure _
  | none => exact .bind (.pure ()) fun _ => .pure _

theorem existingReceipt (existing : Action) (requestHash : String) :
    Works (existingReceipt existing requestHash) :=
  .ite (fun _ => throw_bind) fun _ => receiptOf existing

end Works

/-! ## Submissions -/

/-- What a submission queues: an action of its own scope, with the targets of that scope. -/
structure Queues (submission : MailActionSubmission) (action : Action)
    (targets : List ActionItemTarget) : Prop where
  key : action.idempotencyKey = submission.idempotencyKey
  scope : action.request = canonicalScope submission
  kind : action.kind = submission.kind
  account : action.accountId = submission.accountId
  mem : ∀ target ∈ targets, target.occurrenceId ∈ (canonicalScope submission).occurrenceIds
  length : targets.length = (canonicalScope submission).occurrenceIds.length

/-- What one operation may commit. -/
def ActionOp.Commits (op : ActionOp) (db db' : Database) : Prop :=
  SameRequests db db' ∨ ∃ generation g submission action targets,
    op = .submit generation g submission ∧ Queues submission action targets ∧
      (commitSubmission action targets).run db = .ok ((), db')

/-- The item that a target is queued as. -/
def ActionItemTarget.queued (actionId : Uuid) (target : ActionItemTarget) : ActionItem :=
  ⟨actionId, target.occurrenceId, target, .queued, none⟩

theorem insertItems_rows {actionId : Uuid} {targets : List ActionItemTarget}
    (h : (insertItems actionId targets).run db = .ok ((), db')) :
    db'.actions = db.actions ∧
      db'.actionItems.rows = db.actionItems.rows ++ targets.map (·.queued actionId) := by
  induction targets generalizing db with
  | nil =>
      obtain rfl : db = db' := by simpa [insertItems] using h
      simp
  | cons target targets ih =>
      simp [insertItems] at h
      obtain ⟨actionItems, hinsert, hrest⟩ := h
      obtain ⟨hactions, hrows⟩ := ih hrest
      refine ⟨hactions, ?_⟩
      rw [hrows]
      change actionItems.rows ++ _ = _
      rw [Table.rows_of_insert? hinsert]
      simp [ActionItemTarget.queued]

/-- A submission that commits adds its action, under a new key, and its items. -/
theorem commitSubmission_rows {action : Action} {targets : List ActionItemTarget}
    (h : (commitSubmission action targets).run db = .ok ((), db')) :
    (∀ a ∈ db.actions, a.idempotencyKey ≠ action.idempotencyKey) ∧
      (∀ a ∈ db.actions, a.id ≠ action.id) ∧ db'.actions.rows = db.actions.rows ++ [action] ∧
      db'.actionItems.rows = db.actionItems.rows ++ targets.map (·.queued action.id) := by
  simp only [commitSubmission, StateT.run_bind, StateT.run_get, pure_bind] at h
  by_cases hkey : (findActionByKey action.idempotencyKey db).isSome = true
  · rw [if_pos hkey] at h
    simp at h
  rw [if_neg hkey] at h
  simp at h
  obtain ⟨actions, hinsert, u, db₁, hitems, rfl⟩ := h
  obtain ⟨hactions, hrows⟩ := insertItems_rows hitems
  refine ⟨fun a ha hsame => hkey ?_, fun a ha => ?_, ?_, hrows⟩
  · exact List.find?_isSome.mpr ⟨a, ha, by simp [hsame]⟩
  · exact Table.find?_eq_none_iff.mp (Table.find?_of_insert? hinsert) a ha
  · change db₁.actions.rows = _
    rw [hactions]
    exact Table.rows_of_insert? hinsert

/-! ## What the database keeps -/

/-- Every action has its own key and exactly the targets of its scope. -/
structure ActionsFrozen (db : Database) : Prop where
  keys : ∀ a ∈ db.actions, ∀ b ∈ db.actions, a.idempotencyKey = b.idempotencyKey → a = b
  owned : ∀ item ∈ db.actionItems, ∃ a ∈ db.actions, a.id = item.actionId
  targets : ∀ a ∈ db.actions, ∀ o, o ∈ a.request.occurrenceIds ↔
    ∃ item ∈ db.actionItems, item.actionId = a.id ∧ item.target.occurrenceId = o

theorem asQueued_inj {a b : Action} (h : a.asQueued = b.asQueued) :
    a.id = b.id ∧ a.idempotencyKey = b.idempotencyKey ∧ a.kind = b.kind ∧
      a.accountId = b.accountId ∧ a.request = b.request := by
  cases a
  cases b
  simp_all [Action.asQueued]

theorem ActionItem.asQueued_inj {a b : ActionItem} (h : a.asQueued = b.asQueued) :
    a.actionId = b.actionId ∧ a.target = b.target := by
  cases a
  cases b
  simp_all [ActionItem.asQueued]

/-- Work on the actions keeps it. -/
theorem ActionsFrozen.same (h : ActionsFrozen db) (hsame : SameRequests db db') :
    ActionsFrozen db' where
  keys a' ha' b' hb' hkey := by
    obtain ⟨a, ha, heqa⟩ := hsame.mem_action ha'
    obtain ⟨b, hb, heqb⟩ := hsame.mem_action hb'
    obtain ⟨hida, hkeya, -⟩ := asQueued_inj heqa
    obtain ⟨hidb, hkeyb, -⟩ := asQueued_inj heqb
    obtain rfl := h.keys a ha b hb (hkeya.symm.trans (hkey.trans hkeyb))
    exact Table.eq_of_key_eq ha' hb' (hida.trans hidb.symm)
  owned item' hi' := by
    obtain ⟨item, hi, heq⟩ := hsame.mem_item hi'
    obtain ⟨a, ha, hid⟩ := h.owned item hi
    obtain ⟨a', ha', heqa⟩ := hsame.symm.mem_action ha
    obtain ⟨hid', -⟩ := asQueued_inj heqa
    exact ⟨a', ha', hid'.symm.trans (hid.trans (ActionItem.asQueued_inj heq).1.symm)⟩
  targets a' ha' o := by
    obtain ⟨a, ha, heqa⟩ := hsame.mem_action ha'
    obtain ⟨hida, -, -, -, hrequest⟩ := asQueued_inj heqa
    rw [hrequest, h.targets a ha o]
    constructor
    · rintro ⟨item, hi, hid, rfl⟩
      obtain ⟨item', hi', heq⟩ := hsame.symm.mem_item hi
      obtain ⟨hown, htarget⟩ := ActionItem.asQueued_inj heq
      exact ⟨item', hi', hown.symm.trans (hid.trans hida.symm), by rw [htarget]⟩
    · rintro ⟨item', hi', hid, rfl⟩
      obtain ⟨item, hi, heq⟩ := hsame.mem_item hi'
      obtain ⟨hown, htarget⟩ := ActionItem.asQueued_inj heq
      exact ⟨item, hi, hown.symm.trans (hid.trans hida), by rw [htarget]⟩

/-- As many different targets as the scope names are all that it names. -/
theorem Queues.covers {submission : MailActionSubmission} {action : Action}
    {targets : List ActionItemTarget} (h : Queues submission action targets)
    (hnodup : (targets.map (·.occurrenceId)).Nodup) {o : Uuid}
    (ho : o ∈ (canonicalScope submission).occurrenceIds) :
    ∃ target ∈ targets, target.occurrenceId = o := by
  have hsub : targets.map (·.occurrenceId) ⊆ (canonicalScope submission).occurrenceIds := by
    intro p hp
    obtain ⟨target, htarget, rfl⟩ := List.mem_map.mp hp
    exact h.mem target htarget
  have hperm := (List.subperm_of_subset hnodup hsub).perm_of_length_le
    (le_of_eq (by rw [List.length_map, h.length]))
  exact List.mem_map.mp (hperm.mem_iff.mpr ho)

/-- A submission keeps it. -/
theorem ActionsFrozen.submitted {submission : MailActionSubmission} {action : Action}
    {targets : List ActionItemTarget} (h : ActionsFrozen db) (hq : Queues submission action targets)
    (hrun : (commitSubmission action targets).run db = .ok ((), db')) : ActionsFrozen db' := by
  obtain ⟨hkeys, hids, hactions, hitems⟩ := commitSubmission_rows hrun
  have hmem : ∀ a, a ∈ db'.actions ↔ a ∈ db.actions ∨ a = action := by
    intro a
    rw [Table.mem_iff, hactions, List.mem_append, List.mem_singleton]
    exact Iff.rfl
  have hmemi : ∀ item, item ∈ db'.actionItems ↔
      item ∈ db.actionItems ∨ ∃ target ∈ targets, target.queued action.id = item := by
    intro item
    rw [Table.mem_iff, hitems, List.mem_append, List.mem_map]
    exact Iff.rfl
  have hnodup : (targets.map (·.occurrenceId)).Nodup := by
    have hall := db'.actionItems.nodup
    rw [hitems, List.map_append] at hall
    have hnew := (List.nodup_append.mp hall).2.1
    rw [List.map_map] at hnew
    exact List.Nodup.of_map (fun o => (action.id, o)) (by rwa [List.map_map])
  refine ⟨fun a ha b hb hkey => ?_, fun item hi => ?_, fun a ha o => ?_⟩
  · rcases (hmem a).mp ha with ha | rfl <;> rcases (hmem b).mp hb with hb | rfl
    · exact h.keys a ha b hb hkey
    · exact absurd hkey (hkeys a ha)
    · exact absurd hkey.symm (hkeys b hb)
    · rfl
  · rcases (hmemi item).mp hi with hi | ⟨target, -, rfl⟩
    · obtain ⟨a, ha, hid⟩ := h.owned item hi
      exact ⟨a, (hmem a).mpr (.inl ha), hid⟩
    · exact ⟨action, (hmem action).mpr (.inr rfl), rfl⟩
  · rcases (hmem a).mp ha with ha | rfl
    · rw [h.targets a ha o]
      constructor
      · rintro ⟨item, hi, hid⟩
        exact ⟨item, (hmemi item).mpr (.inl hi), hid⟩
      · rintro ⟨item, hi, hid, ho⟩
        rcases (hmemi item).mp hi with hi | ⟨target, -, rfl⟩
        · exact ⟨item, hi, hid, ho⟩
        · exact absurd hid.symm (hids a ha)
    · rw [hq.scope]
      constructor
      · intro ho
        obtain ⟨target, htarget, hsame⟩ := hq.covers hnodup ho
        exact ⟨_, (hmemi _).mpr (.inr ⟨target, htarget, rfl⟩), rfl, hsame⟩
      · rintro ⟨item, hi, hid, rfl⟩
        rcases (hmemi item).mp hi with hi | ⟨target, htarget, rfl⟩
        · obtain ⟨b, hb, hidb⟩ := h.owned item hi
          exact absurd (hidb.trans hid) (hids b hb)
        · exact hq.mem target htarget

/-- Whatever an operation commits keeps it. -/
theorem ActionsFrozen.commits {op : ActionOp} (h : ActionsFrozen db) (hop : op.Commits db db') :
    ActionsFrozen db' := by
  rcases hop with hsame | ⟨generation, g, submission, action, targets, -, hq, hrun⟩
  · exact h.same hsame
  · exact h.submitted hq hrun

/-! ## Runs -/

/-- The discipline of the runs in which every worker `i` runs the operation `ops i`. -/
def requestDiscipline (libs : Libraries) (ops : ℕ → ActionOp) : Discipline (actionSystem libs) where
  inv := fun w => ActionsFrozen w.store
  rely := fun _ _ _ => True
  assumes := .free
  ensures := ⟨fun i _ w w' => (ops i).Commits w.store w'.store, fun _ _ _ _ => True⟩
  rely_refl := fun _ _ => trivial
  rely_trans := fun _ _ _ _ _ _ => trivial
  ensures_read := fun _ w _ => .inl (.refl w.store)
  inv_tick := fun _ t => Empty.elim t
  rely_tick := fun _ _ t => Empty.elim t
  inv_retire := fun _ _ h => h
  rely_retire := fun _ _ _ _ _ => trivial

variable {w : World mailSignature ActionLog}

/-- Whatever works on actions keeps the discipline. -/
theorem Works.preserves {p : MailProgram α} (h : Works p) :
    Preserves (requestDiscipline libs ops) i (fun _ => True) p := by
  have hadmits : Admits (requestDiscipline libs ops) i workingVocabulary fun _ => True := by
    refine ⟨.trivial, fun tag w s hinv _ hsame _ => ?_, fun c w r o hinv _ _ _ _ => ?_⟩
    · exact ⟨⟨hinv.same hsame, fun _ _ => trivial⟩, .inl hsame, trivial⟩
    · exact ⟨⟨hinv, fun _ _ => trivial⟩, trivial, trivial⟩
  exact hadmits.preserves h

/-- The targets that a submission freezes are those of its scope. -/
theorem safe_freezeTargets (scope : ActionScope) :
    Safe (requestDiscipline libs ops) i (freezeTargets scope) w
      (fun targets _ => (∀ target ∈ targets, target.occurrenceId ∈ scope.occurrenceIds) ∧
        targets.length = scope.occurrenceIds.length) fun _ _ => True := by
  have hread : ∀ {β : Type} (f : Database → β), Preserves (requestDiscipline libs ops) i
      (fun _ => True) (MailProgram.query f) := fun f => (Works.query f).preserves
  refine (hread _).andThen trivial (fun account w₁ _ => ?_) fun _ _ _ => trivial
  by_cases haccount : account.isNone = true
  · simp only [if_pos haccount]
    exact .throw fun _ _ _ => trivial
  simp only [if_neg haccount]
  refine .bind (.read (fun w₂ _ _ => .pure fun w₃ _ _ => ?_) fun _ _ _ _ _ => trivial)
  have hmem : ∀ row ∈ w₂.store.messageOccurrences.select fun row =>
      row.accountId == scope.accountId && scope.occurrenceIds.contains row.id,
      row.id ∈ scope.occurrenceIds := by
    intro row hrow
    have hp := (Table.mem_select.mp hrow).2
    simp only [Bool.and_eq_true, List.contains_iff_mem] at hp
    exact hp.2
  generalize (w₂.store.messageOccurrences.select fun row =>
    row.accountId == scope.accountId && scope.occurrenceIds.contains row.id) = occurrences at hmem ⊢
  by_cases hbad : occurrences.length ≠ scope.occurrenceIds.length ∨
      occurrences.any (fun row => row.expungedAt.isSome || row.invalidatedAt.isSome) = true
  · simp only [if_pos hbad]
    exact .throw fun _ _ _ => trivial
  simp only [if_neg hbad]
  have hlength : occurrences.length = scope.occurrenceIds.length := by
    by_contra hne
    exact hbad (.inl hne)
  have hdone : ∀ w, Safe (requestDiscipline libs ops) i
      (pure (occurrences.map frozenTarget) : MailProgram _) w (fun targets _ =>
        (∀ target ∈ targets, target.occurrenceId ∈ scope.occurrenceIds) ∧
          targets.length = scope.occurrenceIds.length) fun _ _ => True := by
    refine fun w => .pure fun _ _ _ => ⟨fun target htarget => ?_, by rw [List.length_map, hlength]⟩
    obtain ⟨row, hrow, rfl⟩ := List.mem_map.mp htarget
    exact hmem row hrow
  by_cases hdestination : requiresDestination scope.kind = true
  · simp only [if_pos hdestination]
    refine (hread _).andThen trivial (fun destination w₄ _ => ?_) fun _ _ _ => trivial
    cases destination with
    | none => exact .throw fun _ _ _ => trivial
    | some folder =>
        dsimp only
        split
        · exact .throw fun _ _ _ => trivial
        · exact hdone _
  · simp only [if_neg hdestination]
    exact hdone _

/-- A worker that runs a submission may commit what it queues. -/
theorem preserves_commitSubmission {generation g : Option Uuid}
    {submission : MailActionSubmission} {action : Action} {targets : List ActionItemTarget}
    (hop : ops i = .submit generation g submission) (hq : Queues submission action targets) :
    Preserves (requestDiscipline libs ops) i (fun _ => True)
      (MailProgram.transact (commitSubmission action targets)) := by
  refine ⟨fun w _ => .transaction (fun w' _ hinv b s hrun _ => ?_) fun _ _ _ _ _ => trivial⟩
  exact ⟨⟨hinv.submitted hq hrun, fun _ _ => trivial⟩,
    .inr ⟨generation, g, submission, action, targets, hop, hq, hrun⟩, .pure fun _ _ _ => trivial⟩

theorem safe_submitAction {generation g : Option Uuid} {submission : MailActionSubmission}
    (hop : ops i = .submit generation g submission) :
    Safe (requestDiscipline libs ops) i (submitAction ⟨generation, libs⟩ g submission) w
      (fun _ _ => True) fun _ _ => True := by
  have hgate : Works (Deployment.gate ⟨generation, libs⟩ g) :=
    .bind (Works.query _) fun _ => .ofExcept _
  refine hgate.preserves.andThen trivial (fun recovery w₁ _ => ?_) fun _ _ _ => trivial
  have hlift : Works (MailProgram.lift (validateSubmission submission)) := .ofExcept _
  refine hlift.preserves.andThen trivial (fun _ w₂ _ => ?_) fun _ _ _ => trivial
  refine (Works.query _).preserves.andThen trivial (fun existing w₃ _ => ?_) fun _ _ _ => trivial
  cases existing with
  | some existing =>
      have hstored : ∀ hash, Works (do
          let stored ← existingReceipt existing hash
          return (⟨false, stored⟩ : SubmitResult)) := fun hash =>
        .bind (Works.existingReceipt existing hash) fun _ => .pure _
      exact (hstored _).preserves.safe w₃ trivial
  | none =>
      refine .bind ((safe_freezeTargets (canonicalScope submission)).mono
        (fun targets w₄ _ htargets => ?_) fun _ _ _ => id)
      refine Preserves.safe (.bind (Works.ask _).preserves fun id => .bind (Works.ask _).preserves
        fun now => .bind (.attempt .trivial (preserves_commitSubmission hop
          ⟨rfl, rfl, rfl, rfl, htargets.1, htargets.2⟩)) fun inserted => Works.preserves ?_) w₄ trivial
      cases inserted with
      | ok u => exact .bind (Works.receipt _) fun _ => .pure _
      | error cause =>
          refine .ite (fun _ => .bind (Works.query _) fun raced => ?_) fun _ => .throw _
          cases raced with
          | some raced => exact .bind (Works.existingReceipt _ _) fun _ => .pure _
          | none => exact .throw _

/-- Every worker keeps the discipline in its own operation. -/
theorem safe_role (i : ℕ) (w : World mailSignature ActionLog) :
    Safe (requestDiscipline libs ops) i ((actionSystem libs).program (ops i)) w
      (fun _ _ => True) fun _ _ => True := by
  have hworks : ∀ {p : MailProgram Unit}, Works p →
      Safe (requestDiscipline libs ops) i p w (fun _ _ => True) fun _ _ => True :=
    fun hp => hp.preserves.safe w trivial
  change Safe (requestDiscipline libs ops) i ((ops i).run libs) w (fun _ _ => True) fun _ _ => True
  cases hop : ops i with
  | submit generation g submission =>
      exact .bind ((safe_submitAction hop).mono
        (fun _ _ _ _ => .pure fun _ _ _ => trivial) fun _ _ _ _ => trivial)
  | receipt actionId => exact hworks (.bind (Works.receipt actionId) fun _ => .pure _)
  | execute generation actionId mailbox =>
      exact hworks (.bind (Works.executeAction ..) fun _ => .pure _)
  | reconcileIncomplete generation accountId mailbox limit =>
      exact hworks (.bind (Works.reconcileIncomplete ..) fun _ => .pure _)
  | dispositionRestoredActions currentGeneration =>
      exact hworks (.bind (Works.dispositionRestoredActions _) fun _ => .pure _)
  | elsewhere f hf =>
      refine hworks (Works.transaction fun db => ⟨fun _ db' h => ?_⟩)
      obtain rfl : _ = db' := (Prod.mk.inj (Except.ok.inj h)).2
      exact .of_same (hf db).1 (hf db).2

variable {c₀ c c' : Config mailSignature ActionLog}

/-- The start keeps the discipline. -/
theorem ActionStart.frozen (h : ActionStart c₀) : c₀.Sound (requestDiscipline libs ops) := by
  refine ⟨⟨fun a ha => ?_, fun item hi => ?_, fun a ha => ?_⟩, fun i p hp => ?_⟩
  · rw [h.actions] at ha
    exact absurd ha Table.not_mem_empty
  · rw [h.actionItems] at hi
    exact absurd hi Table.not_mem_empty
  · rw [h.actions] at ha
    exact absurd ha Table.not_mem_empty
  · rw [h.workers] at hp
    simp at hp

/-- In every run each action has its own key and exactly the targets of its scope. -/
theorem actions_frozen (h₀ : ActionStart c₀)
    (h : ReachesAs (actionSystem libs) ops .free c₀ c) : ActionsFrozen c.world.store :=
  (ReachesAs.sound (D := requestDiscipline libs ops) h h₀.frozen safe_role).inv

/-- Every event of a run leaves the requests as they are, or it is the commit of a worker that does
what its operation may do. -/
theorem actions_step (h₀ : ActionStart c₀) (h : ReachesAs (actionSystem libs) ops .free c₀ c)
    {e : Event (actionSystem libs)}
    (hspawn : ∀ op, e.spawned = some op → ops c.workers.length = op)
    (hfire : c.fire (actionSystem libs) e = some c') :
    c'.world.store = c.world.store ∨
      ∃ i, ¬ c.HasEnded i ∧ i < c.workers.length ∧
        (ops i).Commits c.world.store c'.world.store := by
  rcases Config.fire_store hfire with hsame | ⟨i, rfl, β, tag, f, k, b, hp, hf⟩
  · exact .inl hsame
  · refine .inr ⟨i, fun hended => ?_, (List.getElem?_eq_some_iff.mp hp).1, ?_⟩
    · simp [hended.commits_nothing] at hfire
    · have hens := ReachesAs.ensures (D := requestDiscipline libs ops) h h₀.frozen safe_role
        (Policy.free_meets ..) hspawn hfire
      exact hens β tag f k b _ hp hf

/-! ## Requests over a run -/

/-- What was queued stays as it was queued; what is new stands behind it and is of new actions. -/
structure RequestsStay (db db' : Database) : Prop where
  actions : db.actions.rows.map Action.asQueued <+: db'.actions.rows.map Action.asQueued
  items : db.actionItems.rows.map ActionItem.asQueued <+:
    db'.actionItems.rows.map ActionItem.asQueued
  own : ∀ a ∈ db.actions, ∀ item' ∈ db'.actionItems, item'.actionId = a.id →
    ∃ item ∈ db.actionItems, item'.asQueued = item.asQueued

namespace RequestsStay

theorem refl (db : Database) : RequestsStay db db :=
  ⟨List.prefix_refl _, List.prefix_refl _, fun _ _ item hi _ => ⟨item, hi, rfl⟩⟩

theorem trans {db₁ db₂ db₃ : Database} (h : RequestsStay db₁ db₂) (h' : RequestsStay db₂ db₃) :
    RequestsStay db₁ db₃ := by
  refine ⟨h.actions.trans h'.actions, h.items.trans h'.items, fun a ha item₃ hi₃ hid => ?_⟩
  have hmem : a.asQueued ∈ db₂.actions.rows.map Action.asQueued :=
    h.actions.subset (List.mem_map_of_mem ha)
  obtain ⟨a₂, ha₂, hsame⟩ := List.mem_map.mp hmem
  obtain ⟨item₂, hi₂, heq₂⟩ := h'.own a₂ ha₂ item₃ hi₃ (hid.trans (asQueued_inj hsame).1.symm)
  have hown : item₂.actionId = a.id := (ActionItem.asQueued_inj heq₂).1.symm.trans hid
  obtain ⟨item, hi, heq⟩ := h.own a ha item₂ hi₂ hown
  exact ⟨item, hi, heq₂.trans heq⟩

/-- Whatever an operation commits leaves what was queued. -/
theorem commits {op : ActionOp} (h : op.Commits db db') : RequestsStay db db' := by
  rcases h with hsame | ⟨generation, g, submission, action, targets, -, hq, hrun⟩
  · refine ⟨hsame.actions ▸ List.prefix_refl _, hsame.items ▸ List.prefix_refl _,
      fun _ _ item hi _ => hsame.mem_item hi⟩
  · obtain ⟨-, hids, hactions, hitems⟩ := commitSubmission_rows hrun
    refine ⟨?_, ?_, fun a ha item hi hid => ?_⟩
    · rw [hactions, List.map_append]
      exact List.prefix_append _ _
    · rw [hitems, List.map_append]
      exact List.prefix_append _ _
    · rw [Table.mem_iff, hitems, List.mem_append, List.mem_map] at hi
      rcases hi with hi | ⟨target, -, rfl⟩
      · exact ⟨item, hi, rfl⟩
      · exact absurd hid.symm (hids a ha)

end RequestsStay

/-- In every run each action keeps its request, its key and exactly the targets of its scope, and no
key has two actions. -/
theorem requests_kept (h₀ : ActionStart c₀) (h : Reaches (actionSystem libs) .free c₀ c)
    (h' : Reaches (actionSystem libs) .free c c') :
    ActionsFrozen c'.world.store ∧ RequestsStay c.world.store c'.world.store := by
  induction h' with
  | start =>
      obtain ⟨ops, hops⟩ := h.withRoles (.receipt 0)
      exact ⟨actions_frozen h₀ hops, .refl _⟩
  | next e hreach _ hfire ih =>
      obtain ⟨ops, hops⟩ := (h.trans hreach).withRoles (.receipt 0)
      obtain ⟨ops', hops', -, hnew⟩ := hops.extend e
      have hnext := ReachesAs.next e hops' (Policy.free_meets ..) hnew hfire
      refine ⟨actions_frozen h₀ hnext, ih.2.trans ?_⟩
      rcases actions_step h₀ hops' hnew hfire with hsame | ⟨i, -, -, hcommit⟩
      · rw [hsame]
        exact .refl _
      · exact .commits hcommit

/-! ## Samples -/

/-- Every action with its key, its status and its scope, and every item with its status. -/
structure RequestView where
  requests : List (String × ActionStatus × List Uuid)
  items : List (Uuid × Uuid × ActionItemStatus)
  deriving DecidableEq

def requestView (c : Config mailSignature ActionLog) : RequestView :=
  ⟨c.world.store.actions.rows.map fun a => (a.idempotencyKey, a.status, a.request.occurrenceIds),
    c.world.store.actionItems.rows.map fun i => (i.actionId, i.itemKey, i.status)⟩

/-- An archive is queued, and later a run claims its item. -/
theorem requests_kept_sample : ∃ c c',
    Reaches (actionSystem sampleLibraries) .free sampleActions c ∧
      Reaches (actionSystem sampleLibraries) .free c c' ∧
      requestView c = ⟨[("key", .queued, [20])], [(40, 20, .queued)]⟩ ∧
      requestView c' = ⟨[("key", .queued, [20])], [(40, 20, .executing)]⟩ ∧
      ActionsFrozen c'.world.store ∧ RequestsStay c.world.store c'.world.store := by
  have h : (sampleActions.run (actionSystem sampleLibraries)
      (sampleSubmit ⟨1, .archive, "key", [20], some 6⟩)).bind (fun c =>
        (c.run (actionSystem sampleLibraries) (sampleHold 1 ++ sampleWork .archive 1)).map fun c' =>
          (requestView c, requestView c')) =
      some (⟨[("key", .queued, [20])], [(40, 20, .queued)]⟩,
        ⟨[("key", .queued, [20])], [(40, 20, .executing)]⟩) := by decide +kernel
  obtain ⟨c, hc, h⟩ := Option.bind_eq_some_iff.mp h
  obtain ⟨c', hc', h⟩ := Option.map_eq_some_iff.mp h
  have hreach := Reaches.of_run hc
  have hreach' := Reaches.of_run hc'
  exact ⟨c, c', hreach, hreach', congrArg Prod.fst h, congrArg Prod.snd h,
    requests_kept sampleActions_start hreach hreach'⟩

end MailHub
