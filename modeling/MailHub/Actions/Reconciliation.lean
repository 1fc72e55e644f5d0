import MailHub.Actions.Runs
import MailHub.Interleaving.Plays

/-!
# What a broken folder blocks

Restart reconciliation executes the actions of its window one after the other. A refused selection,
flag fetch or generation check of a folder ends the execution it belongs to, and nothing between
it and the caller contains the failure, so the actions behind it are not driven in this call. The
same action is the oldest one again in the next call.
-/

namespace MailHub

open Relational Interleaving

/-! ## The executions of one call -/

/-- The remote calls that select a folder, fetch its flags and check its generation. -/
def MailCall.opensFolder : MailCall → Bool
  | select .. | fetchFlags .. | revalidate _ => true
  | _ => false

/-- One action that a call drives. -/
structure Drive where
  actionId : Uuid
  run : Play mailSignature ActionExecutionResult

/-- A folder of the action threw while it was driven. -/
def Drive.Broken (drive : Drive) : Prop := ∃ c ∈ drive.run.refused, c.opensFolder

instance : DecidablePred Drive.Broken := fun drive =>
  inferInstanceAs (Decidable (∃ c ∈ drive.run.refused, c.opensFolder))

/-- The executions of a list of actions: each starts where the one before it returned. -/
def drives (d : Deployment) (mailbox : ℕ) (E : Environment mailSignature) :
    List Uuid → ℕ → Database → List Drive
  | [], _, _ => []
  | id :: ids, n, db =>
      let run := (executeAction d id mailbox).play E n db
      ⟨id, run⟩ :: match run.result with
        | some (.ok _) => drives d mailbox E ids run.next run.store
        | _ => []

/-- The summary of a call after its executions. -/
def tally (summary : RestartReconciliationSummary) :
    List Drive → Option (Except Failure RestartReconciliationSummary)
  | [] => some (.ok summary)
  | drive :: later =>
      match drive.run.result with
      | some (.ok result) => tally (summary.count result) later
      | some (.error e) => some (.error e)
      | none => none

/-- The window of a call: what its query finds after the moves of the others. -/
def reconciliationWindow (accountId : Uuid) (limit : ℕ) (E : Environment mailSignature) (n : ℕ)
    (db : Database) : List Uuid :=
  pendingActions accountId limit (E.others n db)

/-- The executions of a call. -/
def reconciliationDrives (d : Deployment) (accountId : Uuid) (mailbox limit : ℕ)
    (E : Environment mailSignature) (n : ℕ) (db : Database) : List Drive :=
  drives d mailbox E (reconciliationWindow accountId limit E n db) (n + 1) (E.others n db)

variable {d : Deployment} {accountId : Uuid} {mailbox limit : ℕ} {E : Environment mailSignature}
variable {ids : List Uuid} {n : ℕ} {db : Database}

/-- An execution that returns is followed by the executions of the rest. -/
theorem drives_cons_ok {id : Uuid} {result : ActionExecutionResult}
    (h : ((executeAction d id mailbox).play E n db).result = some (.ok result)) :
    drives d mailbox E (id :: ids) n db =
      ⟨id, (executeAction d id mailbox).play E n db⟩ ::
        drives d mailbox E ids ((executeAction d id mailbox).play E n db).next
          ((executeAction d id mailbox).play E n db).store := by
  simp only [drives, h]

/-- An execution that does not return is the last one. -/
theorem drives_cons_stop {id : Uuid}
    (h : ∀ result, ((executeAction d id mailbox).play E n db).result ≠ some (.ok result)) :
    drives d mailbox E (id :: ids) n db = [⟨id, (executeAction d id mailbox).play E n db⟩] := by
  unfold drives
  dsimp only
  split
  next result hresult => exact absurd hresult (h result)
  next => rfl

/-- The loop of the pass. -/
def driveAll (d : Deployment) (mailbox : ℕ) (ids : List Uuid)
    (summary : RestartReconciliationSummary) : MailProgram RestartReconciliationSummary :=
  forIn ids summary fun id summary => do
    let result ← executeAction d id mailbox
    pure (.yield (summary.count result))

theorem driveAll_cons {id : Uuid} {summary : RestartReconciliationSummary} :
    driveAll d mailbox (id :: ids) summary =
      executeAction d id mailbox >>= fun result => driveAll d mailbox ids (summary.count result) := by
  unfold driveAll
  rw [List.forIn_cons]
  exact Program.bind_assoc ..

/-- The loop runs these executions and counts them. -/
theorem play_driveAll {summary : RestartReconciliationSummary} :
    ((driveAll d mailbox ids summary).play E n db).result =
        tally summary (drives d mailbox E ids n db) ∧
      ((driveAll d mailbox ids summary).play E n db).refused =
        (drives d mailbox E ids n db).flatMap (·.run.refused) := by
  induction ids generalizing n db summary with
  | nil => exact ⟨rfl, rfl⟩
  | cons id ids ih =>
      rw [driveAll_cons, Program.play_bind]
      cases hresult : ((executeAction d id mailbox).play E n db).result with
      | none =>
          rw [drives_cons_stop (by simp [hresult]), Play.andThen_none hresult]
          simp [tally, hresult]
      | some r =>
          cases r with
          | error e =>
              rw [drives_cons_stop (by simp [hresult]), Play.andThen_error hresult]
              simp [tally, hresult]
          | ok result =>
              rw [drives_cons_ok hresult, Play.andThen_ok hresult]
              simp only [tally, hresult, List.flatMap_cons, ih, and_self]

/-- A call comes to what its executions come to. -/
theorem play_reconcileIncomplete (hlimit : limit ≠ 0) :
    ((reconcileIncomplete d accountId mailbox limit).play E n db).result =
        tally ⟨(reconciliationWindow accountId limit E n db).length, 0, 0, 0⟩
          (reconciliationDrives d accountId mailbox limit E n db) ∧
      ((reconcileIncomplete d accountId mailbox limit).play E n db).refused =
        (reconciliationDrives d accountId mailbox limit E n db).flatMap (·.run.refused) := by
  have hcall : reconcileIncomplete d accountId mailbox limit =
      MailProgram.query (pendingActions accountId limit) >>= fun rows =>
        driveAll d mailbox rows ⟨rows.length, 0, 0, 0⟩ := by
    unfold reconcileIncomplete driveAll
    rw [if_neg hlimit]
    simp only [Program.pure_eq, Program.bind_eq, Program.bind_pure]
  rw [hcall, Program.play_bind]
  exact play_driveAll

/-! ## Nothing contains the failure -/

/-- A program in which nothing catches the refusal of a folder call. -/
abbrev Exposed {α : Type} (p : MailProgram α) : Prop := p.Uncaught (MailCall.opensFolder ·)

variable {action : Action} {items : List ActionItem} {g : SelectedGroup}
variable {destination : Option (Uuid × String)}

theorem exposed_loadAction (actionId : Uuid) : Exposed (loadAction actionId) := by
  unfold loadAction
  refine .bind (.read _) fun row => ?_
  cases row with
  | none => exact .throw _
  | some row => exact .pure row

theorem exposed_receiptOf (action : Action) : Exposed (receiptOf action) :=
  .bind (.read _) fun _ => .pure _

theorem exposed_receipt (actionId : Uuid) : Exposed (receipt actionId) :=
  .bind (exposed_loadAction actionId) exposed_receiptOf

theorem exposed_commitDisposition (actionId : Uuid) (item : ActionItem) (write : ItemWrite) :
    Exposed (commitDisposition actionId item write) :=
  .bind (.request _) fun _ => .transaction _ _

theorem exposed_conflictItems (actionId : Uuid) (items : List ActionItem) (reason : String)
    (extra : List (String × OutcomeValue)) :
    Exposed (conflictItems actionId items reason extra) := by
  unfold conflictItems
  refine .bind (.forIn fun item _ => ?_) fun _ => .pure _
  exact .bind (exposed_commitDisposition _ _ _) fun _ => .pure _

theorem exposed_assessmentOf (d : Deployment) (action : Action) :
    Exposed (assessmentOf d action) :=
  .bind (.read _) fun _ => .pure _

/-- What the executor throws becomes a receipt; its calls open no folder of their own. -/
theorem exposed_applyPrepared (mailbox : ℕ) (prepared : PreparedActionItem) :
    Exposed (applyPrepared mailbox prepared) := by
  unfold applyPrepared
  refine .bind (.attempt_request Bool.false_ne_true) fun outcome => ?_
  cases outcome with
  | ok outcome => exact .pure outcome
  | error cause => exact .pure _

theorem exposed_applyItem {item : ActionItem} {remote : ActionMailboxFlags} :
    Exposed (applyItem d mailbox g item remote) := by
  unfold applyItem
  refine .bind (.transaction _ _) fun claimed => .ite (.pure _) ?_
  refine .bind (exposed_assessmentOf d g.action) fun stop => ?_
  cases stop with
  | some stop => exact .pure _
  | none =>
      exact .bind (exposed_applyPrepared _ _) fun _ =>
        .bind (exposed_commitDisposition _ _ _) fun _ => .pure _

theorem exposed_executeItem {item : ActionItem} : Exposed (executeItem d mailbox g item) := by
  unfold executeItem
  cases g.remote item.target.uid with
  | none => exact .bind (exposed_commitDisposition _ _ _) fun _ => .pure _
  | some remote =>
      refine .bind (.read _) fun occurrence => ?_
      cases preflight g item remote occurrence with
      | some write => exact .bind (exposed_commitDisposition _ _ _) fun _ => .pure _
      | none => exact exposed_applyItem

theorem exposed_executeItems : Exposed (executeItems d mailbox g items) := by
  induction items with
  | nil => exact .pure _
  | cons item items ih =>
      unfold executeItems
      refine .bind (.request _) fun recheck => .ite ?_ ?_
      · exact .bind (exposed_conflictItems _ _ _ _) fun _ => .pure _
      · refine .bind exposed_executeItem fun stop => ?_
        cases stop with
        | some stop => exact .pure _
        | none => exact ih

theorem exposed_executeFolderGroup {folderId : Uuid} :
    Exposed (executeFolderGroup d mailbox action destination folderId items) := by
  unfold executeFolderGroup
  refine .bind (.read _) fun folder => ?_
  cases folder with
  | none => exact .bind (exposed_conflictItems _ _ _ _) fun _ => .pure _
  | some folder =>
      dsimp only
      cases folder.uidvalidity with
      | none => exact .bind (exposed_conflictItems _ _ _ _) fun _ => .pure _
      | some uidvalidity =>
          refine .bind (.request _) fun selected => .ite ?_ ?_
          · exact .bind (exposed_conflictItems _ _ _ _) fun _ => .pure _
          · exact .bind (.request _) fun _ => exposed_executeItems

theorem exposed_executeGroups {folderIds : List Uuid} :
    Exposed (executeGroups d mailbox action destination items folderIds) := by
  induction folderIds with
  | nil => exact .pure _
  | cons folderId folderIds ih =>
      unfold executeGroups
      refine .bind exposed_executeFolderGroup fun stop => ?_
      cases stop with
      | some stop => exact .pure _
      | none => exact ih

theorem exposed_workItems : Exposed (workItems d mailbox action destination) :=
  .bind (.transaction _ _) fun _ => exposed_executeGroups

theorem exposed_runItems : Exposed (runItems d mailbox action) := by
  unfold runItems
  refine .ite (.bind (.read _) fun row => ?_) exposed_workItems
  cases row with
  | none => exact .bind (.bind (.read _) fun _ => exposed_conflictItems _ _ _ _) fun _ => .pure _
  | some row => exact exposed_workItems

theorem exposed_holdInterrupted (action : Action) : Exposed (holdInterrupted action) := by
  unfold holdInterrupted
  refine .bind (.read _) fun items => .bind (.forIn fun item _ => ?_) fun _ => .pure _
  exact .ite (.bind (exposed_commitDisposition _ _ _) fun _ => .pure _) (.pure _)

theorem exposed_blockedResult (actionId : Uuid) (stop : ExecutionStop) :
    Exposed (blockedResult d actionId stop) := by
  unfold blockedResult
  refine .bind (exposed_receipt actionId) fun stored => ?_
  cases stop with
  | blocked => exact .pure _
  | stale => exact .bind (.read _) fun _ => .pure _

/-- A refused folder call ends the execution of its action with a failure. -/
theorem exposed_executeAction (actionId : Uuid) : Exposed (executeAction d actionId mailbox) := by
  unfold executeAction
  refine .bind (exposed_loadAction actionId) fun action => .ite ?_ ?_
  · exact .bind (exposed_receiptOf action) fun _ => .pure _
  · refine .bind (exposed_assessmentOf d action) fun stop => ?_
    cases stop with
    | some stop => exact exposed_blockedResult _ stop
    | none =>
        refine .bind (exposed_holdInterrupted action) fun _ => .bind exposed_runItems fun stop => ?_
        cases stop with
        | some stop => exact exposed_blockedResult _ stop
        | none =>
            exact .bind (.transaction _ _) fun _ => .bind (exposed_receipt _) fun _ => .pure _

/-! ## Which failures block -/

/-- No action of the window blocks another one: when a folder of one throws, every other action of
the window is driven in the same call. -/
def Unblocked (d : Deployment) (accountId : Uuid) (mailbox limit : ℕ)
    (E : Environment mailSignature) (n : ℕ) (db : Database) : Prop :=
  ∀ drive ∈ reconciliationDrives d accountId mailbox limit E n db, drive.Broken →
    ∀ id ∈ reconciliationWindow accountId limit E n db, id ≠ drive.actionId →
      ∃ other ∈ reconciliationDrives d accountId mailbox limit E n db, other.actionId = id

instance : Decidable (Unblocked d accountId mailbox limit E n db) :=
  inferInstanceAs (Decidable
    (∀ drive ∈ reconciliationDrives d accountId mailbox limit E n db, drive.Broken →
      ∀ id ∈ reconciliationWindow accountId limit E n db, id ≠ drive.actionId →
        ∃ other ∈ reconciliationDrives d accountId mailbox limit E n db, other.actionId = id))

/-- A call drives the first actions of its window, in order. -/
theorem drives_prefix : (drives d mailbox E ids n db).map (·.actionId) <+: ids := by
  induction ids generalizing n db with
  | nil => exact List.prefix_refl []
  | cons id ids ih =>
      by_cases hreturned : ∃ result,
          ((executeAction d id mailbox).play E n db).result = some (.ok result)
      · obtain ⟨result, hresult⟩ := hreturned
        rw [drives_cons_ok hresult, List.map_cons, List.cons_prefix_cons]
        exact ⟨rfl, ih⟩
      · rw [drives_cons_stop fun result hresult => hreturned ⟨result, hresult⟩]
        exact ⟨ids, rfl⟩

/-- A broken execution is the last one of its call. -/
theorem drives_getLast {drive : Drive} (hmem : drive ∈ drives d mailbox E ids n db)
    (hbroken : drive.Broken) : (drives d mailbox E ids n db).getLast? = some drive := by
  induction ids generalizing n db with
  | nil => cases hmem
  | cons id ids ih =>
      by_cases hreturned : ∃ result,
          ((executeAction d id mailbox).play E n db).result = some (.ok result)
      · obtain ⟨result, hresult⟩ := hreturned
        rw [drives_cons_ok hresult] at hmem ⊢
        rcases List.mem_cons.mp hmem with rfl | hlater
        · -- an execution that met a refused folder call does not return
          obtain ⟨c, hc, hopens⟩ := hbroken
          obtain ⟨e, he⟩ := (exposed_executeAction id).failed E n db c hc hopens
          rw [hresult] at he
          cases he
        · rw [List.getLast?_cons, ih hlater]
          rfl
      · rw [drives_cons_stop fun result hresult => hreturned ⟨result, hresult⟩] at hmem ⊢
        rw [List.mem_singleton.mp hmem]
        rfl

/-- The window holds each action once. -/
theorem reconciliationWindow_nodup : (reconciliationWindow accountId limit E n db).Nodup := by
  unfold reconciliationWindow pendingActions
  rw [List.map_take]
  refine List.Nodup.sublist (List.take_sublist _ _) ?_
  have hperm := (List.perm_insertionSort (fun a b : Action => a.createdAt ≤ b.createdAt)
    ((E.others n db).actions.select fun a =>
      a.accountId == accountId && a.status.isPending)).map (·.id)
  refine hperm.nodup_iff.mpr ?_
  exact (E.others n db).actions.nodup.sublist (List.filter_sublist.map _)

/-- **Head-of-line blocking.** In every run of restart reconciliation, whatever the mailbox
answers and the others do meanwhile, no action blocks another one exactly when folders throw only
for the last action of the window. -/
theorem actions_unblocked_iff :
    Unblocked d accountId mailbox limit E n db ↔
      ∀ drive ∈ reconciliationDrives d accountId mailbox limit E n db, drive.Broken →
        (reconciliationWindow accountId limit E n db).getLast? = some drive.actionId := by
  have hnodup : (reconciliationWindow accountId limit E n db).Nodup := reconciliationWindow_nodup
  obtain ⟨behind, hwindow⟩ : (reconciliationDrives d accountId mailbox limit E n db).map
      (·.actionId) <+: reconciliationWindow accountId limit E n db := drives_prefix
  have hlast : ∀ drive ∈ reconciliationDrives d accountId mailbox limit E n db, drive.Broken →
      ((reconciliationDrives d accountId mailbox limit E n db).map (·.actionId)).getLast? =
        some drive.actionId := by
    intro drive hdrive hbroken
    rw [List.getLast?_map, reconciliationDrives, drives_getLast hdrive hbroken]
    rfl
  unfold Unblocked
  rw [← hwindow] at hnodup ⊢
  refine forall₂_congr fun drive hdrive => forall_congr' fun hbroken => ?_
  have hmem : drive.actionId ∈ (reconciliationDrives d accountId mailbox limit E n db).map
      (·.actionId) := List.mem_map_of_mem hdrive
  have hdisjoint := List.disjoint_of_nodup_append hnodup
  -- both sides say that nothing of the window is behind the executions
  constructor
  · intro hdriven
    have hnothing : behind = [] := by
      refine List.eq_nil_iff_forall_not_mem.mpr fun id hid => ?_
      have hne : id ≠ drive.actionId := by
        rintro rfl
        exact hdisjoint hmem hid
      obtain ⟨other, hother, rfl⟩ := hdriven id (List.mem_append_right _ hid) hne
      exact hdisjoint (List.mem_map_of_mem hother) hid
    rw [hnothing, List.append_nil]
    exact hlast drive hdrive hbroken
  · intro hend id hid hne
    have hnothing : behind = [] := by
      by_contra hbehind
      rw [List.getLast?_append_of_ne_nil _ hbehind] at hend
      exact hdisjoint hmem (List.mem_of_getLast? hend)
    rw [hnothing, List.append_nil] at hid
    exact List.mem_map.mp hid

/-! ## Samples -/

/-- Two actions of one account, each queued on the message of a folder of its own. -/
def sampleActionQueue : Database :=
  { sampleMailbox with
    messageOccurrences :=
      ⟨[⟨20, 1, 30, 5, 1, 1, 0, true, false, none, 1, none, none⟩,
        ⟨21, 1, 31, 6, 1, 1, 0, true, false, none, 1, none, none⟩], by decide⟩
    actions :=
      ⟨[⟨40, 1, 1, "first", "", .markRead, ⟨.markRead, 1, [20], none⟩, .queued, 0⟩,
        ⟨41, 1, 1, "second", "", .markRead, ⟨.markRead, 1, [21], none⟩, .queued, 1⟩], by decide⟩
    actionItems :=
      ⟨[⟨40, 20, ⟨20, 1, 5, 1, 1, 1, ⟨true, false⟩, none⟩, .queued, none⟩,
        ⟨41, 21, ⟨21, 1, 6, 1, 1, 1, ⟨true, false⟩, none⟩, .queued, none⟩], by decide⟩ }

/-- A mailbox that cannot select one of its folders. -/
def sampleBroken (folder : String) : Environment mailSignature where
  others := fun _ db => db
  reply := fun n c =>
    match c with
    | .select _ name =>
        if name = folder then .error (.port "The folder cannot be selected.")
        else .ok ⟨1, 1⟩
    | c => sampleReply n c

/-- A broken inbox blocks the action on the archive, which is queued behind it. -/
theorem inbox_blocks :
    ¬ Unblocked ⟨some 1, sampleLibraries⟩ 1 3 50 (sampleBroken "INBOX") 0 sampleActionQueue := by
  decide +kernel

/-- A broken archive blocks nothing. -/
example :
    Unblocked ⟨some 1, sampleLibraries⟩ 1 3 50 (sampleBroken "Archive") 0 sampleActionQueue := by
  decide +kernel

end MailHub
