import MailHub.Send.Transactions

/-!
# The audit of sends

The audit trail and the rows of the sends are written side by side. `owedEvents` says which send
events the trail owes for a change of one row: one for a new row, one for every outcome of a
submission or of a Sent-copy attempt, and one more when an attempt exhausts its row; the two claims
owe none. A transaction is `Audited` when it records for each row what it owes for it.
-/

namespace MailHub

open Relational Interleaving

variable {db db' : Database}

/-! ## What a change owes -/

/-- The send events recorded for one row, in order. -/
def sendEvents (outboundId : Uuid) (db : Database) : List String :=
  (db.events.filter fun e => e.entityType == "outbound_message" && e.entityId == outboundId).map
    (·.type)

/-- The event of a row that moved to a status; a claim has none. -/
def OutboundStatus.events : OutboundStatus → List String
  | sent => ["send.sent"]
  | failed => ["send.failed"]
  | outcomeUnknown => ["send.outcome_unknown"]
  | queued | sending => []

/-- The event of a Sent-copy attempt that ended in a state; a claim has none. -/
def SentCopyStatus.events : SentCopyStatus → List String
  | stored => ["send.sent_copy_stored"]
  | failed => ["send.sent_copy_failed"]
  | unknown => ["send.sent_copy_unknown"]
  | pending | appending => []

/-- The event of a counter that a change raised to the cap of the sweeps. -/
def haltEvents (event : String) (before after : ℕ) : List String :=
  if after ≠ before ∧ sendSweepAttemptCap ≤ after then [event] else []

/-- The events that the trail owes for a change of one row. -/
def owedEvents : Option OutboundMessage → Option OutboundMessage → List String
  | none, some _ => ["send.queued"]
  | some r, some r' =>
      if r'.status ≠ r.status then r'.status.events
      else if r'.sentCopyStatus ≠ r.sentCopyStatus ∨ r'.sentCopyAttempts ≠ r.sentCopyAttempts then
        r'.sentCopyStatus.events ++
          haltEvents "send.sent_copy_halted" r.sentCopyAttempts r'.sentCopyAttempts
      else haltEvents "send.reconcile_halted" r.reconcileAttempts r'.reconcileAttempts
  | _, none => []

/-- A row that stays owes nothing. -/
@[simp] theorem owedEvents_self (r : Option OutboundMessage) : owedEvents r r = [] := by
  cases r <;> simp [owedEvents, haltEvents]

/-- The trail grows, for each row, by what the change of the row owes. -/
def Audited (db db' : Database) : Prop :=
  ∀ o, sendEvents o db' = sendEvents o db ++
    owedEvents (db.outboundMessages.find? o) (db'.outboundMessages.find? o)

/-- A row that has failed had failed before. -/
def NoFailure (db db' : Database) : Prop :=
  ∀ o r', db'.outboundMessages.find? o = some r' → r'.status = .failed →
    ∃ r, db.outboundMessages.find? o = some r ∧ r.status = .failed

/-- A transaction other than a definitive failure: its changes are recorded and no row fails. -/
structure Recorded (db db' : Database) : Prop where
  audited : Audited db db'
  noFailure : NoFailure db db'

/-! ## Transactions that leave the sends alone -/

/-- The sends stay, and the trail grows by entries of other entities only. -/
structure SameSends (db db' : Database) : Prop where
  outboundMessages : db'.outboundMessages = db.outboundMessages
  events : ∀ o, sendEvents o db' = sendEvents o db

instance : Std.Refl SameSends := ⟨fun _ => ⟨rfl, fun _ => rfl⟩⟩

instance : IsTrans Database SameSends :=
  ⟨fun _ _ _ h h' => ⟨h'.outboundMessages.trans h.outboundMessages,
    fun o => (h'.events o).trans (h.events o)⟩⟩

/-- Leaving the sends alone owes nothing. -/
theorem SameSends.recorded (h : SameSends db db') : Recorded db db' := by
  refine ⟨fun o => ?_, fun o r' hr' hs => ⟨r', by rwa [h.outboundMessages] at hr', hs⟩⟩
  rw [h.outboundMessages, h.events, owedEvents_self, List.append_nil]

/-- The event of another entity. -/
theorem steps_recordEvent {actor : Actor} {type entityType : String} {id : Uuid}
    (h : entityType ≠ "outbound_message") :
    Steps SameSends db (Tx.recordEvent actor type entityType id) :=
  .modify ⟨rfl, fun o => by simp [sendEvents, h]⟩

variable {α ρ κ : Type} [Keyed ρ κ] [DecidableEq κ]

theorem steps_inserted {name : String} {t : Table ρ} {r : ρ} :
    Steps SameSends db (Tx.inserted name t r) := by
  unfold Tx.inserted
  cases t.insert? r with
  | none => exact .throw
  | some t' => exact .pure t'

theorem steps_lockEditableDraft {draftId : Uuid} :
    Steps SameSends db (lockEditableDraft draftId) :=
  ⟨fun row db' hrun => by
    obtain ⟨-, -, -, rfl⟩ := lockEditableDraft_ok.mp hrun
    exact Std.Refl.refl db⟩

theorem steps_insertDraft {row : Draft} : Steps SameSends db (insertDraft row) :=
  .get_bind (.bind steps_inserted fun _ _ _ => .modify ⟨rfl, fun _ => rfl⟩)

theorem steps_insertDraftUpload {link : DraftUpload} :
    Steps SameSends db (insertDraftUpload link) := by
  refine .get_bind (.ite (fun _ => .throw_bind) fun _ => .get_bind ?_)
  exact .bind steps_inserted fun _ _ _ => .modify ⟨rfl, fun _ => rfl⟩

theorem steps_copyLinks {draftId : Uuid} {links : List OutboundUpload} :
    Steps SameSends db (copyLinks draftId links) := by
  induction links generalizing db with
  | nil => exact .pure ()
  | cons link links ih => exact .bind steps_insertDraftUpload fun _ _ _ => ih

/-! ### Drafts -/

theorem steps_commitNewDraft {row : Draft} {event : String} :
    Steps SameSends db (commitNewDraft row event) :=
  .bind steps_insertDraft fun _ _ _ => .bind (steps_recordEvent (by decide)) fun _ _ _ => .lift

theorem steps_commitReplyDraft {libs : Libraries} {input : CreateReplyDraftInput} {id : Uuid}
    {now : Time} : Steps SameSends db (commitReplyDraft libs input id now) :=
  .get_bind (.bind .lift fun _ _ _ => .bind .lift fun _ _ _ => .bind .lift fun _ _ _ =>
    .bind .lift fun _ _ _ => .bind .lift fun _ _ _ => steps_commitNewDraft)

theorem steps_commitDraftUpdate {draftId : Uuid} {input : UpdateDraftInput} {now : Time} :
    Steps SameSends db (commitDraftUpdate draftId input now) := by
  refine .get_bind (.bind steps_lockEditableDraft fun row _ _ =>
    .ite (fun _ => .throw_bind) fun _ => .bind .lift fun _ _ _ => .bind .lift fun _ _ _ =>
      .bind .lift fun _ _ _ => .bind .lift fun _ _ _ => .ite (fun _ => ?_) fun _ => .lift)
  refine .bind (.modify ⟨rfl, fun _ => rfl⟩) fun _ _ _ => ?_
  exact .bind (steps_recordEvent (by decide)) fun _ _ _ => .lift

theorem steps_commitDraftDeletion {draftId : Uuid} {now : Time} :
    Steps SameSends db (commitDraftDeletion draftId now) :=
  .bind steps_lockEditableDraft fun _ _ _ => .bind (.modify ⟨rfl, fun _ => rfl⟩) fun _ _ _ =>
    steps_recordEvent (by decide)

theorem steps_commitUpload {row : Upload} : Steps SameSends db (commitUpload row) := by
  refine .get_bind (.ite (fun _ => .throw_bind) fun _ => .get_bind ?_)
  refine .bind steps_inserted fun _ _ _ => .bind (.modify ⟨rfl, fun _ => rfl⟩) fun _ _ _ => ?_
  exact .bind (steps_recordEvent (by decide)) fun _ _ _ => .pure row

theorem steps_commitAttachment {draftId uploadId : Uuid} :
    Steps SameSends db (commitAttachment draftId uploadId) := by
  refine .bind steps_lockEditableDraft fun draft _ _ => .bind ?_ fun upload db₁ _ =>
    .ite (fun _ => .throw_bind) fun _ => .get_bind ?_
  · refine .get_bind ?_
    split
    · exact .pure _
    · exact .throw
  · split
    · exact .pure _
    · refine .bind (.get_bind (.ite (fun _ => .throw) fun _ => .pure _)) fun _ _ _ => .get_bind ?_
      refine .bind steps_insertDraftUpload fun _ _ _ => ?_
      exact .bind (steps_recordEvent (by decide)) fun _ _ _ => .pure _

theorem steps_commitDetachment {draftId uploadId : Uuid} :
    Steps SameSends db (commitDetachment draftId uploadId) := by
  refine .bind steps_lockEditableDraft fun _ _ _ => .get_bind (.ite (fun _ => .throw_bind)
    fun _ => ?_)
  exact .bind (.modify ⟨rfl, fun _ => rfl⟩) fun _ _ _ => steps_recordEvent (by decide)

theorem steps_commitResend {outboundId id : Uuid} {now : Time} :
    Steps SameSends db (commitResend outboundId id now) := by
  refine .get_bind ?_
  split
  · exact .throw
  · refine .ite (fun _ => .throw_bind) fun _ => .get_bind (.bind .lift fun _ _ _ => ?_)
    refine .bind steps_insertDraft fun _ _ _ => .bind steps_copyLinks fun _ _ _ => ?_
    exact .bind (steps_recordEvent (by decide)) fun _ _ _ => .lift

theorem steps_releaseDraftLock {outboundId : Uuid} {status : OutboundStatus} :
    Steps SameSends db (releaseDraftLock outboundId status) := by
  refine .get_bind ?_
  split
  · exact .throw
  · refine .ite (fun _ => .throw_bind) fun _ => .get_bind (.bind (.modify ⟨rfl, fun o => ?_⟩)
      fun _ _ _ => .pure _)
    have hno : ∀ released : List Draft, (released.map fun d =>
        (⟨.system, "draft.unlocked", "draft", d.id⟩ : AuditEvent)).filter (fun e =>
          e.entityType == "outbound_message" && e.entityId == o) = [] := by
      intro released
      refine List.filter_eq_nil_iff.mpr fun e he => ?_
      obtain ⟨d, -, rfl⟩ := List.mem_map.mp he
      simp
    simp only [sendEvents, List.filter_append, hno, List.append_nil]

/-! ### The local message of an accepted send -/

theorem steps_insertAttachments {messageId : Uuid} {parts : List LocatedPart} :
    Steps SameSends db (insertAttachments messageId parts) := by
  induction parts generalizing db with
  | nil => exact .pure ()
  | cons part parts ih =>
      refine .get_bind (.bind steps_inserted fun _ _ _ => ?_)
      exact .bind (.modify ⟨rfl, fun _ => rfl⟩) fun _ _ _ => ih

theorem steps_markThreadJobsDirty {accountId : Uuid} {marking : ThreadJobMarking} :
    Steps SameSends db (markThreadJobsDirty accountId marking) :=
  markThreadJobsDirty_steps ⟨rfl, fun _ => rfl⟩

theorem steps_insertMessage {row : Message} : Steps SameSends db (insertMessage row) :=
  .get_bind (.ite (fun _ => .throw_bind) fun _ => .bind steps_inserted fun _ _ _ =>
    .modify ⟨rfl, fun _ => rfl⟩)

theorem steps_resolveSentMessage {row : OutboundMessage} {parsed : ParsedMessage} {bytes : Bytes}
    {freshId : Uuid} {now : Time} :
    Steps SameSends db (resolveSentMessage row parsed bytes freshId now) := by
  refine .get_bind ?_
  split
  · exact .pure _
  · refine .bind steps_insertMessage fun _ _ _ => .get_bind (.bind steps_inserted fun _ _ _ => ?_)
    refine .bind (.modify ⟨rfl, fun _ => rfl⟩) fun _ _ _ => ?_
    exact .bind steps_insertAttachments fun _ _ _ => .bind steps_markThreadJobsDirty
      fun _ _ _ => .pure _

/-! ## Transactions that change a send -/

variable {p : OutboundMessage → Bool} {f : RowUpdate}

/-- Rows that keep or leave the failed status do not fail. -/
theorem NoFailure.of_update (hdb : db'.outboundMessages = (db.updateRows p f).outboundMessages)
    (hf : ∀ r, p r → (f.apply r).status = .failed → r.status = .failed) : NoFailure db db' := by
  intro o r' hr' hs
  rw [hdb, find?_updateRows, Option.map_eq_some_iff] at hr'
  obtain ⟨r, hr, rfl⟩ := hr'
  split at hs
  next hpr => exact ⟨r, hr, hf r hpr hs⟩
  next => exact ⟨r, hr, hs⟩

/-- One row changes and the trail records what it owes for this row. -/
theorem Audited.of_update (outboundId : Uuid) (types : List String)
    (hdb : db'.outboundMessages = (db.updateRows p f).outboundMessages)
    (hevents : ∀ o, sendEvents o db' = sendEvents o db ++ if o = outboundId then types else [])
    (hp : ∀ r, p r → r.id = outboundId)
    (hnone : db.outboundMessages.find? outboundId = none → types = [])
    (hrow : ∀ r, db.outboundMessages.find? outboundId = some r →
      types = owedEvents (some r) (some (if p r then f.apply r else r))) : Audited db db' := by
  intro o
  rw [hevents, hdb, find?_updateRows]
  by_cases ho : o = outboundId
  · subst ho
    rw [if_pos rfl]
    cases hr : db.outboundMessages.find? o with
    | none =>
        rw [hnone hr]
        rfl
    | some r => rw [hrow r hr, Option.map_some]
  · rw [if_neg ho]
    cases hr : db.outboundMessages.find? o with
    | none => rfl
    | some r =>
        have hid : r.id = o := Table.key_of_find? hr
        have hpr : ¬ p r = true := fun hpr => ho (hid.symm.trans (hp r hpr))
        rw [Option.map_some, if_neg hpr, owedEvents_self]

/-- No selected row: nothing changes and nothing is owed. -/
theorem Audited.of_empty (hempty : db.outboundMessages.select p = [])
    (hdb : db'.outboundMessages = (db.updateRows p f).outboundMessages)
    (hevents : ∀ o, sendEvents o db' = sendEvents o db) : Audited db db' := by
  intro o
  rw [hevents, hdb, find?_updateRows]
  cases hr : db.outboundMessages.find? o with
  | none => simp [owedEvents]
  | some r =>
      have hpr : ¬ p r = true := fun hpr => by
        have hmem : r ∈ db.outboundMessages.select p :=
          Table.mem_select.mpr ⟨Table.mem_of_find? hr, hpr⟩
        rw [hempty] at hmem
        exact List.not_mem_nil hmem
      rw [Option.map_some, if_neg hpr, owedEvents_self, List.append_nil]

/-- One selected row changes and the trail records what it owes for this row. -/
theorem Audited.of_selected (outboundId : Uuid) (types : List String) {r : OutboundMessage}
    (hr : r ∈ db.outboundMessages.select p) (hp : ∀ r, p r → r.id = outboundId)
    (hdb : db'.outboundMessages = (db.updateRows p f).outboundMessages)
    (hevents : ∀ o, sendEvents o db' = sendEvents o db ++ if o = outboundId then types else [])
    (howed : types = owedEvents (some r) (some (f.apply r))) : Audited db db' := by
  obtain ⟨hmem, hpr⟩ := Table.mem_select.mp hr
  have hfind : db.outboundMessages.find? outboundId = some r :=
    hp r hpr ▸ Table.mem_iff_find?.mp hmem
  refine .of_update outboundId types hdb hevents hp (fun hnone => ?_) fun r' hr' => ?_
  · simp [hfind] at hnone
  · obtain rfl : r = r' := by simpa [hfind] using hr'
    rw [if_pos hpr, howed]

/-- The events after send events of one row. -/
theorem sendEvents_append (db : Database) (types : List String) {actor : Actor} {outboundId : Uuid}
    (h : db'.events = db.events ++ types.map fun t => ⟨actor, t, "outbound_message", outboundId⟩)
    (o : Uuid) : sendEvents o db' = sendEvents o db ++ if o = outboundId then types else [] := by
  unfold sendEvents
  rw [h, List.filter_append, List.map_append]
  congr 1
  split
  next he =>
    subst he
    have hall : (types.map fun t => (⟨actor, t, "outbound_message", o⟩ : AuditEvent)).filter
        (fun e => e.entityType == "outbound_message" && e.entityId == o) =
          types.map fun t => ⟨actor, t, "outbound_message", o⟩ := by
      refine List.filter_eq_self.mpr fun e he => ?_
      obtain ⟨t, -, rfl⟩ := List.mem_map.mp he
      simp
    rw [hall, List.map_map]
    exact List.map_id types
  next hne =>
    have hno : (types.map fun t => (⟨actor, t, "outbound_message", outboundId⟩ : AuditEvent)).filter
        (fun e => e.entityType == "outbound_message" && e.entityId == o) = [] := by
      refine List.filter_eq_nil_iff.mpr fun e he => ?_
      obtain ⟨t, -, rfl⟩ := List.mem_map.mp he
      simpa using Ne.symm hne
    rw [hno, List.map_nil]

theorem claimSend_recorded {outboundId : Uuid} {now : Time} {claimed : Option OutboundMessage}
    (hrun : (claimSend outboundId now).run db = .ok (claimed, db')) : Recorded db db' := by
  simp [claimSend] at hrun
  obtain ⟨-, rfl⟩ := hrun
  refine ⟨.of_update outboundId [] rfl (fun o => by simp; rfl)
    (fun r hp => (inStatus_iff.mp hp).1) (fun _ => rfl) fun r _ => ?_,
    .of_update rfl fun _ _ hs => by simp at hs⟩
  split
  next hp => simp [owedEvents, (inStatus_iff.mp hp).2, OutboundStatus.events]
  next => rw [owedEvents_self]

theorem claimSentCopy_recorded {outboundId : Uuid} {now : Time} {claimed : Option OutboundMessage}
    (hrun : (claimSentCopy outboundId now).run db = .ok (claimed, db')) : Recorded db db' := by
  simp [claimSentCopy] at hrun
  obtain ⟨-, rfl⟩ := hrun
  refine ⟨.of_update outboundId [] rfl (fun o => by simp; rfl)
    (fun r hp => (inStatus_iff.mp (Bool.and_eq_true_iff.mp hp).1).1) (fun _ => rfl) fun r _ => ?_,
    .of_update rfl fun _ _ hs => hs⟩
  split
  next hp =>
    have hopen : r.sentCopyStatus.isOpen = true := (Bool.and_eq_true_iff.mp hp).2
    have hne : SentCopyStatus.appending ≠ r.sentCopyStatus := by
      rintro he
      simp [← he, SentCopyStatus.isOpen] at hopen
    simp [owedEvents, hne, SentCopyStatus.events, haltEvents]
  next => rw [owedEvents_self]

/-- A failure is recorded once: its row has not failed before. -/
theorem commitFailure_audited {row updated : OutboundMessage} {outcome : FailureOutcome}
    (hopen : ∀ r, db.outboundMessages.find? row.id = some r → r.status ≠ .failed)
    (hrun : (commitFailure row outcome).run db = .ok (updated, db')) : Audited db db' := by
  simp [commitFailure, unlockDraftAfterFailure, recordSendEvent] at hrun
  obtain ⟨n, db₁, hrelease, -, rfl⟩ := hrun
  obtain ⟨⟨r', hr', hstatus⟩, -⟩ := releaseDraftLock_ok hrelease
  have hsame := steps_releaseDraftLock.step _ _ hrelease
  obtain ⟨r, hr, hafter⟩ := Option.map_eq_some_iff.mp ((find?_updateRows row.id).symm.trans hr')
  have hsending : inStatus row.id .sending r = true := by
    by_contra hpr
    rw [if_neg hpr] at hafter
    exact hopen r hr (hafter ▸ hstatus)
  have hselected : r ∈ db.outboundMessages.select (inStatus row.id .sending) :=
    Table.mem_select.mpr ⟨Table.mem_of_find? hr, hsending⟩
  refine .of_selected row.id ["send.failed"] hselected (fun r hp => (inStatus_iff.mp hp).1)
    hsame.outboundMessages (fun o => ?_) ?_
  · rw [sendEvents_append db₁ ["send.failed"] rfl, hsame.events]
    rfl
  · simp [owedEvents, (inStatus_iff.mp hsending).2, OutboundStatus.events]

/-- A failure leaves every other row alone. -/
theorem commitFailure_others {row updated : OutboundMessage} {outcome : FailureOutcome}
    (hrun : (commitFailure row outcome).run db = .ok (updated, db')) {o : Uuid} (ho : o ≠ row.id) :
    db'.outboundMessages.find? o = db.outboundMessages.find? o := by
  simp [commitFailure, unlockDraftAfterFailure, recordSendEvent] at hrun
  obtain ⟨n, db₁, hrelease, -, rfl⟩ := hrun
  change db₁.outboundMessages.find? o = _
  rw [(releaseDraftLock_ok hrelease).2.2.2.2, find?_updateRows]
  cases hr : db.outboundMessages.find? o with
  | none => rfl
  | some r =>
      have hid : r.id = o := Table.key_of_find? hr
      have hpr : ¬ inStatus row.id .sending r = true := fun hpr =>
        ho (hid.symm.trans (inStatus_iff.mp hpr).1)
      rw [Option.map_some, if_neg hpr]

/-- An unclassified outcome is recorded for a row that is being sent. -/
theorem commitUnknown_audited {row updated r : OutboundMessage} {report : SmtpSubmitReport}
    (hr : db.outboundMessages.find? row.id = some r) (hsending : r.status = .sending)
    (hrun : (commitUnknown row report).run db = .ok (updated, db')) : Audited db db' := by
  simp [commitUnknown, recordSendEvent] at hrun
  obtain ⟨-, rfl⟩ := hrun
  have hid : r.id = row.id := Table.key_of_find? hr
  have hselected : r ∈ db.outboundMessages.select (inStatus row.id .sending) :=
    Table.mem_select.mpr ⟨Table.mem_of_find? hr, inStatus_iff.mpr ⟨hid, hsending⟩⟩
  refine .of_selected row.id _ hselected (fun r hp => (inStatus_iff.mp hp).1) rfl
    (sendEvents_append _ ["send.outcome_unknown"] rfl) ?_
  simp [owedEvents, hsending, OutboundStatus.events]

/-- An unclassified outcome is no failure. -/
theorem commitUnknown_noFailure {row updated : OutboundMessage} {report : SmtpSubmitReport}
    (hrun : (commitUnknown row report).run db = .ok (updated, db')) : NoFailure db db' := by
  simp [commitUnknown, recordSendEvent] at hrun
  obtain ⟨-, rfl⟩ := hrun
  exact .of_update rfl fun _ _ hs => by simp at hs

/-- An acceptance is recorded for a row that leaves another status. -/
theorem commitAccepted_recorded {row accepted : OutboundMessage} {input : AcceptanceInput}
    {parsed : ParsedMessage} {freshId : Uuid} {now : Time} (hfrom : input.fromStatus ≠ .sent)
    (hrun : (commitAccepted row input parsed freshId now).run db = .ok (accepted, db')) :
    Recorded db db' := by
  simp [commitAccepted] at hrun
  obtain ⟨messageId, db₁, hmessage, haccept⟩ := hrun
  have hresolve := steps_resolveSentMessage.step _ _ hmessage
  cases hrows : db₁.outboundMessages.select (inStatus row.id input.fromStatus) with
  | nil => simp [hrows] at haccept
  | cons r rows =>
      simp [hrows, unlockDraftAfterSend, recordSendEvent] at haccept
      obtain ⟨-, n, db₂, hrelease, -, rfl⟩ := haccept
      have hsame := steps_releaseDraftLock.step _ _ hrelease
      have hr : r ∈ db₁.outboundMessages.select (inStatus row.id input.fromStatus) := by
        simp [hrows]
      have hs : r.status = input.fromStatus :=
        (inStatus_iff.mp (Table.mem_select.mp hr).2).2
      have haudit : Audited db₁ { db₂ with events :=
          db₂.events ++ [⟨.system, "send.sent", "outbound_message", row.id⟩] } := by
        refine .of_selected row.id ["send.sent"] hr (fun r hp => (inStatus_iff.mp hp).1)
          hsame.outboundMessages (fun o => ?_) ?_
        · rw [sendEvents_append db₂ ["send.sent"] rfl, hsame.events]
          rfl
        · have hne : OutboundStatus.sent ≠ r.status := fun he => hfrom (hs.symm.trans he.symm)
          simp [owedEvents, (acceptedRow_status input messageId now r).1, hne,
            OutboundStatus.events]
      refine ⟨fun o => ?_, fun o r' hr' hs => ?_⟩
      · rw [haudit o, hresolve.events, hresolve.outboundMessages]
      · obtain ⟨r₁, hr₁, hs₁⟩ := NoFailure.of_update hsame.outboundMessages
          (fun r _ hs => by simp [(acceptedRow_status input messageId now r).1] at hs) o r' hr' hs
        exact ⟨r₁, by rwa [hresolve.outboundMessages] at hr₁, hs₁⟩

theorem holdSending_recorded {outboundId : Uuid} {held : Bool}
    (hrun : (holdSending outboundId).run db = .ok (held, db')) : Recorded db db' := by
  cases hrows : db.outboundMessages.select (inStatus outboundId .sending) with
  | nil =>
      simp [holdSending, hrows] at hrun
      obtain ⟨-, rfl⟩ := hrun
      exact ⟨.of_empty hrows rfl fun _ => rfl, .of_update rfl fun _ _ hs => by simp at hs⟩
  | cons r rows =>
      simp [holdSending, hrows, recordSendEvent] at hrun
      obtain ⟨-, rfl⟩ := hrun
      have hr : r ∈ db.outboundMessages.select (inStatus outboundId .sending) := by simp [hrows]
      refine ⟨.of_selected outboundId _ hr (fun r hp => (inStatus_iff.mp hp).1) rfl
        (sendEvents_append _ ["send.outcome_unknown"] rfl) ?_,
        .of_update rfl fun _ _ hs => by simp at hs⟩
      have hs : r.status = .sending := (inStatus_iff.mp (Table.mem_select.mp hr).2).2
      simp [owedEvents, hs, OutboundStatus.events]

theorem holdAppending_recorded {outboundId : Uuid} {held : Bool}
    (hrun : (holdAppending outboundId).run db = .ok (held, db')) : Recorded db db' := by
  cases hrows : db.outboundMessages.select
      fun r => r.id == outboundId && r.sentCopyStatus == .appending with
  | nil =>
      simp [holdAppending, hrows] at hrun
      obtain ⟨-, rfl⟩ := hrun
      exact ⟨.of_empty hrows rfl fun _ => rfl, .of_update rfl fun _ _ hs => hs⟩
  | cons r rows =>
      simp [holdAppending, hrows, recordSendEvent] at hrun
      obtain ⟨-, rfl⟩ := hrun
      have hr : r ∈ db.outboundMessages.select
          fun r => r.id == outboundId && r.sentCopyStatus == .appending := by simp [hrows]
      refine ⟨.of_selected outboundId _ hr
        (fun r hp => by simpa using (Bool.and_eq_true_iff.mp hp).1) rfl
        (sendEvents_append _ ["send.sent_copy_unknown"] rfl) ?_,
        .of_update rfl fun _ _ hs => hs⟩
      have hs : r.sentCopyStatus = .appending := by
        simpa using (Bool.and_eq_true_iff.mp (Table.mem_select.mp hr).2).2
      simp [owedEvents, hs, SentCopyStatus.events, haltEvents]

/-- What the trail owes for a conclusion. -/
theorem owedEvents_concluded {outcome : SentCopyOutcome} {r : OutboundMessage}
    (h : r.sentCopyStatus ≠ .stored) :
    owedEvents (some r) (some (concludedRow outcome r)) = outcome.event ::
      if outcome.isOpen = true ∧ sendSweepAttemptCap ≤ (concludedRow outcome r).sentCopyAttempts
        then ["send.sent_copy_halted"] else [] := by
  cases outcome with
  | stored destination =>
      simp [owedEvents, concludedRow, SentCopyOutcome.isOpen, SentCopyOutcome.event, h.symm,
        SentCopyStatus.events, haltEvents]
  | failed error =>
      simp [owedEvents, concludedRow, SentCopyOutcome.isOpen, SentCopyOutcome.event,
        SentCopyStatus.events, haltEvents]
  | unknown error =>
      simp [owedEvents, concludedRow, SentCopyOutcome.isOpen, SentCopyOutcome.event,
        SentCopyStatus.events, haltEvents]

/-- A conclusion is recorded for a row that it writes to. -/
theorem commitSentCopy_recorded {row after : OutboundMessage} {claim : SentCopyClaim}
    {outcome : SentCopyOutcome}
    (hrun : (commitSentCopy row claim outcome).run db = .ok (after, db')) : Recorded db db' := by
  have hkeep : ∀ r, concludes row.id claim r = true →
      (concludedRow outcome r).status = .failed → r.status = .failed := fun r _ hs => by
    cases outcome <;> exact hs
  simp [commitSentCopy] at hrun
  cases hrows : db.outboundMessages.select (concludes row.id claim) with
  | nil =>
      simp [hrows] at hrun
      obtain ⟨-, rfl⟩ := hrun
      exact ⟨.of_empty hrows rfl fun _ => rfl, .of_update rfl hkeep⟩
  | cons r rows =>
      simp [hrows, recordSendEvent] at hrun
      have hr : r ∈ db.outboundMessages.select (concludes row.id claim) := by simp [hrows]
      obtain ⟨hin, hclaim⟩ := Bool.and_eq_true_iff.mp (Table.mem_select.mp hr).2
      have hopen : r.sentCopyStatus ≠ .stored := by
        rintro he
        cases claim <;> simp [he, SentCopyStatus.isOpen] at hclaim
      have hp : ∀ r, concludes row.id claim r = true → r.id = row.id :=
        fun r hp => (inStatus_iff.mp (Bool.and_eq_true_iff.mp hp).1).1
      obtain ⟨hhalt, -, rfl⟩ | ⟨hhalt, -, rfl⟩ := hrun
      · refine ⟨.of_selected row.id [outcome.event, "send.sent_copy_halted"] hr hp rfl
          (sendEvents_append _ _ (by simp; rfl)) ?_, .of_update rfl hkeep⟩
        rw [owedEvents_concluded hopen, if_pos hhalt]
      · refine ⟨.of_selected row.id [outcome.event] hr hp rfl (sendEvents_append _ _ rfl) ?_,
          .of_update rfl hkeep⟩
        rw [owedEvents_concluded hopen, if_neg (by simpa using hhalt)]

/-- A pass without a result is recorded when it exhausts the row. -/
theorem commitReconcilePass_recorded {outboundId : Uuid} {u : Unit}
    (hrun : (commitReconcilePass outboundId).run db = .ok (u, db')) : Recorded db db' := by
  have hp : ∀ r, inStatus outboundId .outcomeUnknown r = true → r.id = outboundId :=
    fun r hp => (inStatus_iff.mp hp).1
  simp [commitReconcilePass, recordSendEvent] at hrun
  obtain ⟨⟨r, ⟨hmem, hpr⟩, hhalt⟩, rfl⟩ | ⟨hopen, rfl⟩ := hrun
  · refine ⟨.of_selected outboundId ["send.reconcile_halted"]
      (Table.mem_select.mpr ⟨hmem, hpr⟩) hp rfl (sendEvents_append _ _ rfl) ?_,
      .of_update rfl fun _ _ hs => hs⟩
    simp [owedEvents, haltEvents, hhalt]
  · refine ⟨.of_update outboundId [] rfl (fun o => by simp; rfl) hp
      (fun _ => rfl) fun r hr => ?_, .of_update rfl fun _ _ hs => hs⟩
    split
    next hpr =>
      have hlt : r.reconcileAttempts + 1 < sendSweepAttemptCap :=
        hopen _ r (Table.mem_of_find? hr) hpr rfl
      simp [owedEvents, haltEvents, hlt]
    next => rw [owedEvents_self]

/-! ## Snapshots -/

theorem steps_lockDraftForSend {draftId outboundId : Uuid} {revision : ℕ} :
    Steps SameSends db (lockDraftForSend draftId revision outboundId) := by
  refine .bind ?_ fun row _ _ => .ite (fun _ => .throw_bind) fun _ => .ite (fun _ => .lift)
    fun _ => .ite (fun _ => .throw_bind) fun _ => ?_
  · refine .get_bind ?_
    split
    · exact .pure _
    · exact .throw
  · refine .bind (.modify ⟨rfl, fun _ => rfl⟩) fun _ _ _ => ?_
    exact .bind (steps_recordEvent (by decide)) fun _ _ _ => .lift

/-- A new row is recorded as queued. -/
theorem commitSnapshot_recorded {row : OutboundMessage} {draftId : Uuid} {baseRevision : ℕ}
    {attachments : List VerifiedAttachment} {record : OutboundRecord}
    (hqueued : row.status = .queued)
    (hrun : (commitSnapshot row draftId baseRevision attachments).run db = .ok (record, db')) :
    Recorded db db' := by
  cases hfind : db.drafts.find? draftId with
  | none => simp [commitSnapshot, loadEditableDraft, hfind] at hrun
  | some draft =>
      simp [commitSnapshot, loadEditableDraft, hfind] at hrun
      obtain ⟨-, -, -, -, _, db₁, hrow, _, db₂, hlinks, _, db₃, hlock, -, rfl⟩ := hrun
      obtain ⟨-, rows, hins, rfl⟩ := insertOutbound_ok hrow
      obtain ⟨links, rfl, -⟩ := insertOutboundUploads_ok hlinks
      have hsame := steps_lockDraftForSend.step _ _ hlock
      have hnew : db.outboundMessages.find? row.id = none := Table.find?_of_insert? hins
      have hafter : ∀ o, rows.find? o = if row.id = o then some row else
          db.outboundMessages.find? o := fun o => Table.find?_insert? hins
      have hfind : ∀ o, db₃.outboundMessages.find? o = if row.id = o then some row else
          db.outboundMessages.find? o := fun o => by rw [hsame.outboundMessages, hafter o]
      refine ⟨fun o => ?_, fun o r' hr' hs => ?_⟩
      · rw [sendEvents_append db₃ ["send.queued"] rfl, hsame.events]
        change sendEvents o db ++ _ = sendEvents o db ++
          owedEvents (db.outboundMessages.find? o) (db₃.outboundMessages.find? o)
        rw [hfind]
        by_cases ho : row.id = o
        · subst ho
          rw [if_pos rfl, if_pos rfl, hnew]
          rfl
        · rw [if_neg ho, if_neg (Ne.symm ho), owedEvents_self]
      · rw [hfind] at hr'
        split at hr'
        · obtain rfl : row = r' := Option.some.inj hr'
          simp [hqueued] at hs
        · exact ⟨r', hr', hs⟩

end MailHub
