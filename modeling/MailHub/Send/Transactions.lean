import MailHub.Compose.Edits
import MailHub.Send.Consistency

/-!
# What each transaction does to drafts and sends

One inversion lemma for each statement that touches the four tables, and one step lemma for each
transaction: from a consistent database it leaves a consistent one and changes nothing it must
leave alone.
-/

namespace MailHub

open Relational Interleaving

variable {libs : Libraries} {db db' : Database}

/-! ## Statements -/

@[simp] theorem requireUpload_ok {uploadId : Uuid} {upload : Upload} :
    (requireUpload uploadId).run db = .ok (upload, db') ↔
      db.uploads.find? uploadId = some upload ∧ db = db' := by
  unfold requireUpload
  cases h : db.uploads.find? uploadId <;> simp [h]

/-- The budget is a check only. -/
theorem requireAttachmentBudget_ok {draftId : Uuid} {upload : Upload} {u : Unit}
    (h : (requireAttachmentBudget draftId upload).run db = .ok (u, db')) : db' = db := by
  simp [requireAttachmentBudget] at h
  exact h.2.symm

/-- A link goes to a place of its draft that was free. -/
theorem insertDraftUpload_ok {link : DraftUpload} {u : Unit} :
    (insertDraftUpload link).run db = .ok (u, db') ↔
      (∀ l ∈ db.draftUploads.rows, l.draftId = link.draftId → l.ordinal ≠ link.ordinal) ∧
        ∃ t, db.draftUploads.insert? link = some t ∧ { db with draftUploads := t } = db' := by
  simp [insertDraftUpload]

@[simp] theorem insertDraft_ok {row : Draft} {u : Unit} :
    (insertDraft row).run db = .ok (u, db') ↔
      ∃ t, db.drafts.insert? row = some t ∧ { db with drafts := t } = db' := by
  simp [insertDraft]

/-! ## Draft edits -/

/-- A link of another draft does not count. -/
theorem draftLinks_of_insert {link : DraftUpload} {t : Table DraftUpload} {d : Uuid}
    (h : db.draftUploads.insert? link = some t) (hne : link.draftId ≠ d) :
    draftLinks d { db with draftUploads := t } = draftLinks d db := by
  simp [draftLinks, Table.select_insert? h, hne]

/-- An edit of one live, unlocked draft and of its links. -/
theorem MailStep.of_edit (h : Consistent libs db) {draftId : Uuid} {row : Draft}
    (hrow : db.drafts.find? draftId = some row) (hfree : row.lockedBySend = none)
    (ho : db'.outboundMessages = db.outboundMessages)
    (hu : db'.outboundUploads = db.outboundUploads) {f : Draft → Draft}
    (hd : ∀ d, db'.drafts.find? d =
      (db.drafts.find? d).map fun r => if r.id = draftId then f r else r)
    (hl : ∀ d, d ≠ draftId → draftLinks d db' = draftLinks d db)
    (hlock : (f row).lockedBySend = none) (hle : row.revision ≤ (f row).revision)
    (hcontent : (f row).revision = row.revision → (f row).content = row.content) :
    MailStep libs db db' := by
  refine .of_drafts h ho hu (fun d draft h₀ => ⟨_, by rw [hd, h₀, Option.map_some]⟩) ?_
  intro d draft' h'
  rw [hd, Option.map_eq_some_iff] at h'
  obtain ⟨draft, h₀, rfl⟩ := h'
  have hid : draft.id = d := Table.key_of_find? h₀
  refine .inr ⟨draft, h₀, ?_⟩
  by_cases he : d = draftId
  · subst he
    obtain rfl : row = draft := by simpa [hrow] using h₀
    simp only [hid, if_pos]
    exact ⟨hlock.trans hfree.symm, fun hne => absurd hfree hne, hle, hcontent⟩
  · rw [if_neg (hid.trans_ne he)]
    exact ⟨rfl, fun _ => ⟨rfl, hl d he⟩, le_rfl, fun _ => rfl⟩

/-- A new draft with its links. -/
theorem MailStep.of_new (h : Consistent libs db) {row : Draft} {t : Table Draft}
    (ho : db'.outboundMessages = db.outboundMessages)
    (hu : db'.outboundUploads = db.outboundUploads)
    (hins : db.drafts.insert? row = some t) (hd : db'.drafts = t)
    (hl : ∀ d, d ≠ row.id → draftLinks d db' = draftLinks d db)
    (hlock : row.lockedBySend = none) : MailStep libs db db' := by
  have hfind : ∀ d, db'.drafts.find? d = if row.id = d then some row else db.drafts.find? d :=
    fun d => by rw [hd, Table.find?_insert? hins]; rfl
  have hnew : db.drafts.find? row.id = none := Table.find?_of_insert? hins
  refine .of_drafts h ho hu (fun d draft h₀ => ?_) fun d draft' h' => ?_
  · rw [hfind]
    split
    · exact ⟨row, rfl⟩
    · exact ⟨draft, h₀⟩
  · rw [hfind] at h'
    split at h'
    next he =>
      obtain rfl := Option.some.inj h'
      exact .inl ⟨he ▸ hnew, hlock⟩
    next hne =>
      exact .inr ⟨draft', h', rfl, fun _ => ⟨rfl, hl d (Ne.symm hne)⟩, le_rfl, fun _ => rfl⟩

theorem commitDraftUpdate_step {draftId : Uuid} {input : UpdateDraftInput} {now : Time}
    {record : DraftRecord} (h : Consistent libs db)
    (hrun : (commitDraftUpdate draftId input now).run db = .ok (record, db')) :
    MailStep libs db db' := by
  simp [commitDraftUpdate, updateDraftRow, lockEditableDraft_ok] at hrun
  obtain ⟨row, ⟨hrow, -, hfree⟩, -, identity, -, recipients, -, subject, -, markdown, -,
    ⟨-, -, rfl⟩ | ⟨-, -, rfl⟩⟩ := hrun
  · exact .of_edit h hrow hfree rfl rfl (fun d => by simp; rfl) (fun _ _ => rfl) hfree
      (Nat.le_succ _) fun he => absurd he (Nat.succ_ne_self _)
  · exact .of_same h ⟨rfl, rfl, rfl, rfl⟩

theorem commitDraftDeletion_step {draftId : Uuid} {now : Time} {u : Unit} (h : Consistent libs db)
    (hrun : (commitDraftDeletion draftId now).run db = .ok (u, db')) : MailStep libs db db' := by
  simp [commitDraftDeletion, updateDraftRow, lockEditableDraft_ok] at hrun
  obtain ⟨⟨row, hrow, -, hfree⟩, rfl⟩ := hrun
  exact .of_edit h hrow hfree rfl rfl (fun d => by simp; rfl) (fun _ _ => rfl) hfree le_rfl
    fun _ => rfl

theorem commitUpload_step {row upload : Upload} (h : Consistent libs db)
    (hrun : (commitUpload row).run db = .ok (upload, db')) : MailStep libs db db' := by
  simp [commitUpload] at hrun
  obtain ⟨-, uploads, -, -, rfl⟩ := hrun
  exact .of_same h ⟨rfl, rfl, rfl, rfl⟩

theorem commitAttachment_step {draftId uploadId : Uuid} {attached : Upload × ℕ}
    (h : Consistent libs db)
    (hrun : (commitAttachment draftId uploadId).run db = .ok (attached, db')) :
    MailStep libs db db' := by
  simp [commitAttachment, lockEditableDraft_ok] at hrun
  obtain ⟨row, ⟨hrow, -, hfree⟩, upload, -, -, hlink⟩ := hrun
  cases hfind : db.draftUploads.find? (draftId, uploadId) with
  | some link =>
      simp [hfind] at hlink
      obtain ⟨-, rfl⟩ := hlink
      exact .of_same h ⟨rfl, rfl, rfl, rfl⟩
  | none =>
      simp [hfind, insertDraftUpload_ok] at hlink
      obtain ⟨_, db₁, hbudget, t, ⟨-, hins⟩, -, rfl⟩ := hlink
      obtain rfl := requireAttachmentBudget_ok hbudget
      exact .of_edit h hrow hfree rfl rfl (f := id) (fun d => by simp)
        (fun d hne => draftLinks_of_insert hins (Ne.symm hne)) hfree le_rfl fun _ => rfl

theorem commitDetachment_step {draftId uploadId : Uuid} {u : Unit} (h : Consistent libs db)
    (hrun : (commitDetachment draftId uploadId).run db = .ok (u, db')) : MailStep libs db db' := by
  simp [commitDetachment, lockEditableDraft_ok] at hrun
  obtain ⟨⟨row, hrow, -, hfree⟩, -, rfl⟩ := hrun
  refine .of_edit h hrow hfree rfl rfl (f := id) (fun d => by simp) (fun d hne => ?_) hfree le_rfl
    fun _ => rfl
  simp only [draftLinks, Table.select_delete]
  congr 1
  refine List.filter_eq_self.mpr fun l hl => ?_
  have hld : l.draftId = d := by simpa using (Table.mem_select.mp hl).2
  simp [hld, hne]

theorem commitNewDraft_step {row : Draft} {event : String} {record : DraftRecord}
    (h : Consistent libs db) (hlock : row.lockedBySend = none)
    (hrun : (commitNewDraft row event).run db = .ok (record, db')) : MailStep libs db db' := by
  simp [commitNewDraft] at hrun
  obtain ⟨t, hins, -, rfl⟩ := hrun
  exact .of_new h rfl rfl hins rfl (fun _ _ => rfl) hlock

theorem commitReplyDraft_step {libs' : Libraries} {input : CreateReplyDraftInput} {id : Uuid}
    {now : Time} {record : DraftRecord} (h : Consistent libs db)
    (hrun : (commitReplyDraft libs' input id now).run db = .ok (record, db')) :
    MailStep libs db db' := by
  simp [commitReplyDraft] at hrun
  obtain ⟨parent, -, account, -, identity, -, recipients, -, markdown, -, hrun⟩ := hrun
  exact commitNewDraft_step h rfl hrun

/-- Copying links changes the links of one draft and nothing else. -/
theorem copyLinks_ok {draftId : Uuid} {links : List OutboundUpload} {u : Unit}
    (h : (copyLinks draftId links).run db = .ok (u, db')) :
    ∃ t, { db with draftUploads := t } = db' ∧
      ∀ d, d ≠ draftId → draftLinks d db' = draftLinks d db := by
  induction links generalizing db with
  | nil =>
      obtain rfl : db = db' := by simpa [copyLinks] using h
      exact ⟨db.draftUploads, rfl, fun _ _ => rfl⟩
  | cons link links ih =>
      simp [copyLinks, insertDraftUpload_ok] at h
      obtain ⟨t, ⟨-, hins⟩, hrest⟩ := h
      obtain ⟨t', rfl, hlinks⟩ := ih hrest
      exact ⟨t', rfl, fun d hne =>
        (hlinks d hne).trans (draftLinks_of_insert hins (Ne.symm hne))⟩

theorem commitResend_step {outboundId id : Uuid} {now : Time} {record : DraftRecord}
    (h : Consistent libs db)
    (hrun : (commitResend outboundId id now).run db = .ok (record, db')) :
    MailStep libs db db' := by
  cases hfind : db.outboundMessages.find? outboundId with
  | none => simp [commitResend, hfind] at hrun
  | some outbound =>
      simp [commitResend, hfind] at hrun
      obtain ⟨-, recipients, -, t, hins, _, db₁, hcopy, -, rfl⟩ := hrun
      obtain ⟨t', rfl, hlinks⟩ := copyLinks_ok hcopy
      exact .of_new h rfl rfl hins rfl hlinks rfl

/-! ## Rows -/

section Rows

variable {p : OutboundMessage → Bool} {f : RowUpdate}

@[simp] theorem updateOutbound_run : (updateOutbound p f).run db =
    .ok ((db.outboundMessages.select p).map f.apply, db.updateRows p f) := rfl

@[simp] theorem find?_updateRows (o : Uuid) : (db.updateRows p f).outboundMessages.find? o =
    (db.outboundMessages.find? o).map fun r => if p r then f.apply r else r := by
  simp [Database.updateRows]

/-- A selected row is in the table, and after the update its key reads the rewritten row. -/
theorem find?_of_selected {r : OutboundMessage} (h : r ∈ db.outboundMessages.select p) :
    db.outboundMessages.find? r.id = some r ∧ p r ∧
      (db.updateRows p f).outboundMessages.find? r.id = some (f.apply r) := by
  obtain ⟨hmem, hp⟩ := Table.mem_select.mp h
  have hfind : db.outboundMessages.find? r.id = some r := Table.mem_iff_find?.mp hmem
  exact ⟨hfind, hp, by rw [find?_updateRows, hfind, Option.map_some, if_pos hp]⟩

/-- A row that stays as it is changes nothing, unless it should have been released. -/
theorem RowChange.same {released : Option Uuid} {r : OutboundMessage}
    (hr : some r.id = released → r.status.isUnresolved = false)
    (hcopy : r.status ≠ .sent → r.sentCopyStatus = .pending) : RowChange released r r where
  snapshot := rfl
  unresolved := by
    constructor
    · intro h
      exact ⟨fun he => by simp [hr he] at h, h⟩
    · exact And.right
  queue := id
  copy := hcopy

/-- Some rows change their execution record and every lock stays. -/
theorem consistent_updateRows (h : Consistent libs db)
    (hchange : ∀ o r, db.outboundMessages.find? o = some r → p r → RowChange none r (f.apply r)) :
    Consistent libs (db.updateRows p f) ∧ Evolves db (db.updateRows p f) := by
  refine consistent_of_rows none h (fun d => ?_) rfl rfl find?_updateRows fun o row hrow => ?_
  · change db.drafts.find? d = _
    cases db.drafts.find? d <;> simp [unlocked_none]
  · cases hp : p row with
    | true => simpa using hchange o row hrow hp
    | false => simpa using RowChange.same (by simp) (h.copy o row hrow)

/-- Rows that leave every claim alone take no append claim. -/
theorem noCopyClaim_updateRows
    (hclaim : ∀ r, p r → (f.apply r).sentCopyStatus = .appending → r.sentCopyStatus = .appending) :
    NoCopyClaim db (db.updateRows p f) := by
  refine noCopyClaim_of_rows find?_updateRows fun row hs => ?_
  cases hp : p row with
  | true => exact hclaim row hp (by simpa [hp] using hs)
  | false => simpa [hp] using hs

/-- Some rows change their execution record and none takes an append claim. -/
theorem MailStep.of_update (h : Consistent libs db) (hs : SameMail (db.updateRows p f) db')
    (hchange : ∀ o r, db.outboundMessages.find? o = some r → p r → RowChange none r (f.apply r))
    (hclaim : ∀ r, p r → (f.apply r).sentCopyStatus = .appending → r.sentCopyStatus = .appending) :
    MailStep libs db db' := by
  obtain ⟨hc, he⟩ := consistent_updateRows h hchange
  exact MailStep.and_same ⟨hc, he, noCopyClaim_updateRows hclaim⟩ hs

/-- The release of one lock: its row has the required status, and its drafts lose the lock. -/
theorem releaseDraftLock_ok {outboundId : Uuid} {status : OutboundStatus} {n : ℕ}
    (h : (releaseDraftLock outboundId status).run db = .ok (n, db')) :
    (∃ row, db.outboundMessages.find? outboundId = some row ∧ row.status = status) ∧
      (∀ d, db'.drafts.find? d = (db.drafts.find? d).map (unlocked (some outboundId))) ∧
      db'.draftUploads = db.draftUploads ∧ db'.outboundUploads = db.outboundUploads ∧
      db'.outboundMessages = db.outboundMessages := by
  cases hfind : db.outboundMessages.find? outboundId with
  | none => simp [releaseDraftLock, hfind] at h
  | some row =>
      simp [releaseDraftLock, hfind] at h
      obtain ⟨hstatus, -, rfl⟩ := h
      refine ⟨⟨row, rfl, hstatus⟩, fun d => ?_, rfl, rfl, rfl⟩
      simp
      rfl

/-- Some rows change their execution record, and the lock of one send is released. -/
theorem MailStep.of_release (h : Consistent libs db) {outboundId : Uuid}
    {status : OutboundStatus} {n : ℕ}
    (hrun : (releaseDraftLock outboundId status).run (db.updateRows p f) = .ok (n, db'))
    (hdefinite : status.isUnresolved = false) (hp : ∀ r, p r → r.id = outboundId)
    (hstatus : ∀ r, (f.apply r).status = status)
    (hcopy : ∀ o r, db.outboundMessages.find? o = some r → p r → status ≠ .sent →
      (f.apply r).sentCopyStatus = .pending)
    (hclaim : ∀ r, p r → (f.apply r).sentCopyStatus = .appending → r.sentCopyStatus = .appending) :
    MailStep libs db db' := by
  obtain ⟨⟨row, hrow, hrs⟩, hd, hl, hu, ho⟩ := releaseDraftLock_ok hrun
  have hfind : ∀ o, db'.outboundMessages.find? o =
      (db.outboundMessages.find? o).map fun r => if p r then f.apply r else r :=
    fun o => by rw [ho, find?_updateRows]
  have hqueued : status ≠ .queued := fun he => by simp [he, OutboundStatus.isUnresolved] at hdefinite
  have hchange : ∀ o r, db.outboundMessages.find? o = some r →
      RowChange (some outboundId) r (if p r then f.apply r else r) := by
    intro o r hr
    cases hpr : p r with
    | true =>
        simp only [if_true]
        refine ⟨f.snapshot r, ?_, fun hq => absurd ((hstatus r).symm.trans hq) hqueued,
          fun hs => hcopy o r hr hpr (hstatus r ▸ hs)⟩
        simp [hstatus r, hdefinite, hp r hpr]
    | false =>
        simp only [Bool.false_eq_true, if_false]
        refine .same (fun hid => ?_) (h.copy o r hr)
        -- the released row already had the required status
        obtain rfl : r.id = outboundId := Option.some.inj hid
        obtain rfl : r.id = o := Table.key_of_find? hr
        rw [find?_updateRows, hr, Option.map_some, hpr] at hrow
        obtain rfl : r = row := by simpa using hrow
        rw [hrs, hdefinite]
  obtain ⟨hc, he⟩ := consistent_of_rows (some outboundId) h hd hl hu hfind hchange
  have hnone : NoCopyClaim db (db.updateRows p f) := noCopyClaim_updateRows hclaim
  exact ⟨hc, he, fun o row' hrow' => hnone o row' (by rwa [ho] at hrow')⟩

end Rows

/-! ## Outcomes -/

/-- A row under a condition on its identifier and status. -/
theorem inStatus_iff {outboundId : Uuid} {status : OutboundStatus} {r : OutboundMessage} :
    inStatus outboundId status r = true ↔ r.id = outboundId ∧ r.status = status := by
  simp [inStatus]

theorem commitFailure_step {row updated : OutboundMessage} {outcome : FailureOutcome}
    (h : Consistent libs db)
    (hrun : (commitFailure row outcome).run db = .ok (updated, db')) : MailStep libs db db' := by
  simp [commitFailure, unlockDraftAfterFailure, recordSendEvent] at hrun
  obtain ⟨n, db₁, hrelease, -, rfl⟩ := hrun
  have hstep : MailStep libs db db₁ := by
    refine .of_release h hrelease rfl (fun r hr => (inStatus_iff.mp hr).1) (fun _ => rfl)
      (fun o r hr hp _ => ?_) fun _ _ hs => hs
    exact h.copy o r hr (by simp [(inStatus_iff.mp hp).2])
  exact hstep.and_same ⟨rfl, rfl, rfl, rfl⟩

/-- An attempt that ends without a definitive outcome. -/
theorem RowChange.unknown (h : Consistent libs db) {o : Uuid} {r r' : OutboundMessage}
    (hr : db.outboundMessages.find? o = some r) (hs : r.status = .sending)
    (hsnapshot : r'.toOutboundSnapshot = r.toOutboundSnapshot) (hs' : r'.status = .outcomeUnknown)
    (hcopy : r'.sentCopyStatus = r.sentCopyStatus) : RowChange none r r' where
  snapshot := hsnapshot
  unresolved := by simp [hs, hs', OutboundStatus.isUnresolved]
  queue := by simp [hs']
  copy := fun _ => hcopy.trans (h.copy o r hr (by simp [hs]))

theorem commitUnknown_step {row updated : OutboundMessage} {report : SmtpSubmitReport}
    (h : Consistent libs db)
    (hrun : (commitUnknown row report).run db = .ok (updated, db')) : MailStep libs db db' := by
  simp [commitUnknown, recordSendEvent] at hrun
  obtain ⟨-, rfl⟩ := hrun
  exact .of_update h ⟨rfl, rfl, rfl, rfl⟩
    (fun o r hr hp => .unknown h hr (inStatus_iff.mp hp).2 rfl rfl rfl) fun _ _ hs => hs

theorem holdSending_step {outboundId : Uuid} {held : Bool} (h : Consistent libs db)
    (hrun : (holdSending outboundId).run db = .ok (held, db')) : MailStep libs db db' := by
  simp [holdSending, recordSendEvent] at hrun
  obtain ⟨-, -, rfl⟩ | ⟨-, -, rfl⟩ := hrun
  · exact .of_update h ⟨rfl, rfl, rfl, rfl⟩
      (fun o r hr hp => .unknown h hr (inStatus_iff.mp hp).2 rfl rfl rfl) fun _ _ hs => hs
  · exact .of_update h ⟨rfl, rfl, rfl, rfl⟩
      (fun o r hr hp => .unknown h hr (inStatus_iff.mp hp).2 rfl rfl rfl) fun _ _ hs => hs

theorem SameMail.trans {db₁ db₂ db₃ : Database} (h₁ : SameMail db₁ db₂) (h₂ : SameMail db₂ db₃) :
    SameMail db₁ db₃ :=
  ⟨h₂.drafts.trans h₁.drafts, h₂.draftUploads.trans h₁.draftUploads,
    h₂.outboundMessages.trans h₁.outboundMessages, h₂.outboundUploads.trans h₁.outboundUploads⟩

theorem insertAttachments_same {messageId : Uuid} {parts : List LocatedPart} {u : Unit}
    (h : (insertAttachments messageId parts).run db = .ok (u, db')) : SameMail db db' := by
  induction parts generalizing db with
  | nil =>
      obtain rfl : db = db' := by simpa [insertAttachments] using h
      exact ⟨rfl, rfl, rfl, rfl⟩
  | cons part parts ih =>
      simp [insertAttachments] at h
      obtain ⟨t, -, hrest⟩ := h
      obtain ⟨hd, hl, ho, hu⟩ := ih hrest
      exact ⟨hd, hl, ho, hu⟩

theorem markThreadJobsDirty_same {accountId : Uuid} {marking : ThreadJobMarking} {u : Unit}
    (h : (markThreadJobsDirty accountId marking).run db = .ok (u, db')) : SameMail db db' := by
  have hmark : Steps SameMail db (markThreadJobsDirty accountId marking) :=
    markThreadJobsDirty_steps ⟨rfl, rfl, rfl, rfl⟩
  exact hmark.step u db' h

/-- The local message of an accepted send is none of the sends. -/
theorem resolveSentMessage_same {row : OutboundMessage} {parsed : ParsedMessage} {bytes : Bytes}
    {freshId id : Uuid} {now : Time}
    (h : (resolveSentMessage row parsed bytes freshId now).run db = .ok (id, db')) :
    SameMail db db' := by
  cases hfind : findMessageByHash row.accountId row.mimeSha256 db with
  | some existing =>
      simp [resolveSentMessage, hfind] at h
      obtain ⟨-, rfl⟩ := h
      exact ⟨rfl, rfl, rfl, rfl⟩
  | none =>
      simp [resolveSentMessage, hfind, insertLocalSentMessage, insertMessage] at h
      obtain ⟨messages, -, bodies, -, _, db₁, hattach, ⟨_, hmark⟩, -⟩ := h
      obtain ⟨hd, hl, ho, hu⟩ := (insertAttachments_same hattach).trans
        (markThreadJobsDirty_same hmark)
      exact ⟨hd, hl, ho, hu⟩

@[simp] theorem requireUnnamedMessage_ok {outboundId messageId : Uuid} {u : Unit} :
    (requireUnnamedMessage outboundId messageId).run db = .ok (u, db') ↔
      (∀ o ∈ db.outboundMessages.rows, o.id ≠ outboundId →
        o.logicalMessageId ≠ some messageId) ∧ db = db' := by
  simp [requireUnnamedMessage]

/-- What an acceptance writes. -/
theorem acceptedRow_status (input : AcceptanceInput) (messageId : Uuid) (now : Time)
    (r : OutboundMessage) : (acceptedRow input messageId now r).status = .sent ∧
      ((acceptedRow input messageId now r).sentCopyStatus = .appending →
        r.sentCopyStatus = .appending) := by
  unfold acceptedRow
  split <;> simp

theorem commitAccepted_step {row accepted : OutboundMessage} {input : AcceptanceInput}
    {parsed : ParsedMessage} {freshId : Uuid} {now : Time} (h : Consistent libs db)
    (hrun : (commitAccepted row input parsed freshId now).run db = .ok (accepted, db')) :
    MailStep libs db db' := by
  simp [commitAccepted] at hrun
  obtain ⟨messageId, db₁, hmessage, haccept⟩ := hrun
  have hsame := MailStep.of_same h (resolveSentMessage_same hmessage)
  cases hrows : db₁.outboundMessages.select (inStatus row.id input.fromStatus) with
  | nil => simp [hrows] at haccept
  | cons r rows =>
      simp [hrows, unlockDraftAfterSend, recordSendEvent] at haccept
      obtain ⟨-, n, db₂, hrelease, -, rfl⟩ := haccept
      have hstep : MailStep libs db₁ db₂ := by
        refine .of_release hsame.consistent hrelease rfl (fun r hr => (inStatus_iff.mp hr).1)
          (fun r => (acceptedRow_status input messageId now r).1) (fun _ _ _ _ hs => ?_)
          fun r _ hs => (acceptedRow_status input messageId now r).2 hs
        exact absurd rfl hs
      exact (hsame.trans hstep).and_same ⟨rfl, rfl, rfl, rfl⟩

/-! ## Claims and conclusions -/

/-- What the claim of a queued row does. -/
structure SendClaimed (db db' : Database) (row : OutboundMessage) : Prop where
  /-- The row was queued. -/
  before : ∃ before, db.outboundMessages.find? row.id = some before ∧ before.status = .queued
  /-- The row is being sent. -/
  after : db'.outboundMessages.find? row.id = some row
  status : row.status = .sending

theorem claimSend_step {outboundId : Uuid} {now : Time} {claimed : Option OutboundMessage}
    (h : Consistent libs db) (hrun : (claimSend outboundId now).run db = .ok (claimed, db')) :
    MailStep libs db db' ∧
      ∀ row, claimed = some row → row.id = outboundId ∧ SendClaimed db db' row := by
  simp [claimSend] at hrun
  obtain ⟨hhead, rfl⟩ := hrun
  refine ⟨.of_update h ⟨rfl, rfl, rfl, rfl⟩ (fun o r hr hp => ?_) fun _ _ hs => hs, ?_⟩
  · have hs := (inStatus_iff.mp hp).2
    exact ⟨rfl, by simp [hs, OutboundStatus.isUnresolved], fun _ => hs,
      fun _ => h.copy o r hr (by simp [hs])⟩
  · rintro row rfl
    obtain ⟨before, hmem, rfl⟩ := Option.map_eq_some_iff.mp hhead
    obtain ⟨hbefore, hp, hafter⟩ := find?_of_selected (List.mem_of_head? hmem)
    obtain ⟨hid, hs⟩ := inStatus_iff.mp hp
    exact ⟨hid, ⟨before, hbefore, hs⟩, hafter, rfl⟩

/-- A change of the Sent copy of an accepted send. -/
theorem RowChange.of_sent {r r' : OutboundMessage} (hs : r.status = .sent)
    (hsnapshot : r'.toOutboundSnapshot = r.toOutboundSnapshot) (hs' : r'.status = .sent) :
    RowChange none r r' where
  snapshot := hsnapshot
  unresolved := by simp [hs, hs', OutboundStatus.isUnresolved]
  queue := by simp [hs']
  copy := fun hne => absurd hs' hne

/-- What the claim of a Sent copy does: it takes one open row, or nothing. -/
theorem claimSentCopy_step {outboundId : Uuid} {now : Time} {claimed : Option OutboundMessage}
    (h : Consistent libs db)
    (hrun : (claimSentCopy outboundId now).run db = .ok (claimed, db')) :
    Consistent libs db' ∧ Evolves db db' ∧
      (∀ o, o ≠ outboundId → db'.outboundMessages.find? o = db.outboundMessages.find? o) ∧
      ∀ row, claimed = some row → row.id = outboundId ∧
        (∃ before, db.outboundMessages.find? row.id = some before ∧
          before.sentCopyStatus.isOpen = true) ∧
        db'.outboundMessages.find? row.id = some row ∧ row.sentCopyStatus = .appending := by
  simp [claimSentCopy] at hrun
  obtain ⟨hhead, rfl⟩ := hrun
  obtain ⟨hc, he⟩ := consistent_updateRows h
    (p := fun r => inStatus outboundId .sent r && r.sentCopyStatus.isOpen)
    (f := ⟨fun r => { r with sentCopyStatus := .appending, appendStartedAt := some now },
      fun _ => rfl⟩) fun o r _ hp => by
        have hs := (inStatus_iff.mp (Bool.and_eq_true_iff.mp hp).1).2
        exact .of_sent hs rfl hs
  refine ⟨hc, he, fun o hne => ?_, ?_⟩
  · rw [find?_updateRows]
    cases hr : db.outboundMessages.find? o with
    | none => rfl
    | some r =>
        have hid : r.id = o := Table.key_of_find? hr
        simp [inStatus, hid, hne]
  · rintro row rfl
    obtain ⟨before, hmem, rfl⟩ := Option.map_eq_some_iff.mp hhead
    obtain ⟨hbefore, hp, hafter⟩ := find?_of_selected (List.mem_of_head? hmem)
    obtain ⟨hin, hopen⟩ := Bool.and_eq_true_iff.mp hp
    exact ⟨(inStatus_iff.mp hin).1, ⟨before, hbefore, hopen⟩, hafter, rfl⟩

/-- What a conclusion does: it rewrites the one row that it concludes. -/
theorem commitSentCopy_step {row after : OutboundMessage} {claim : SentCopyClaim}
    {outcome : SentCopyOutcome} (h : Consistent libs db)
    (hrun : (commitSentCopy row claim outcome).run db = .ok (after, db')) :
    MailStep libs db db' ∧ ∀ o, db'.outboundMessages.find? o ≠ db.outboundMessages.find? o →
      ∃ r, db.outboundMessages.find? o = some r ∧ concludes row.id claim r = true := by
  have hsame : SameMail (db.updateRows (concludes row.id claim)
      ⟨concludedRow outcome, concludedRow_snapshot outcome⟩) db' := by
    simp [commitSentCopy] at hrun
    cases hrows : db.outboundMessages.select (concludes row.id claim) with
    | nil =>
        simp [hrows] at hrun
        obtain ⟨-, rfl⟩ := hrun
        exact ⟨rfl, rfl, rfl, rfl⟩
    | cons r rows =>
        simp [hrows, recordSendEvent] at hrun
        obtain ⟨-, -, rfl⟩ | ⟨-, -, rfl⟩ := hrun <;> exact ⟨rfl, rfl, rfl, rfl⟩
  refine ⟨.of_update h hsame (fun o r _ hp => ?_) fun r _ hs => ?_, fun o hne => ?_⟩
  · have hs := (inStatus_iff.mp (Bool.and_eq_true_iff.mp hp).1).2
    exact .of_sent hs (concludedRow_snapshot outcome r) (by cases outcome <;> exact hs)
  · cases outcome <;> simp [concludedRow] at hs
  · rw [hsame.outboundMessages, find?_updateRows] at hne
    cases hr : db.outboundMessages.find? o with
    | none => simp [hr] at hne
    | some r =>
        refine ⟨r, rfl, ?_⟩
        by_contra hp
        simp [hr, hp] at hne

theorem commitReconcilePass_step {outboundId : Uuid} {u : Unit} (h : Consistent libs db)
    (hrun : (commitReconcilePass outboundId).run db = .ok (u, db')) : MailStep libs db db' := by
  have hsame : SameMail (db.updateRows (inStatus outboundId .outcomeUnknown)
      ⟨fun r => { r with reconcileAttempts := r.reconcileAttempts + 1 }, fun _ => rfl⟩) db' := by
    simp [commitReconcilePass, recordSendEvent] at hrun
    obtain ⟨-, rfl⟩ | ⟨-, rfl⟩ := hrun <;> exact ⟨rfl, rfl, rfl, rfl⟩
  refine .of_update h hsame (fun o r hr hp => ?_) fun _ _ hs => hs
  have hs := (inStatus_iff.mp hp).2
  exact ⟨rfl, by simp, id, h.copy o r hr⟩

theorem holdAppending_step {outboundId : Uuid} {held : Bool} (h : Consistent libs db)
    (hrun : (holdAppending outboundId).run db = .ok (held, db')) : MailStep libs db db' := by
  have hsame : ∃ error, SameMail (db.updateRows
      (fun r => r.id == outboundId && r.sentCopyStatus == .appending)
      ⟨fun r => { r with sentCopyStatus := .unknown, lastError := error }, fun _ => rfl⟩) db' := by
    simp [holdAppending, recordSendEvent] at hrun
    obtain ⟨-, -, rfl⟩ | ⟨-, -, rfl⟩ := hrun <;> exact ⟨_, rfl, rfl, rfl, rfl⟩
  obtain ⟨error, hsame⟩ := hsame
  refine .of_update h hsame (fun o r hr hp => ?_) fun _ _ hs => by simp at hs
  have hs : r.status = .sent := by
    by_contra hne
    simp [h.copy o r hr hne] at hp
  exact .of_sent hs rfl hs

/-! ## Snapshots -/

theorem insertOutbound_ok {row : OutboundMessage} {u : Unit}
    (h : (insertOutbound row).run db = .ok (u, db')) :
    (∀ o row', db.outboundMessages.find? o = some row' →
      row'.idempotencyKey ≠ row.idempotencyKey) ∧
      ∃ t, db.outboundMessages.insert? row = some t ∧ { db with outboundMessages := t } = db' := by
  simp [insertOutbound] at h
  obtain ⟨hkey, -, t, hins, rfl⟩ := h
  exact ⟨fun o row' hrow => hkey row' (Table.mem_of_find? hrow), t, hins, rfl⟩

/-- The frozen link of one attachment. -/
def frozenLink (outboundId : Uuid) (attachment : VerifiedAttachment) : OutboundUpload :=
  ⟨outboundId, attachment.upload.id, attachment.ordinal⟩

/-- The frozen links of a snapshot follow the links that were there. -/
theorem insertOutboundUploads_ok {outboundId : Uuid} {attachments : List VerifiedAttachment}
    {u : Unit} (h : (insertOutboundUploads outboundId attachments).run db = .ok (u, db')) :
    ∃ t, { db with outboundUploads := t } = db' ∧ ∀ p, t.select p =
      db.outboundUploads.select p ++ (attachments.map (frozenLink outboundId)).filter p := by
  induction attachments generalizing db with
  | nil =>
      obtain rfl : db = db' := by simpa [insertOutboundUploads] using h
      exact ⟨db.outboundUploads, rfl, fun p => by simp⟩
  | cons attachment attachments ih =>
      simp [insertOutboundUploads] at h
      obtain ⟨-, t, hins, hrest⟩ := h
      obtain ⟨t', rfl, hselect⟩ := ih hrest
      refine ⟨t', rfl, fun p => ?_⟩
      rw [hselect, Table.select_insert? hins, List.append_assoc, List.map_cons, List.filter_cons]
      unfold frozenLink
      split <;> simp

/-- Locking a free draft for a send. -/
theorem lockDraftForSend_ok {draftId outboundId : Uuid} {revision : ℕ} {record : DraftRecord}
    {draft : Draft}
    (h : (lockDraftForSend draftId revision outboundId).run db = .ok (record, db'))
    (hdraft : db.drafts.find? draftId = some draft) (hfree : draft.lockedBySend = none) :
    ∃ t, (∀ d, t.find? d = (db.drafts.find? d).map fun x =>
      if x.id = draftId then { x with lockedBySend := some outboundId } else x) ∧
      SameMail { db with drafts := t } db' := by
  simp [lockDraftForSend, lockDraftRow, hdraft, hfree, updateDraftRow] at h
  obtain ⟨-, -, rfl⟩ := h
  exact ⟨_, fun d => by simp, rfl, rfl, rfl, rfl⟩

/-- The attachments that match the links of a draft are in ordinal order. -/
theorem pairwise_of_matches {draftId : Uuid} {attachments : List VerifiedAttachment}
    (h : matchesFrozenAttachments (draftLinks draftId db) attachments = true) :
    linkPairs (draftLinks draftId db) = attachments.map (fun a => (a.upload.id, a.ordinal)) ∧
      attachments.Pairwise (·.ordinal ≤ ·.ordinal) := by
  have hpairs : linkPairs (draftLinks draftId db) =
      attachments.map fun a => (a.upload.id, a.ordinal) := by
    simpa [matchesFrozenAttachments] using h
  have hsorted : (draftLinks draftId db).Pairwise (·.ordinal ≤ ·.ordinal) :=
    haveI : Std.Total fun a b : DraftUpload => a.ordinal ≤ b.ordinal := ⟨fun a b => le_total _ _⟩
    haveI : IsTrans DraftUpload fun a b => a.ordinal ≤ b.ordinal := ⟨fun _ _ _ => le_trans⟩
    List.pairwise_insertionSort _ _
  refine ⟨hpairs, ?_⟩
  have hpairwise : (linkPairs (draftLinks draftId db)).Pairwise (·.2 ≤ ·.2) :=
    List.pairwise_map.mpr hsorted
  rw [hpairs, List.pairwise_map] at hpairwise
  exact hpairwise

/-- The frozen links of a new snapshot are its attachments. -/
theorem frozenPairs_of_snapshot {row : OutboundMessage} {attachments : List VerifiedAttachment}
    (h : Consistent libs db) (hnew : db.outboundMessages.find? row.id = none)
    (hsorted : attachments.Pairwise (·.ordinal ≤ ·.ordinal))
    (hselect : ∀ p, db'.outboundUploads.select p =
      db.outboundUploads.select p ++ (attachments.map (frozenLink row.id)).filter p) (o : Uuid) :
    frozenPairs o db' = if row.id = o then attachments.map (fun a => (a.upload.id, a.ordinal))
      else frozenPairs o db := by
  unfold frozenPairs outboundLinks
  rw [hselect]
  split
  next he =>
    subst he
    have hold : (db.outboundUploads.select fun l => l.outboundId == row.id) = [] := by
      refine List.filter_eq_nil_iff.mpr fun l hl hid => ?_
      obtain ⟨row', hrow⟩ := h.link l hl
      have hid : l.outboundId = row.id := by simpa using hid
      simp [hid, hnew] at hrow
    have hkeep : (attachments.map (frozenLink row.id)).filter (fun l => l.outboundId == row.id) =
        attachments.map (frozenLink row.id) := by
      refine List.filter_eq_self.mpr fun l hl => ?_
      obtain ⟨a, -, rfl⟩ := List.mem_map.mp hl
      simp [frozenLink]
    have hpairwise : (attachments.map (frozenLink row.id)).Pairwise
        fun a b => a.ordinal ≤ b.ordinal := List.pairwise_map.mpr hsorted
    rw [hold, hkeep, List.nil_append, hpairwise.insertionSort_eq, List.map_map]
    rfl
  next hne =>
    have hdrop : (attachments.map (frozenLink row.id)).filter (fun l => l.outboundId == o) = [] := by
      refine List.filter_eq_nil_iff.mpr fun l hl => ?_
      obtain ⟨a, -, rfl⟩ := List.mem_map.mp hl
      simpa [frozenLink] using hne
    rw [hdrop, List.append_nil]

theorem commitSnapshot_step {row : OutboundMessage} {draftId : Uuid} {baseRevision : ℕ}
    {attachments : List VerifiedAttachment} {record : OutboundRecord} (h : Consistent libs db)
    (hrequest : ValidRequest row.idempotencyKey row.draftRevision)
    (hrd : row.draftId = some draftId) (hrev : row.draftRevision = baseRevision)
    (hcontent : ∀ draft, db.drafts.find? draftId = some draft → draft.revision = baseRevision →
      row.content = draft.content)
    (hqueued : row.status = .queued) (hcopy : row.sentCopyStatus = .pending)
    (hhash : row.requestHash = hashRequest libs draftId baseRevision
      (attachments.map fun a => (a.upload.id, a.ordinal)))
    (hrun : (commitSnapshot row draftId baseRevision attachments).run db = .ok (record, db')) :
    MailStep libs db db' := by
  cases hfind : db.drafts.find? draftId with
  | none => simp [commitSnapshot, loadEditableDraft, hfind] at hrun
  | some draft =>
      simp [commitSnapshot, loadEditableDraft, hfind] at hrun
      obtain ⟨hlive, hrevision, hfree, hmatch, _, db₁, hrow, _, db₂, hlinks, _, db₃, hlock, -,
        rfl⟩ := hrun
      obtain ⟨hkeys, rows, hins, rfl⟩ := insertOutbound_ok hrow
      obtain ⟨links, rfl, hselect⟩ := insertOutboundUploads_ok hlinks
      obtain ⟨drafts, hdrafts, hsame⟩ := lockDraftForSend_ok hlock hfind hfree
      obtain ⟨hpairs, hsorted⟩ := pairwise_of_matches hmatch
      obtain rfl : draft.id = draftId := Table.key_of_find? hfind
      have hnew : db.outboundMessages.find? row.id = none := Table.find?_of_insert? hins
      have hlink : ∀ l ∈ links, l.outboundId = row.id ∨ l ∈ db.outboundUploads := by
        intro l hl
        have hmem : l ∈ links.select fun _ => true := Table.mem_select.mpr ⟨hl, rfl⟩
        rw [hselect, List.mem_append] at hmem
        rcases hmem with hold | hadded
        · exact .inr (Table.mem_select.mp hold).1
        · obtain ⟨a, -, rfl⟩ := List.mem_map.mp (List.mem_of_mem_filter hadded)
          exact .inl rfl
      have hstep : MailStep libs db
          { db with drafts, outboundMessages := rows, outboundUploads := links } :=
        .of_snapshot h hfind hfree hlive hnew hkeys hrequest hrd (hrev.trans hrevision.symm)
          (hcontent draft hfind hrevision) hqueued hcopy hpairs (hrevision ▸ hhash) hdrafts rfl
          (fun o => Table.find?_insert? hins) (frozenPairs_of_snapshot h hnew hsorted hselect)
          hlink
      exact hstep.and_same ⟨hsame.drafts, hsame.draftUploads, hsame.outboundMessages,
        hsame.outboundUploads⟩

end MailHub
