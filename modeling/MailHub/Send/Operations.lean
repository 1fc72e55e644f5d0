import MailHub.Send.Guarantee

/-!
# Every operation keeps the discipline

One walk along the program of each operation. Most programs have nothing to know between two
nodes; queueing a send remembers the draft that it read, executing one owns the row it claimed, and
an append attempt holds its claim.
-/

namespace MailHub

open Relational Interleaving

variable {libs : Libraries} {fenced : Prop} {i : ℕ} {α : Type}

/-! ## Building blocks -/

theorem quiet_query (f : Database → α) : Quiet libs fenced i (MailProgram.query f) :=
  Preserves.read (S := mailSignature) .trivial f

theorem quiet_lift (r : Except Failure α) : Quiet libs fenced i (MailProgram.lift r) :=
  Preserves.ofExcept (S := mailSignature) .trivial r

theorem quiet_pure (a : α) : Quiet libs fenced i (pure a) := .pure .trivial a

theorem quiet_throw (e : Failure) : Quiet libs fenced i (throw e : MailProgram α) :=
  Preserves.throw (S := mailSignature) .trivial e

theorem quiet_ask {c : MailCall} (hc : ∀ log, MailLog.afterCall i log c = log) :
    Quiet libs fenced i (MailProgram.ask c) := preserves_ask .trivial hc

/-- A transaction that leaves the sends alone. -/
theorem quiet_steps {t : Tx α} (hsame : ∀ db, Steps SameSends db t)
    (ht : ∀ db b db', Consistent libs db → t.run db = .ok (b, db') → MailStep libs db db') :
    Quiet libs fenced i (MailProgram.transact t) :=
  quiet_transact ht fun db b db' hrun => ((hsame db).step b db' hrun).recorded

theorem quiet_gate (d : Deployment) (g : Option Uuid) : Quiet libs fenced i (d.gate g) :=
  .bind (quiet_query _) fun _ => quiet_lift _

/-! ## Drafts and uploads -/

theorem quiet_createDraft (d : Deployment) (g : Option Uuid) (input : CreateDraftInput) :
    Quiet libs fenced i (createDraft d g input) :=
  .bind (quiet_gate d g) fun _ =>
  .bind (quiet_query _) fun account =>
  .bind (quiet_lift account) fun _ =>
  .bind (quiet_lift _) fun _ =>
  .bind (quiet_lift _) fun _ =>
  .bind (quiet_lift _) fun _ =>
  .bind (quiet_lift _) fun _ =>
  .bind (quiet_ask fun _ => rfl) fun _ =>
  .bind (quiet_ask fun _ => rfl) fun _ =>
  quiet_steps (fun _ => steps_commitNewDraft) fun _ _ _ hc hrun => commitNewDraft_step hc rfl hrun

theorem quiet_createReplyDraft (d : Deployment) (g : Option Uuid) (input : CreateReplyDraftInput) :
    Quiet libs fenced i (createReplyDraft d g input) :=
  .bind (quiet_gate d g) fun _ =>
  .bind (quiet_ask fun _ => rfl) fun _ =>
  .bind (quiet_ask fun _ => rfl) fun _ =>
  quiet_steps (fun _ => steps_commitReplyDraft) fun _ _ _ => commitReplyDraft_step

theorem quiet_updateDraft (d : Deployment) (g : Option Uuid) (draftId : Uuid)
    (input : UpdateDraftInput) : Quiet libs fenced i (updateDraft d g draftId input) := by
  refine .bind (quiet_gate d g) fun _ => .ite (fun _ => .throw_bind .trivial) fun _ => ?_
  exact .bind (quiet_ask fun _ => rfl) fun _ =>
    quiet_steps (fun _ => steps_commitDraftUpdate) fun _ _ _ => commitDraftUpdate_step

theorem quiet_deleteDraft (d : Deployment) (g : Option Uuid) (draftId : Uuid) :
    Quiet libs fenced i (deleteDraft d g draftId) :=
  .bind (quiet_gate d g) fun _ =>
  .bind (quiet_ask fun _ => rfl) fun _ =>
  quiet_steps (fun _ => steps_commitDraftDeletion) fun _ _ _ => commitDraftDeletion_step

theorem quiet_attachUpload (d : Deployment) (g : Option Uuid) (draftId uploadId : Uuid) :
    Quiet libs fenced i (attachUpload d g draftId uploadId) :=
  .bind (quiet_gate d g) fun _ => quiet_steps (fun _ => steps_commitAttachment) fun _ _ _ => commitAttachment_step

theorem quiet_detachUpload (d : Deployment) (g : Option Uuid) (draftId uploadId : Uuid) :
    Quiet libs fenced i (detachUpload d g draftId uploadId) :=
  .bind (quiet_gate d g) fun _ => quiet_steps (fun _ => steps_commitDetachment) fun _ _ _ => commitDetachment_step

theorem quiet_createResendDraft (d : Deployment) (g : Option Uuid) (outboundId : Uuid) :
    Quiet libs fenced i (createResendDraft d g outboundId) :=
  .bind (quiet_gate d g) fun _ =>
  .bind (quiet_ask fun _ => rfl) fun _ =>
  .bind (quiet_ask fun _ => rfl) fun _ =>
  quiet_steps (fun _ => steps_commitResend) fun _ _ _ => commitResend_step

theorem quiet_storeUpload (key : String) (bytes : Bytes) (id : Uuid) :
    Quiet libs fenced i (storeUpload key bytes id) := by
  refine .tryCatch (quiet_ask fun _ => rfl) fun cause => .ite (fun _ => ?_) fun _ => quiet_throw _
  refine .bind (.tryCatch (quiet_steps (fun _ => steps_recordEvent (by decide))
    fun db _ db' hc hrun => ?_) fun _ => quiet_pure ()) fun _ => quiet_throw _
  obtain rfl : _ = db' := (Prod.mk.inj (Except.ok.inj hrun)).2
  exact .of_same hc ⟨rfl, rfl, rfl, rfl⟩

theorem quiet_createUpload (d : Deployment) (g : Option Uuid) (input : CreateUploadInput) :
    Quiet libs fenced i (createUpload d g input) := by
  refine .bind (quiet_gate d g) fun _ => .bind (quiet_query _) fun account => ?_
  refine .bind (quiet_lift account) fun _ => .bind (quiet_lift _) fun _ => ?_
  refine .bind (quiet_lift _) fun _ => .bind (quiet_lift _) fun _ => ?_
  refine .bind (quiet_ask fun _ => rfl) fun id => .bind (quiet_storeUpload _ _ id) fun _ => ?_
  refine .ite (fun _ => .throw_bind .trivial) fun _ => .bind (quiet_ask fun _ => rfl) fun _ => ?_
  exact quiet_steps (fun _ => steps_commitUpload) fun _ _ _ => commitUpload_step

/-! ## Queueing a send -/

/-- A draft that was read once: it is still there, and at the same revision it is the same. -/
def DraftRead (draft : Draft) (db : Database) : Prop :=
  ∃ draft', db.drafts.find? draft.id = some draft' ∧ draft.revision ≤ draft'.revision ∧
    (draft'.revision = draft.revision → draft'.content = draft.content)

theorem DraftRead.evolves {draft : Draft} {db db' : Database} (h : DraftRead draft db)
    (he : Evolves db db') : DraftRead draft db' := by
  obtain ⟨draft₁, hd₁, hle₁, hc₁⟩ := h
  obtain ⟨draft₂, hd₂, hle₂, hc₂⟩ := he.draft _ draft₁ hd₁
  refine ⟨draft₂, hd₂, hle₁.trans hle₂, fun heq => ?_⟩
  have hmid : draft₁.revision = draft.revision := le_antisymm (heq ▸ hle₂) hle₁
  exact (hc₂ (heq.trans hmid.symm)).trans (hc₁ hmid)

theorem stable_draftRead (draft : Draft) :
    Stable (mailDiscipline libs fenced) i fun w => DraftRead draft w.store :=
  fun _ _ hr _ h => h.evolves hr.evolves

theorem preserves_verifyAttachments {K : MailWorld → Prop}
    (hK : Stable (mailDiscipline libs fenced) i K) (rows : List (Upload × ℕ)) :
    Preserves (mailDiscipline libs fenced) i K (verifyAttachments rows) := by
  induction rows with
  | nil => exact .pure hK _
  | cons row rows ih =>
      refine .bind (preserves_ask hK fun _ => rfl) fun _ =>
        .ite (fun _ => .throw_bind hK) fun _ => ?_
      refine .bind (preserves_ask hK fun _ => rfl) fun _ =>
        .ite (fun _ => .throw_bind hK) fun _ => ?_
      exact .bind (preserves_ask hK fun _ => rfl) fun _ => .bind ih fun _ => .pure hK _

theorem preserves_freezeDraft {d : Deployment} (hd : d.libs = libs) {input : QueueSendInput}
    (hvalid : ValidRequest input.idempotencyKey input.baseRevision) (generation : Uuid)
    {draft : Draft} (hid : draft.id = input.draftId) :
    Preserves (mailDiscipline libs fenced) i (fun w => DraftRead draft w.store)
      (freezeDraft d input generation draft) := by
  have hK : Stable (mailDiscipline libs fenced) i fun w => DraftRead draft w.store :=
    stable_draftRead draft
  refine .ite (fun _ => .throw_bind hK) fun hrevision => .ite (fun _ => .throw_bind hK) fun _ => ?_
  refine .ite (fun _ => .throw_bind hK) fun _ => .bind (.read hK _) fun rows => ?_
  refine .bind (preserves_verifyAttachments hK rows) fun attachments => ?_
  refine .ite (fun _ => .throw_bind hK) fun _ => .bind (preserves_ask hK fun _ => rfl) fun _ => ?_
  refine .bind (preserves_ask hK fun _ => rfl) fun _ => .bind (.ofExcept hK _) fun bytes => ?_
  refine .ite (fun _ => .throw_bind hK) fun _ => .bind (.ofExcept hK _) fun _ => ?_
  refine .bind (preserves_ask hK fun _ => rfl) fun _ => .bind (preserves_ask hK fun _ => rfl)
    fun _ => .ite (fun _ => .throw_bind hK) fun _ => .bind (preserves_ask hK fun _ => rfl)
    fun _ => ?_
  refine preserves_transact hK (fun _ _ he h => h.evolves he) fun w _ _ hread hc hrun => ?_
  have hrevision : draft.revision = input.baseRevision := not_not.mp hrevision
  refine ⟨commitSnapshot_step hc ?_ rfl hrevision (fun draft' hd' hrev' => ?_) rfl rfl ?_ hrun,
    commitSnapshot_recorded rfl hrun⟩
  · exact hrevision ▸ hvalid
  · obtain ⟨draft₁, hd₁, -, hcontent⟩ := hread
    obtain rfl : draft' = draft₁ := Option.some.inj (hd'.symm.trans hd₁)
    exact (hcontent (hrev'.trans hrevision.symm)).symm
  · rw [hid, ← hd]

theorem quiet_freezeSnapshot {d : Deployment} (hd : d.libs = libs) {input : QueueSendInput}
    (hvalid : ValidRequest input.idempotencyKey input.baseRevision) (generation : Uuid) :
    Quiet libs fenced i (freezeSnapshot d input generation) := by
  refine ⟨fun w _ => .bind (.read (fun w' _ _ => .pure fun w₂ hr _ => ?_)
    fun _ _ _ _ _ => trivial)⟩
  cases hload : loadEditableDraft input.draftId w'.store with
  | error e => exact (quiet_throw e).safe w₂ trivial
  | ok draft =>
      have hfind : w'.store.drafts.find? input.draftId = some draft := by
        unfold loadEditableDraft at hload
        split at hload
        · split at hload
          · simp_all
          · simp at hload
        · simp at hload
      have hid : draft.id = input.draftId := Table.key_of_find? hfind
      have hread : DraftRead draft w₂.store :=
        DraftRead.evolves ⟨draft, hid ▸ hfind, le_rfl, fun _ => rfl⟩ hr.evolves
      exact ((preserves_freezeDraft hd hvalid generation hid).safe w₂ hread).mono
        (fun _ _ _ _ => trivial) fun _ _ _ _ => trivial

theorem quiet_queueSend {d : Deployment} (hd : d.libs = libs) (g : Option Uuid)
    (input : QueueSendInput) : Quiet libs fenced i (queueSend d g input) := by
  refine .bind (quiet_gate d g) fun generation => .ite (fun _ => .throw_bind .trivial) fun hkey => ?_
  refine .ite (fun _ => .throw_bind .trivial) fun hrevision => .bind (quiet_query _) fun links => ?_
  refine .bind (quiet_query _) fun existing => ?_
  cases existing with
  | some row => exact .bind (quiet_lift _) fun _ => quiet_pure _
  | none =>
      refine .tryCatch (.bind (quiet_freezeSnapshot hd ⟨hkey, hrevision⟩ generation)
        fun _ => quiet_pure _) fun cause => .ite (fun _ => ?_) fun _ => quiet_throw cause
      refine .bind (quiet_query _) fun raced => ?_
      cases raced with
      | some row => exact .bind (quiet_lift _) fun _ => quiet_pure _
      | none => exact quiet_throw cause

/-! ## Executing sends -/

theorem quiet_loadOutbound (outboundId : Uuid) : Quiet libs fenced i (loadOutbound outboundId) := by
  refine .bind (quiet_query _) fun row => ?_
  cases row with
  | some row => exact quiet_pure row
  | none => exact quiet_throw _

theorem quiet_acceptOnce (row : OutboundMessage) {input : AcceptanceInput}
    (hfrom : input.fromStatus ≠ .sent) (parsed : ParsedMessage) {violated : Failure → MailProgram OutboundMessage}
    (hviolated : ∀ e, Quiet libs fenced i (violated e)) :
    Quiet libs fenced i (acceptOnce row input parsed violated) := by
  refine .bind (quiet_ask fun _ => rfl) fun _ => .bind (quiet_ask fun _ => rfl) fun _ => ?_
  refine .tryCatch (quiet_transact (fun _ _ _ => commitAccepted_step)
    fun _ _ _ => commitAccepted_recorded hfrom) fun cause => ?_
  refine .ite (fun _ => .bind (quiet_query _) fun _ => quiet_pure _) fun _ => ?_
  exact .ite (fun _ => hviolated cause) fun _ => quiet_throw cause

theorem quiet_commitAcceptance (s : OutboundService) (row : OutboundMessage)
    {input : AcceptanceInput} (hfrom : input.fromStatus ≠ .sent) :
    Quiet libs fenced i (commitAcceptance s row input) :=
  .bind (quiet_lift _) fun parsed => quiet_acceptOnce row hfrom parsed fun _ =>
    quiet_acceptOnce row hfrom parsed quiet_throw

/-- The worker that took a row records what the transport reported. -/
theorem safe_recordReport (s : OutboundService) {row : OutboundMessage} (bytes : Bytes)
    (report : SmtpSubmitReport) {w : MailWorld} (h : Claimed i row w) :
    Safe (mailDiscipline libs fenced) i (recordReport s row bytes report) w (fun _ _ => True)
      fun _ _ => True := by
  unfold recordReport
  cases report.state with
  | accepted => exact (quiet_commitAcceptance s row OutboundStatus.noConfusion).safe w trivial
  | rejected => exact safe_recordFailure h
  | unknown => exact (quiet_recordUnknown row report).safe w trivial

/-- The worker that owns a row submits its frozen bytes under its frozen envelope. -/
theorem safe_submitClaimed {s : OutboundService} (hs : s.libs = libs) {row : OutboundMessage}
    {w : MailWorld} (h : Owned i row w) :
    Safe (mailDiscipline libs fenced) i (submitClaimed s row) w (fun _ _ => True)
      fun _ _ => True := by
  have hK : Stable (mailDiscipline libs fenced) i (Owned i row) := stable_owned row
  refine (Preserves.attempt hK (preserves_ask hK fun _ => rfl)).andThen h (fun r w₁ h₁ => ?_)
    fun _ _ _ => trivial
  cases r with
  | error e => exact safe_recordFailure h₁.toClaimed
  | ok bytes =>
      by_cases hraw : s.libs.sha256Hex bytes ≠ row.mimeSha256
      · simp only [if_pos hraw]
        exact safe_recordFailure h₁.toClaimed
      simp only [if_neg hraw]
      refine (Preserves.attempt hK (preserves_ask hK fun _ => rfl)).andThen h₁
        (fun r w₂ h₂ => ?_) fun _ _ _ => trivial
      cases r with
      | error e => exact safe_recordFailure h₂.toClaimed
      | ok credentials =>
          have hraw : libs.sha256Hex bytes = row.mimeSha256 := hs ▸ not_not.mp hraw
          refine .bind (.attempt ((safe_submit hraw rfl h₂).mono
            (fun report w' _ hclaimed w₃ hr hi => ?_) fun cause w' _ hclaimed w₃ hr hi => ?_))
          · exact safe_recordReport s bytes _ (stable_claimed row w' w₃ hr hi hclaimed)
          · exact safe_recordReport s bytes _ (stable_claimed row w' w₃ hr hi hclaimed)

theorem quiet_executeOutbound {s : OutboundService} (hs : s.libs = libs) (outboundId : Uuid) :
    Quiet libs fenced i (executeOutbound s outboundId) := by
  refine .ite (fun _ => .throw_bind .trivial) fun _ => .bind (quiet_loadOutbound _) fun before => ?_
  refine .ite (fun _ => quiet_pure _) fun _ => .bind (quiet_query _) fun status => ?_
  refine .ite (fun _ => quiet_pure _) fun _ => .bind (quiet_ask fun _ => rfl) fun now => ?_
  refine ⟨fun w _ => .bind (safe_claimSend.mono (fun claimed w' _ howned => ?_)
    fun _ _ _ _ => trivial)⟩
  cases claimed with
  | none => exact (Preserves.bind (quiet_loadOutbound _) fun _ => quiet_pure _).safe w' trivial
  | some row =>
      refine .bind ((safe_submitClaimed hs (howned row rfl)).mono (fun _ w'' _ _ => ?_)
        fun _ _ _ _ => trivial)
      exact (quiet_pure _).safe w'' trivial

/-! ## Sweeps -/

theorem quiet_sweep (s : OutboundService) (due : Database → List (Uuid × Uuid))
    {attempt : Uuid → MailProgram Bool} (hattempt : ∀ id, Quiet libs fenced i (attempt id)) :
    Quiet libs fenced i (sweep s due attempt) := by
  refine .bind (quiet_query _) fun status => ?_
  cases status with
  | ready generation =>
      refine .bind (quiet_query _) fun rows => .bind (.forIn .trivial fun row _ summary => ?_)
        fun _ => quiet_pure _
      refine .ite (fun _ => quiet_pure _) fun _ =>
        .bind (.attempt .trivial (hattempt _)) fun r => ?_
      rcases r with e | _ | _ <;> exact quiet_pure _
  | _ => exact quiet_pure _

theorem quiet_executeQueued {s : OutboundService} (hs : s.libs = libs) (limit : ℕ) :
    Quiet libs fenced i (executeQueued s limit) :=
  quiet_sweep s _ fun id => .bind (quiet_executeOutbound hs id) fun _ => quiet_pure _

/-! ## Sent copies -/

theorem preserves_verifyCandidates {K : MailWorld → Prop}
    (hK : Stable (mailDiscipline libs fenced) i K) (s : OutboundService) (session : ℕ)
    (folder : SentFolder) (uidValidity : ℕ) (row : OutboundMessage) (uids : List ℕ)
    (candidateSeen : Bool) : Preserves (mailDiscipline libs fenced) i K
      (verifyCandidates s session folder uidValidity row candidateSeen uids) := by
  induction uids generalizing candidateSeen with
  | nil => exact .pure hK _
  | cons uid uids ih =>
      refine .bind (preserves_ask hK fun _ => rfl) fun bytes => ?_
      cases bytes with
      | none => exact ih candidateSeen
      | some bytes => exact .ite (fun _ => .pure hK _) fun _ => ih true

theorem preserves_locateVerifiedCopy {K : MailWorld → Prop}
    (hK : Stable (mailDiscipline libs fenced) i K) (s : OutboundService) (session : ℕ)
    (folder : SentFolder) (row : OutboundMessage) :
    Preserves (mailDiscipline libs fenced) i K (locateVerifiedCopy s session folder row) :=
  .bind (preserves_ask hK fun _ => rfl) fun _ => .bind (preserves_ask hK fun _ => rfl)
    fun uids => preserves_verifyCandidates hK s session folder _ row uids false

/-- An append without usable coordinates ends with the conclusion of its own claim. -/
theorem safe_settleAppend (s : OutboundService) (session : ℕ) (folder : SentFolder)
    {row : OutboundMessage} (appended : SentCopyWriteResult) {w : MailWorld}
    (h : Attempting i row.id w) :
    Safe (mailDiscipline libs fenced) i (settleAppend s session folder row appended) w
      (fun _ _ => True) fun _ => Attempting i row.id := by
  have hK : Stable (mailDiscipline libs fenced) i (Attempting i row.id) := stable_attempting row.id
  refine (preserves_locateVerifiedCopy hK s session folder row).andThen h (fun evidence w₁ h₁ => ?_)
    fun _ _ => id
  cases evidence with
  | verified destination => exact safe_conclude h₁
  | conflict => exact safe_conclude h₁
  | absent => cases appended <;> exact safe_conclude h₁

/-- An append over a session ends with the conclusion of its own claim, or fails within it. -/
theorem safe_appendOverSession (s : OutboundService) (session : ℕ) (folder : SentFolder)
    {row : OutboundMessage} {w : MailWorld} (h : Attempting i row.id w) :
    Safe (mailDiscipline libs fenced) i (appendOverSession s session folder row) w
      (fun _ _ => True) fun _ => Attempting i row.id := by
  have hK : Stable (mailDiscipline libs fenced) i (Attempting i row.id) := stable_attempting row.id
  refine (Preserves.attempt hK (preserves_ask hK fun _ => rfl)).andThen h (fun r w₁ h₁ => ?_)
    fun _ _ => id
  cases r with
  | error e => exact safe_conclude h₁
  | ok bytes =>
      by_cases hraw : s.libs.sha256Hex bytes ≠ row.mimeSha256
      · simp only [if_pos hraw]
        exact safe_conclude h₁
      simp only [if_neg hraw]
      refine (preserves_locateVerifiedCopy hK s session folder row).andThen h₁
        (fun evidence w₂ h₂ => ?_) fun _ _ => id
      cases evidence with
      | verified destination => exact safe_conclude h₂
      | conflict => exact safe_conclude h₂
      | absent =>
          refine (preserves_ask hK fun _ => rfl).andThen h₂ (fun appended w₃ h₃ => ?_) fun _ _ => id
          rcases appended with ⟨_ | uidvalidity, _ | uid⟩ | _ | reason
          · exact safe_settleAppend s session folder _ h₃
          · exact safe_settleAppend s session folder _ h₃
          · exact safe_settleAppend s session folder _ h₃
          · exact safe_conclude h₃
          · exact safe_conclude h₃
          · exact safe_settleAppend s session folder _ h₃

theorem quiet_logout (session : ℕ) :
    Quiet libs fenced i (do let _ ← (MailProgram.logout session).attempt) :=
  .bind (.attempt .trivial (quiet_ask fun _ => rfl)) fun _ => quiet_pure ()

theorem safe_appendClaimed (s : OutboundService) (folder : SentFolder) {row : OutboundMessage}
    {w : MailWorld} (h : Attempting i row.id w) :
    Safe (mailDiscipline libs fenced) i (appendClaimed s folder row) w (fun _ _ => True)
      fun _ _ => True := by
  have hK : Stable (mailDiscipline libs fenced) i (Attempting i row.id) := stable_attempting row.id
  refine (Preserves.attempt hK (preserves_ask hK fun _ => rfl)).andThen h (fun r w₁ h₁ => ?_)
    fun _ _ _ => trivial
  cases r with
  | error e => exact (safe_conclude h₁).mono (fun _ _ _ _ => trivial) fun _ _ _ _ => trivial
  | ok session =>
      refine .cleanup .trivial (.handle ?_) (quiet_logout session)
      refine (safe_appendOverSession s session folder h₁).mono (fun _ _ _ _ => trivial)
        fun e w₂ _ h₂ => ?_
      exact (safe_conclude h₂).mono (fun _ _ _ _ => trivial) fun _ _ _ _ => trivial

theorem quiet_executeSentCopyAppend (s : OutboundService) (outboundId : Uuid) :
    Quiet libs fenced i (executeSentCopyAppend s outboundId) := by
  refine .ite (fun _ => .throw_bind .trivial) fun _ => .bind (quiet_loadOutbound _) fun before => ?_
  refine .ite (fun _ => quiet_pure _) fun _ => .bind (quiet_query _) fun status => ?_
  refine .ite (fun _ => quiet_pure _) fun _ => .bind (quiet_query _) fun folder => ?_
  cases folder with
  | none =>
      exact .ite (fun _ => quiet_pure _) fun _ => .bind quiet_record fun _ => quiet_pure _
  | some folder =>
      refine .bind (quiet_ask fun _ => rfl) fun now => ⟨fun w _ => .bind
        (safe_claimSentCopy.mono (fun claimed w' _ hattempting => ?_) fun _ _ _ _ => trivial)⟩
      cases claimed with
      | none => exact (Preserves.bind (quiet_loadOutbound _) fun _ => quiet_pure _).safe w' trivial
      | some row =>
          refine .bind ((safe_appendClaimed s folder (hattempting row rfl)).mono
            (fun _ w'' _ _ => ?_) fun _ _ _ _ => trivial)
          exact (quiet_pure _).safe w'' trivial

theorem quiet_appendDueSentCopies (s : OutboundService) (limit : ℕ) :
    Quiet libs fenced i (appendDueSentCopies s limit) :=
  quiet_sweep s _ fun id => .bind (quiet_executeSentCopyAppend s id) fun _ => quiet_pure _

/-! ## Recovery -/

theorem quiet_noteReconcilePass (row : OutboundMessage) :
    Quiet libs fenced i (noteReconcilePass row) :=
  quiet_transact (fun _ _ _ => commitReconcilePass_step) fun _ _ _ => commitReconcilePass_recorded

theorem quiet_reconcileOverSession (s : OutboundService) (session : ℕ) (folder : SentFolder)
    (before : OutboundMessage) :
    Quiet libs fenced i (reconcileOverSession s session folder before) := by
  refine .bind (preserves_locateVerifiedCopy .trivial s session folder before) fun evidence => ?_
  cases evidence with
  | verified destination =>
      refine .bind (quiet_ask fun _ => rfl) fun bytes => ?_
      split
      · exact .bind (quiet_noteReconcilePass before) fun _ => quiet_pure _
      · exact .bind (quiet_commitAcceptance s before OutboundStatus.noConfusion) fun _ => quiet_pure _
  | _ => exact .bind (quiet_noteReconcilePass before) fun _ => quiet_pure _

theorem quiet_reconcileUnknownOutcome (s : OutboundService) (outboundId : Uuid) :
    Quiet libs fenced i (reconcileUnknownOutcome s outboundId) := by
  refine .ite (fun _ => .throw_bind .trivial) fun _ => .bind (quiet_loadOutbound _) fun before => ?_
  refine .ite (fun _ => quiet_pure _) fun _ => .bind (quiet_query _) fun status => ?_
  refine .ite (fun _ => quiet_pure _) fun _ => .bind (quiet_query _) fun folder => ?_
  cases folder with
  | none => exact quiet_pure _
  | some folder =>
      refine .bind (.attempt .trivial (quiet_ask fun _ => rfl)) fun r => ?_
      cases r with
      | error e => exact .bind (quiet_noteReconcilePass before) fun _ => quiet_pure _
      | ok session => exact ⟨fun w hw => .cleanup .trivial
          ((quiet_reconcileOverSession s session folder before).safe w hw) (quiet_logout session)⟩

theorem quiet_reconcileUnknownOutcomes (s : OutboundService) (limit : ℕ) :
    Quiet libs fenced i (reconcileUnknownOutcomes s limit) :=
  quiet_sweep s _ fun id => .bind (quiet_reconcileUnknownOutcome s id) fun _ => quiet_pure _

theorem quiet_holdRows (status : ControlStatus) {hold : Uuid → Tx Bool} (rows : List (Uuid × Uuid))
    (hhold : ∀ id db b db', Consistent libs db → (hold id).run db = .ok (b, db') →
      MailStep libs db db')
    (hrec : ∀ id db b db', (hold id).run db = .ok (b, db') → Recorded db db') :
    Quiet libs fenced i (holdRows status hold rows) := by
  refine .bind (.forIn .trivial fun row _ counts => ?_) fun _ => quiet_pure _
  refine .ite (fun _ => quiet_pure _) fun _ => .bind (quiet_transact (hhold _) (hrec _)) fun held => ?_
  exact .ite (fun _ => quiet_pure _) fun _ => quiet_pure _

theorem quiet_recoverAbandonedAttempts (s : OutboundService) :
    Quiet libs fenced i (recoverAbandonedAttempts s) := by
  refine .bind (quiet_query _) fun status => ?_
  cases status with
  | ready generation =>
      refine .bind (quiet_ask fun _ => rfl) fun now => .bind (quiet_query _) fun sending => ?_
      refine .bind (quiet_holdRows _ sending (fun _ _ _ _ => holdSending_step)
        fun _ _ _ _ => holdSending_recorded) fun _ => ?_
      refine .bind (quiet_query _) fun appending => ?_
      exact .bind (quiet_holdRows _ appending (fun _ _ _ _ => holdAppending_step)
        fun _ _ _ _ => holdAppending_recorded) fun _ => quiet_pure _
  | _ => exact quiet_pure _

/-! ## All operations -/

/-- Every operation of every process keeps the discipline. -/
theorem quiet_run (op : MailOp) : Quiet libs fenced i (op.run libs) := by
  cases op with
  | createDraft p g input => exact .bind (quiet_createDraft _ g input) fun _ => quiet_pure ()
  | createReplyDraft p g input =>
      exact .bind (quiet_createReplyDraft _ g input) fun _ => quiet_pure ()
  | updateDraft p g draftId input =>
      exact .bind (quiet_updateDraft _ g draftId input) fun _ => quiet_pure ()
  | deleteDraft p g draftId => exact quiet_deleteDraft _ g draftId
  | createUpload p g input => exact .bind (quiet_createUpload _ g input) fun _ => quiet_pure ()
  | attachUpload p g draftId uploadId =>
      exact .bind (quiet_attachUpload _ g draftId uploadId) fun _ => quiet_pure ()
  | detachUpload p g draftId uploadId => exact quiet_detachUpload _ g draftId uploadId
  | createResendDraft p g outboundId =>
      exact .bind (quiet_createResendDraft _ g outboundId) fun _ => quiet_pure ()
  | queueSend p g input =>
      exact .bind (quiet_queueSend (d := (p.service libs).toDeployment) rfl g input) fun _ =>
        quiet_pure ()
  | executeOutbound p outboundId =>
      exact .bind (quiet_executeOutbound (s := p.service libs) rfl outboundId) fun _ => quiet_pure ()
  | executeQueued p limit =>
      exact .bind (quiet_executeQueued (s := p.service libs) rfl limit) fun _ => quiet_pure ()
  | executeSentCopyAppend p outboundId =>
      exact .bind (quiet_executeSentCopyAppend _ outboundId) fun _ => quiet_pure ()
  | appendDueSentCopies p limit =>
      exact .bind (quiet_appendDueSentCopies _ limit) fun _ => quiet_pure ()
  | reconcileUnknownOutcome p outboundId =>
      exact .bind (quiet_reconcileUnknownOutcome _ outboundId) fun _ => quiet_pure ()
  | reconcileUnknownOutcomes p limit =>
      exact .bind (quiet_reconcileUnknownOutcomes _ limit) fun _ => quiet_pure ()
  | recoverAbandonedAttempts p =>
      exact .bind (quiet_recoverAbandonedAttempts _) fun _ => quiet_pure ()
  | elsewhere f hf he =>
      refine quiet_steps (fun db => .modify (he db)) fun db _ db' hc hrun => ?_
      obtain rfl : f db = db' := (Prod.mk.inj (Except.ok.inj hrun)).2
      exact .of_same hc (hf db)

/-- The start of a run is sound. -/
theorem MailStart.sound {c : Config mailSignature MailLog} (h : MailStart c) :
    c.Sound (mailDiscipline libs fenced) := by
  have hrow : ∀ o, c.world.store.outboundMessages.find? o = none := fun o => by
    rw [h.outboundMessages, Table.find?_empty]
  have hdraft : ∀ d, c.world.store.drafts.find? d = none := fun d => by
    rw [h.drafts, Table.find?_empty]
  refine ⟨⟨⟨?_, ?_, ?_, ?_, ?_, ?_, ?_, ?_⟩, ?_, ?_, ?_, ?_, ?_⟩, ?_⟩
  all_goals simp [h.log, MailLog.empty, hrow, hdraft, h.outboundUploads, h.workers]

/-- Every pool that a run reaches is sound. -/
theorem mail_sound {c₀ c : Config mailSignature MailLog} (h₀ : MailStart c₀)
    (h : Reaches (mailSystem libs) (mailDiscipline libs fenced).assumes c₀ c) :
    c.Sound (mailDiscipline libs fenced) :=
  h.sound h₀.sound fun op _ w => (quiet_run op).safe w trivial

end MailHub
