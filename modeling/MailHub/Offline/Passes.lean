import MailHub.Offline.System

/-!
# What a pass does

Every commit and every request of the device, whoever makes it and whatever runs in between, is
described once: which statement it is, and what the pass or the owner knows when it makes it. The
invariants of the queue follow from these descriptions alone.
-/

namespace MailHub.Offline

open Relational Interleaving MailHub

variable {fails : Bool} {i j : ℕ} {o o' : Journal} {s s' : Device}

/-! ## The journal of one worker -/

namespace Journal

theorem passOf_congr (h : o'.pass = o.pass) : o'.passOf i = o.passOf i := by
  unfold passOf
  rw [h]

theorem attemptOf_congr (h : o'.pass = o.pass) : o'.attemptOf i = o.attemptOf i := by
  unfold attemptOf
  rw [passOf_congr h]

theorem passOf_eq_some {p : Pass} : o.passOf i = some p ↔ o.pass = some p ∧ p.worker = i := by
  simp [passOf, Option.filter_eq_some_iff]

/-- A worker changes its own pass. -/
theorem passOf_onPass {f : Pass → Pass} (hf : ∀ p, (f p).worker = p.worker) :
    (o.onPass i f).passOf i = (o.passOf i).map f := by
  unfold passOf onPass
  cases hp : o.pass with
  | none => rfl
  | some p =>
      by_cases hi : p.worker = i
      · simp [hi, hf, Option.filter]
      · simp [hi, Option.filter]

/-- A worker leaves the passes of the others alone. -/
theorem passOf_onPass_ne {f : Pass → Pass} (hf : ∀ p, (f p).worker = p.worker) (hj : j ≠ i) :
    (o.onPass i f).passOf j = o.passOf j := by
  unfold passOf onPass
  cases hp : o.pass with
  | none => rfl
  | some p =>
      by_cases hi : p.worker = i
      · simp [hi, hf, Ne.symm hj, Option.filter]
      · simp [hi]

theorem passOf_onAttempt_ne {f : Attempt → Attempt} (hj : j ≠ i) :
    (o.onAttempt i f).passOf j = o.passOf j := passOf_onPass_ne (fun _ => rfl) hj

@[simp] theorem requested_pass {g : Option Uuid} : (o.requested i g).pass = o.pass := by
  unfold requested
  split <;> rfl

@[simp] theorem sent_pass {d : Uuid} : (o.sent i d).pass = o.pass := by
  unfold sent
  split <;> rfl

@[simp] theorem sent_requests {d : Uuid} : (o.sent i d).requests = o.requests := by
  unfold sent
  split <;> rfl

@[simp] theorem edited_pass {editor : Option Uuid} {d : Uuid} {input : UpdateDraftInput}
    {server : Database} : (o.edited i editor d input server).pass = o.pass := by
  unfold edited
  simp only
  split <;> rfl

@[simp] theorem refused_pass {editor : Option Uuid} {d : Uuid} :
    (o.refused i editor d).pass = o.pass := by
  unfold refused
  simp only
  split <;> rfl

theorem plain_pass {α : Type} {r : Except OfflineFailure α} (h : o.plain r = some o') :
    o'.pass = o.pass := by
  unfold plain at h
  split at h
  · simp_all
  · split at h <;> simp_all

theorem total_eq {α : Type} {r : Except OfflineFailure α} (h : o.total r = some o') :
    o' = o ∧ ∃ a, r = .ok a := by
  unfold total at h
  split at h
  · simp_all
  · simp at h

/-- What an answer to an edit does. -/
inductive PatchAnswered (i : ℕ) (editor : Option Uuid) (d : Uuid) (input : UpdateDraftInput)
    (r : Except OfflineFailure DraftRecord) (o : Journal) : Journal → Prop
  | taken (record : DraftRecord) (server : Database) (hr : r = .ok record) (hnone : editor = none)
      (hrun : (commitDraftUpdate d input record.updatedAt).run o.server = .ok (record, server)) :
      PatchAnswered i editor d input r o ((o.edited i editor d input server).onAttempt i fun a =>
        { a with accepted := true, revision := some record.revision })
  | saved (record : DraftRecord) (server : Database) (hr : r = .ok record) (hsome : editor ≠ none)
      (hrun : (commitDraftUpdate d input record.updatedAt).run o.server = .ok (record, server)) :
      PatchAnswered i editor d input r o
        ((o.edited i editor d input server).learn (.worker i) d record.revision)
  | refused (e : ApiError) (message : String) (revision : Option ℕ) (hr : r = .error (.api e))
      (hrun : (commitDraftUpdate d input 0).run o.server =
        .error (.compose .draftStale message revision)) :
      PatchAnswered i editor d input r o (o.refused i editor d)
  /-- The edit took effect, and the answer was lost. -/
  | unheard (time : Time) (record : DraftRecord) (server : Database)
      (hr : r = .error (.lost (some time)))
      (hrun : (commitDraftUpdate d input time).run o.server = .ok (record, server)) :
      PatchAnswered i editor d input r o { o.edited i editor d input server with
        undelivered := (o.edited i editor d input server).undelivered ++ [d] }
  | failed (e : OfflineFailure) (hr : r = .error e) (he : mayFail e = true) :
      PatchAnswered i editor d input r o o

/-- Every answer to an edit does one of these. -/
theorem answerPatch_answered {editor : Option Uuid} {d : Uuid} {input : UpdateDraftInput}
    {r : Except OfflineFailure DraftRecord} (h : o.answerPatch i editor d input r = some o') :
    PatchAnswered i editor d input r o o' := by
  unfold answerPatch at h
  split at h
  next record =>
    split at h
    next record' server hrun =>
      by_cases hrecord : record = record'
      · obtain rfl := hrecord
        rw [if_pos rfl] at h
        by_cases hnone : editor = none
        · rw [if_pos hnone] at h
          obtain rfl := Option.some.inj h
          exact .taken record server rfl hnone hrun
        · rw [if_neg hnone] at h
          obtain rfl := Option.some.inj h
          exact .saved record server rfl hnone hrun
      · rw [if_neg hrecord] at h
        cases h
    next => cases h
  next e =>
    split at h
    next hcode =>
      split at h
      next message revision hrun =>
        obtain ⟨-, h⟩ := Option.ite_none_right_eq_some.mp h
        obtain rfl := Option.some.inj h
        exact .refused e message revision rfl hrun
      next => cases h
    next hcode =>
      obtain rfl := Option.some.inj h
      exact .failed _ rfl (by simpa [mayFail] using hcode)
  next =>
    obtain rfl := Option.some.inj h
    exact .failed _ rfl rfl
  next time =>
    split at h
    next record server hrun =>
      obtain rfl := Option.some.inj h
      exact .unheard time record server rfl hrun
    next =>
      obtain rfl := Option.some.inj h
      exact .failed _ rfl rfl
  next => cases h

/-- An answered edit changes a pass only when it accepts what the pass replays. -/
theorem answerPatch_pass {editor : Option Uuid} {d : Uuid} {input : UpdateDraftInput}
    {r : Except OfflineFailure DraftRecord} (h : o.answerPatch i editor d input r = some o') :
    (editor ≠ none ∨ (∃ e, r = .error e)) ∧ o'.pass = o.pass ∨
      editor = none ∧ ∃ record, r = .ok record ∧ o'.pass = (o.onAttempt i fun a =>
        { a with accepted := true, revision := some record.revision }).pass := by
  cases answerPatch_answered h with
  | taken record server hr hnone hrun =>
      refine .inr ⟨hnone, record, hr, ?_⟩
      simp only [onAttempt, onPass, edited_pass]
  | saved record server hr hsome hrun => exact .inl ⟨.inl hsome, edited_pass (o := o)⟩
  | refused e message revision hr hrun => exact .inl ⟨.inr ⟨_, hr⟩, refused_pass⟩
  | unheard time record server hr hrun => exact .inl ⟨.inr ⟨_, hr⟩, edited_pass (o := o)⟩
  | failed e hr he => exact .inl ⟨.inr ⟨e, hr⟩, rfl⟩

/-- An answered send locks its draft, is refused as stale, or changes nothing. -/
theorem answerSend_eq {editor : Bool} {d : Uuid} {base : ℕ} {r : Except OfflineFailure Uuid}
    (h : o.answerSend i editor d base r = some o') :
    (∃ outboundId locked server, (lockDraftForSend d base outboundId).run o.server =
        .ok (locked, server) ∧ o' = { o with server }) ∨
      (o.revisionOf d ≠ some base ∧ editor = false ∧ o' = o.conflicted i) ∨
      o' = o := by
  unfold answerSend at h
  split at h
  next outboundId =>
    split at h
    next locked server hlock =>
      obtain rfl := Option.some.inj h
      exact .inl ⟨outboundId, locked, server, hlock, rfl⟩
    next =>
      obtain rfl := Option.some.inj h
      exact .inr (.inr rfl)
  next e =>
    split at h
    · obtain ⟨hstale, h⟩ := Option.ite_none_left_eq_some.mp h
      cases editor with
      | true =>
          obtain rfl := Option.some.inj h
          exact .inr (.inr rfl)
      | false =>
          obtain rfl := Option.some.inj h
          exact .inr (.inl ⟨hstale, rfl, rfl⟩)
    · obtain rfl := Option.some.inj h
      exact .inr (.inr rfl)
  · obtain ⟨-, h⟩ := Option.ite_none_right_eq_some.mp h
    obtain rfl := Option.some.inj h
    exact .inr (.inr rfl)

theorem answerSend_pass {editor : Bool} {d : Uuid} {base : ℕ} {r : Except OfflineFailure Uuid}
    (h : o.answerSend i editor d base r = some o') : o'.pass = o.pass := by
  obtain ⟨_, _, _, -, rfl⟩ | ⟨-, -, rfl⟩ | rfl := answerSend_eq h <;> rfl

/-! ### Steps of the pass -/

/-- A worker's own pass after one of its commits. -/
def passAfter (tag : Option StoreTag) (s : Device) (p : Pass) : Pass :=
  match tag with
  | some (.write (.updateAction localId patch)) =>
      if patch.state ≠ some .synced ∧ patch.payload ≠ none then
        { p with attempt := p.attempt.map (unchain localId) }
      else p
  | some (.stop _) => { p with todo := [], attempt := none }
  | some .passGeneration => { p with generation := s.serverGeneration }
  | some .listPending => { p with todo := OfflineStore.pendingOf s }
  | some (.recheck localId) => p.recheck localId s
  | some .generationHeaders =>
      { p with attempt := p.attempt.map fun a => { a with header := some s.serverGeneration } }
  | some (.files draftId) =>
      { p with attempt := p.attempt.map fun a =>
          { a with filesReady :=
              (OfflineStore.uploadsOf draftId s).all fun u => u.serverId.isSome } }
  | some .listChained =>
      { p with attempt := p.attempt.map fun a =>
          { a with chain := some (OfflineStore.pendingOf s) } }
  | _ => p

theorem onPass_id : (o.onPass i fun p => p).pass = o.pass := by
  simp [onPass]

/-- What an editor does leaves everything but the learnt revisions alone. -/
theorem afterEdit_eq (i : ℕ) (s : Device) (o : Journal) (e : EditTag) :
    ∃ learnt, o.afterEdit i s e = { o with learnt } := by
  unfold afterEdit
  split
  · split <;> exact ⟨_, rfl⟩
  · split
    · split <;> exact ⟨_, rfl⟩
    · exact ⟨_, rfl⟩
  · split
    · split <;> exact ⟨_, rfl⟩
    · exact ⟨_, rfl⟩
  · exact ⟨_, rfl⟩

/-- A commit changes the pass of its worker only. -/
theorem observe_pass {tag : Option StoreTag} :
    (o.observe i tag s).pass = (o.onPass i (passAfter tag s)).pass := by
  unfold observe passAfter
  split
  case h_2 wr =>
      cases wr with
      | updateAction localId patch =>
          by_cases hstate : patch.state = some .synced <;>
            by_cases hpayload : patch.payload = none <;>
              simp [afterWrite, hstate, hpayload, onAttempt, onPass]
      | putPendingUploadWithAction upload action =>
          simp only [afterWrite]
          split <;> exact onPass_id.symm
      | updateUpload localId patch =>
          simp only [afterWrite]
          split <;> exact onPass_id.symm
      | _ => exact onPass_id.symm
  case h_10 e =>
      obtain ⟨learnt, hlearnt⟩ := afterEdit_eq i s o e
      rw [hlearnt]
      exact onPass_id.symm
  all_goals first
    | rfl
    | exact onPass_id.symm

/-- Commits touch no draft and send no request. -/
theorem observe_eq (i : ℕ) (tag : Option StoreTag) (s : Device) (o : Journal) :
    ∃ pass synced discarded acknowledged dropped learnt, o.observe i tag s =
      { o with pass, synced, discarded, acknowledged, dropped, learnt } := by
  have hwrite : ∀ wr, ∃ pass synced discarded acknowledged dropped learnt, o.afterWrite i wr =
      { o with pass, synced, discarded, acknowledged, dropped, learnt } := by
    intro wr
    cases wr with
    | updateAction localId patch =>
        by_cases hstate : patch.state = some .synced
        · exact ⟨_, _, _, _, _, _, by rw [afterWrite, if_pos hstate]⟩
        · by_cases hpayload : patch.payload ≠ none
          · exact ⟨_, _, _, _, _, _, by rw [afterWrite, if_neg hstate, if_pos hpayload]; rfl⟩
          · exact ⟨_, _, _, _, _, _, by rw [afterWrite, if_neg hstate, if_neg hpayload]⟩
    | putPendingUploadWithAction upload action =>
        by_cases hserver : upload.serverId ≠ none ∨ upload.attachedAt ≠ none
        · exact ⟨_, _, _, _, _, _, by rw [afterWrite, if_pos hserver]⟩
        · exact ⟨_, _, _, _, _, _, by rw [afterWrite, if_neg hserver]⟩
    | updateUpload localId patch =>
        by_cases hserver : patch.serverId ≠ none
        · exact ⟨_, _, _, _, _, _, by rw [afterWrite, if_pos hserver]⟩
        · exact ⟨_, _, _, _, _, _, by rw [afterWrite, if_neg hserver]⟩
    | _ => exact ⟨_, _, _, _, _, _, rfl⟩
  cases tag with
  | none => exact ⟨_, _, _, _, _, _, rfl⟩
  | some tag =>
      cases tag with
      | write wr => exact hwrite wr
      | edit e =>
          obtain ⟨learnt, hlearnt⟩ := afterEdit_eq i s o e
          exact ⟨_, _, _, _, _, learnt, hlearnt⟩
      | _ => exact ⟨_, _, _, _, _, _, rfl⟩

/-- What an answer does to the passes. -/
inductive PassAnswered (i : ℕ) (c : OfflineCall) (o o' : Journal) : Prop
  | same (h : o'.pass = o.pass)
  | acquired (hc : c = .acquirePass) (hnone : o.pass = none)
      (h : o'.pass = some ⟨i, none, [], none, []⟩)
  | released (hc : c = .releasePass) (h : o'.pass = o.pass.filter (·.worker != i))
  /-- The service accepted a replayed save. -/
  | accepted (generation : Option Uuid) (draftId : Uuid) (input : UpdateDraftInput)
      (record : DraftRecord) (hc : c = .patchDraft none generation draftId input)
      (h : o'.pass = (o.onAttempt i fun a =>
        { a with accepted := true, revision := some record.revision }).pass)

theorem respond_patchDraft {editor : Option Uuid} {g : Option Uuid} {d : Uuid}
    {input : UpdateDraftInput} {r : Except OfflineFailure DraftRecord}
    (h : respond i (.patchDraft editor g d input) r o = some o') :
    PassAnswered i (.patchDraft editor g d input) o o' := by
  have hanswer : (if editor = none then o.requested i g else o).answerPatch i editor d input r =
      some o' := h
  have hpass : (if editor = none then o.requested i g else o).pass = o.pass := by
    split
    · exact requested_pass
    · rfl
  rcases answerPatch_pass hanswer with ⟨-, hsame⟩ | ⟨rfl, record, -, haccepted⟩
  · exact .same (hsame.trans hpass)
  · refine .accepted g d input record rfl (haccepted.trans ?_)
    unfold onAttempt onPass
    rw [hpass]

/-- Every answer does one of these. -/
theorem respond_pass {c : OfflineCall} {r : Except OfflineFailure c.Answer}
    (h : respond i c r o = some o') : PassAnswered i c o o' := by
  cases c with
  | now | generateId | offline | sessionGeneration =>
      refine .same ?_
      rw [(total_eq h).1]
  | acquirePass =>
      obtain ⟨hnone, htotal⟩ := Option.ite_none_right_eq_some.mp h
      obtain ⟨rfl, -⟩ := total_eq htotal
      exact .acquired rfl (by simpa using hnone) rfl
  | releasePass =>
      obtain ⟨rfl, -⟩ := total_eq h
      exact .released rfl rfl
  | patchDraft editor g d input => exact respond_patchDraft h
  | postUpload g upload => exact .same ((plain_pass h).trans requested_pass)
  | getAttachments d => exact .same (plain_pass h)
  | postAttachment editor g d uploadId =>
      refine .same ((plain_pass h).trans ?_)
      split
      · rfl
      · exact requested_pass
  | postSend editor g d key base =>
      refine .same ((answerSend_pass h).trans ?_)
      split
      · rfl
      · rw [sent_pass, requested_pass]
  | postAction g body => exact .same ((plain_pass h).trans requested_pass)
  | readDraft d =>
      refine .same ?_
      cases r with
      | ok record =>
          rw [← Option.some.inj (Option.ite_none_right_eq_some.mp h).2]
          rfl
      | error e => rw [← Option.some.inj (Option.ite_none_right_eq_some.mp h).2]

/-! ### What an answer leaves alone -/

/-- The records of two journals agree, apart from what happened to drafts. -/
structure SameRecords (o o' : Journal) : Prop where
  requests : o'.requests = o.requests
  sends : o'.sends = o.sends
  synced : o'.synced = o.synced
  discarded : o'.discarded = o.discarded
  acknowledged : o'.acknowledged = o.acknowledged
  dropped : o'.dropped = o.dropped

theorem SameRecords.refl : SameRecords o o := ⟨rfl, rfl, rfl, rfl, rfl, rfl⟩

theorem edited_records {editor : Option Uuid} {d : Uuid} {input : UpdateDraftInput}
    {server : Database} : SameRecords o (o.edited i editor d input server) := by
  unfold edited
  simp only
  split <;> exact ⟨rfl, rfl, rfl, rfl, rfl, rfl⟩

theorem refused_records {editor : Option Uuid} {d : Uuid} :
    SameRecords o (o.refused i editor d) := by
  unfold refused
  simp only
  split <;> exact ⟨rfl, rfl, rfl, rfl, rfl, rfl⟩

/-- An answered edit changes only the drafts and what is known of them. -/
theorem answerPatch_records {editor : Option Uuid} {d : Uuid} {input : UpdateDraftInput}
    {r : Except OfflineFailure DraftRecord} (h : o.answerPatch i editor d input r = some o') :
    SameRecords o o' := by
  have hedited : ∀ server, SameRecords o (o.edited i editor d input server) :=
    fun server => edited_records
  cases answerPatch_answered h with
  | taken record server hr hnone hrun | saved record server hr hsome hrun
  | unheard time record server hr hrun =>
      have hsame := hedited server
      exact ⟨hsame.1, hsame.2, hsame.3, hsame.4, hsame.5, hsame.6⟩
  | refused e message revision hr hrun => exact refused_records
  | failed e hr he => exact .refl

theorem answerSend_records {editor : Bool} {d : Uuid} {base : ℕ}
    {r : Except OfflineFailure Uuid} (h : o.answerSend i editor d base r = some o') :
    SameRecords o o' := by
  obtain ⟨_, _, _, -, rfl⟩ | ⟨-, -, rfl⟩ | rfl := answerSend_eq h
  · exact ⟨rfl, rfl, rfl, rfl, rfl, rfl⟩
  · exact ⟨rfl, rfl, rfl, rfl, rfl, rfl⟩
  · exact .refl

theorem plain_eq {α : Type} {r : Except OfflineFailure α} (h : o.plain r = some o') : o' = o := by
  unfold plain at h
  split at h
  · exact (Option.some.inj h).symm
  · exact (Option.some.inj (Option.ite_none_right_eq_some.mp h).2).symm

/-- No answer settles an action or an upload, and what was refused as stale stays recorded. -/
structure SameSettled (o o' : Journal) : Prop where
  synced : o'.synced = o.synced
  discarded : o'.discarded = o.discarded
  acknowledged : o'.acknowledged = o.acknowledged
  dropped : o'.dropped = o.dropped
  conflicts : o.conflicts <+: o'.conflicts

theorem SameRecords.settled (h : SameRecords o o') (hconflicts : o.conflicts <+: o'.conflicts) :
    SameSettled o o' :=
  ⟨h.synced, h.discarded, h.acknowledged, h.dropped, hconflicts⟩

theorem SameSettled.refl : SameSettled o o := ⟨rfl, rfl, rfl, rfl, List.prefix_refl _⟩

theorem SameSettled.trans {o'' : Journal} (h : SameSettled o o') (h' : SameSettled o' o'') :
    SameSettled o o'' :=
  ⟨h'.synced.trans h.synced, h'.discarded.trans h.discarded,
    h'.acknowledged.trans h.acknowledged, h'.dropped.trans h.dropped,
    h.conflicts.trans h'.conflicts⟩

theorem requested_settled {g : Option Uuid} : SameSettled o (o.requested i g) := by
  unfold requested
  split <;> exact ⟨rfl, rfl, rfl, rfl, List.prefix_refl _⟩

theorem sent_settled {d : Uuid} : SameSettled o (o.sent i d) := by
  unfold sent
  split <;> exact ⟨rfl, rfl, rfl, rfl, List.prefix_refl _⟩

theorem edited_conflicts {editor : Option Uuid} {d : Uuid} {input : UpdateDraftInput}
    {server : Database} : (o.edited i editor d input server).conflicts = o.conflicts := by
  unfold edited
  simp only
  split <;> rfl

theorem refused_conflicts {editor : Option Uuid} {d : Uuid} :
    o.conflicts <+: (o.refused i editor d).conflicts := by
  unfold refused
  simp only
  split
  · exact List.prefix_append _ _
  · exact List.prefix_refl _

theorem answerPatch_settled {editor : Option Uuid} {d : Uuid} {input : UpdateDraftInput}
    {r : Except OfflineFailure DraftRecord} (h : o.answerPatch i editor d input r = some o') :
    SameSettled o o' := by
  refine (answerPatch_records h).settled ?_
  cases answerPatch_answered h with
  | taken record server hr hnone hrun | saved record server hr hsome hrun
  | unheard time record server hr hrun =>
      have hsame : (o.edited i editor d input server).conflicts = o.conflicts := edited_conflicts
      exact ⟨[], (List.append_nil _).trans hsame.symm⟩
  | refused e message revision hr hrun => exact refused_conflicts
  | failed e hr he => exact List.prefix_refl _

theorem answerSend_settled {editor : Bool} {d : Uuid} {base : ℕ}
    {r : Except OfflineFailure Uuid} (h : o.answerSend i editor d base r = some o') :
    SameSettled o o' := by
  refine (answerSend_records h).settled ?_
  obtain ⟨_, _, _, -, rfl⟩ | ⟨-, -, rfl⟩ | rfl := answerSend_eq h
  · exact List.prefix_refl _
  · exact List.prefix_append _ _
  · exact List.prefix_refl _

theorem respond_settled {c : OfflineCall} {r : Except OfflineFailure c.Answer}
    (h : respond i c r o = some o') : SameSettled o o' := by
  cases c with
  | now | generateId | offline | sessionGeneration =>
      rw [(total_eq h).1]
      exact .refl
  | acquirePass =>
      obtain ⟨-, htotal⟩ := Option.ite_none_right_eq_some.mp h
      rw [(total_eq htotal).1]
      exact ⟨rfl, rfl, rfl, rfl, List.prefix_refl _⟩
  | releasePass =>
      rw [(total_eq h).1]
      exact ⟨rfl, rfl, rfl, rfl, List.prefix_refl _⟩
  | patchDraft editor g d input =>
      refine SameSettled.trans ?_ (answerPatch_settled h)
      split
      · exact requested_settled
      · exact .refl
  | postUpload g upload | postAction g body =>
      rw [plain_eq h]
      exact requested_settled
  | getAttachments d =>
      rw [plain_eq h]
      exact .refl
  | postAttachment editor g d uploadId =>
      rw [plain_eq h]
      split
      · exact .refl
      · exact requested_settled
  | postSend editor g d key base =>
      refine SameSettled.trans ?_ (answerSend_settled h)
      split
      · exact .refl
      · exact requested_settled.trans sent_settled
  | readDraft d =>
      cases r with
      | ok record =>
          rw [← Option.some.inj (Option.ite_none_right_eq_some.mp h).2]
          exact ⟨rfl, rfl, rfl, rfl, List.prefix_refl _⟩
      | error e =>
          rw [← Option.some.inj (Option.ite_none_right_eq_some.mp h).2]
          exact .refl

/-- A recorded request names what is replayed. -/
theorem requested_requests {a : Attempt} {g : Option Uuid} (ha : o.attemptOf i = some a) :
    (o.requested i g).requests = o.requests ++ [(a.queued, g)] := by
  simp only [requested, ha]

/-! ### Properties of the pass -/

/-- A property of the pass under way, when there is one. -/
def EveryPass (P : Pass → Prop) (o : Journal) : Prop := ∀ p, o.pass = some p → P p

theorem EveryPass.congr {P : Pass → Prop} (hP : o.EveryPass P) (h : o'.pass = o.pass) :
    o'.EveryPass P := fun p hp => hP p (h ▸ hp)

/-- What a worker does to its pass keeps a property of the pass. -/
theorem EveryPass.onPass {P Q : Pass → Prop} {f : Pass → Pass} (hP : o.EveryPass P)
    (hsame : ∀ p, p.worker ≠ i → o.pass = some p → P p → Q p)
    (hf : ∀ p, p.worker = i → o.pass = some p → P p → Q (f p))
    (h : o'.pass = (o.onPass i f).pass) : o'.EveryPass Q := by
  intro p' hp'
  rw [h] at hp'
  obtain ⟨p, hp, rfl⟩ := Option.map_eq_some_iff.mp hp'
  split
  · exact hf p ‹_› hp (hP p hp)
  · exact hsame p ‹_› hp (hP p hp)

/-- A property of every pass is kept by answers that a new pass and an acceptance keep. -/
theorem EveryPass.answered {P : Pass → Prop} {c : OfflineCall} (hP : o.EveryPass P)
    (h : PassAnswered i c o o') (hnew : P ⟨i, none, [], none, []⟩)
    (haccept : ∀ p (record : DraftRecord), p.worker = i → o.pass = some p → P p →
      P { p with attempt := p.attempt.map fun a =>
        { a with accepted := true, revision := some record.revision } }) : o'.EveryPass P := by
  cases h with
  | same h => exact hP.congr h
  | acquired hc hnone h =>
      intro p hp
      obtain rfl := Option.some.inj (h.symm.trans hp)
      exact hnew
  | released hc h =>
      intro p hp
      rw [h] at hp
      exact hP p (Option.filter_eq_some_iff.mp hp).1
  | accepted g d input record hc h =>
      exact hP.onPass (fun p _ _ hp => hp) (fun p hw hp => haccept p record hw hp) h

/-- A worker that is gone takes its pass along. -/
theorem EveryPass.retire {P : Pass → Prop} (hP : o.EveryPass P) : (o.endPass i).EveryPass P :=
  fun p hp => hP p (Option.filter_eq_some_iff.mp hp).1

end Journal

/-! ## Frozen work -/

/-- The payload without what a rebase replaces. -/
def QueuedPayload.work : QueuedPayload → QueuedPayload
  | .draftSave draftId _ patch => .draftSave draftId 0 patch
  | .send draftId _ _ => .send draftId "" 0
  | payload => payload

/-- An action as it was queued and as it stands now: only its base, its key and its fate moved. -/
structure SameWork (e a : QueuedAction) : Prop where
  localId : e.localId = a.localId
  queuedAt : e.queuedAt = a.queuedAt
  work : e.payload.work = a.payload.work

/-- Every action of the queue was enqueued, once, and still asks for the same work. -/
structure Frozen (s : Device) : Prop where
  nodup : (s.enqueued.map (·.localId)).Nodup
  queued : ∀ a ∈ s.queue, ∃ e ∈ s.enqueued, SameWork e a

/-- An identifier was enqueued once. -/
theorem Frozen.unique {e e' : QueuedAction} (hs : Frozen s) (he : e ∈ s.enqueued)
    (he' : e' ∈ s.enqueued) (hid : e.localId = e'.localId) : e = e' :=
  List.inj_on_of_nodup_map hs.nodup he he' hid

@[simp] theorem QueuedPayload.work_rebased (payload : QueuedPayload) (revision : ℕ) :
    (payload.rebased revision).work = payload.work := by
  cases payload <;> rfl

/-- A new payload of an action asks for the work that the action was enqueued for. -/
def KeepsWork (wr : Write) (s : Device) : Prop :=
  match wr with
  | .updateAction localId patch => ∀ payload, patch.payload = some payload →
      ∃ e ∈ s.enqueued, e.localId = localId ∧ e.payload.work = payload.work
  | _ => True

theorem addAction_frozen {a : QueuedAction} (hs : Frozen s) (h : s.addAction a = .ok s') :
    Frozen s' ∧ s.enqueued <+: s'.enqueued := by
  unfold Device.addAction at h
  split at h
  · cases h
  next hfresh =>
    obtain rfl := Except.ok.inj h
    refine ⟨⟨?_, fun b hb => ?_⟩, List.prefix_append ..⟩
    · rw [List.map_append, List.nodup_append]
      refine ⟨hs.nodup, List.nodup_singleton _, fun x hx y hy => ?_⟩
      obtain rfl := List.mem_singleton.mp hy
      rintro rfl
      exact hfresh hx
    · rcases Table.mem_put.mp hb with ⟨hb, -⟩ | rfl
      · obtain ⟨e, he, hsame⟩ := hs.queued b hb
        exact ⟨e, List.mem_append_left _ he, hsame⟩
      · exact ⟨b, List.mem_append_right _ (List.mem_singleton_self b), rfl, rfl, rfl⟩

/-- Rewritten payloads that keep their work keep the queue frozen. -/
theorem updateAction_frozen {localId : Uuid} {patch : ActionPatch} (hs : Frozen s)
    (hw : KeepsWork (.updateAction localId patch) s) :
    Frozen { s with queue := s.queue.update (·.localId == localId) patch.apply fun _ => rfl } := by
  refine ⟨hs.nodup, fun a ha => ?_⟩
  obtain ⟨a₀, ha₀, rfl⟩ := List.mem_map.mp ha
  obtain ⟨e, he, hsame⟩ := hs.queued a₀ ha₀
  refine ⟨e, he, ?_⟩
  split
  next hid =>
    refine ⟨hsame.localId, hsame.queuedAt, ?_⟩
    cases hp : patch.payload with
    | none => simpa [ActionPatch.apply, hp] using hsame.work
    | some payload =>
        obtain ⟨e', he', hid', hwork⟩ := hw payload hp
        have hsameId : e.localId = e'.localId := by
          rw [hsame.localId, hid']
          simpa using hid
        rw [hs.unique he he' hsameId]
        simpa [ActionPatch.apply, hp] using hwork
  next => exact hsame

/-- Every statement keeps the queued work frozen, and nothing enqueued is forgotten. -/
theorem Write.exec_frozen {wr : Write} (hs : Frozen s) (hw : KeepsWork wr s)
    (h : wr.exec s = .ok s') : Frozen s' ∧ s.enqueued <+: s'.enqueued := by
  have hdelete : ∀ p : QueuedAction → Bool, Frozen { s with queue := s.queue.delete p } :=
    fun p => ⟨hs.nodup, fun a ha => hs.queued a (Table.mem_delete.mp ha).1⟩
  cases wr with
  | enqueue action => exact addAction_frozen hs h
  | putPendingUploadWithAction upload action =>
      simp only [Write.exec, bind_eq_ok] at h
      obtain ⟨s₁, hup, hadd⟩ := h
      unfold Device.addUpload at hup
      split at hup
      · cases hup
      · obtain rfl := Except.ok.inj hup
        have hfiled : Frozen { s with uploads := s.uploads.put upload,
                                      filed := s.filed ++ [upload] } := ⟨hs.nodup, hs.queued⟩
        have hadded := addAction_frozen hfiled hadd
        exact hadded
  | updateAction localId patch =>
      obtain rfl := Except.ok.inj h
      exact ⟨updateAction_frozen hs hw, List.prefix_refl _⟩
  | deleteAction localId =>
      obtain rfl := Except.ok.inj h
      exact ⟨hdelete _, List.prefix_refl _⟩
  | pruneActions localIds =>
      obtain rfl := Except.ok.inj h
      exact ⟨hdelete _, List.prefix_refl _⟩
  | putLocalDraft _ | pruneDrafts _ | updateUpload _ _ | deleteUpload _ | pruneUploads _
  | serverGeneration _ | restore _ | lastSyncedAt _ | signInRequired _ =>
      obtain rfl := Except.ok.inj h
      exact ⟨⟨hs.nodup, hs.queued⟩, List.prefix_refl _⟩

/-! ## The discipline -/

/-- Whether a payload saves a draft. -/
def QueuedPayload.isSave : QueuedPayload → Bool
  | .draftSave .. => true
  | _ => false

/-- What is known when worker `i` rewrites an action. -/
structure RewriteWarrant (i : ℕ) (localId : Uuid) (patch : ActionPatch)
    (w : World offlineSignature Journal) : Prop where
  /-- A new payload asks for the same work. -/
  work : KeepsWork (.updateAction localId patch) w.store
  /-- Only the pass that replayed an action marks it synced, and a save only after the service
  accepted it. -/
  synced : patch.state = some .synced → ∃ a, w.outside.attemptOf i = some a ∧
    a.queued.localId = localId ∧ (a.queued.payload.isSave = true → a.accepted = true)
  /-- A payload is replaced by the owner's rebase, or chained to the revision of a save. -/
  chained : ∀ payload, patch.payload = some payload → patch.state = some .pending ∨
    ∃ a l revision d base edits, w.outside.attemptOf i = some a ∧ a.chain = some l ∧
      a.revision = some revision ∧ a.queued.payload = .draftSave d base edits ∧
        ∃ e ∈ l, e.localId = localId ∧ e.payload.chains d revision = true ∧
          payload = e.payload.rebased revision
  /-- Only what the service refused as stale is parked as a conflict. -/
  conflict : patch.reviewReason = some (some .draftConflict) → localId ∈ w.outside.conflicts

/-- What is known when worker `i` runs a statement. -/
def Warranted (i : ℕ) (wr : Write) (w : World offlineSignature Journal) : Prop :=
  match wr with
  | .enqueue action => action.state = .pending ∧ action.reviewReason = none ∧
      ∀ x, action.payload = .upload x → x ∈ w.store.filed.map (·.localId)
  | .putPendingUploadWithAction upload action =>
      action.state = .pending ∧ action.reviewReason = none ∧
        action.payload = .upload upload.localId
  | .updateAction localId patch => RewriteWarrant i localId patch w
  | .pruneActions localIds => localIds ⊆ w.outside.synced
  | .updateUpload localId patch =>
      patch.serverId = none → patch.attachedAt ≠ none → localId ∈ w.outside.acknowledged
  | .pruneUploads localIds => localIds ⊆ w.outside.acknowledged
  | _ => True

theorem Warranted.work {wr : Write} {w : World offlineSignature Journal}
    (h : Warranted i wr w) : KeepsWork wr w.store := by
  cases wr with
  | updateAction localId patch => exact RewriteWarrant.work h
  | _ => trivial

/-- An accepted save is chained before the pass goes on. -/
def Pass.Concluded (p : Pass) : Prop :=
  ∀ a, p.attempt = some a → a.accepted = true → ∀ d base patch,
    a.queued.payload = .draftSave d base patch → ∃ l revision,
      a.chain = some l ∧ a.revision = some revision ∧ ∀ e ∈ l, e.payload.chains d revision = false

/-- A pass comes to the next action of its list, which carries the pass's generation. -/
def ComesTo (i : ℕ) (localId : Uuid) (o : Journal) : Prop :=
  ∃ p listed rest, o.passOf i = some p ∧ p.todo = listed :: rest ∧ listed.localId = localId ∧
    p.generation = some listed.recoveryGeneration ∧ p.Concluded

/-- What a commit of worker `i` is. -/
def Described (i : ℕ) (tag : Option StoreTag) (w w' : World offlineSignature Journal) : Prop :=
  match tag with
  | some (.write wr) => wr.exec w.store = .ok w'.store ∧ Warranted i wr w
  | some (.stop localId) =>
      (Write.updateAction localId restoredPatch).exec w.store = .ok w'.store ∧
        ∃ p, w.outside.passOf i = some p ∧ p.Concluded
  | some (.recheck localId) => w'.store = w.store ∧ ComesTo i localId w.outside
  | some (.files draftId) => w'.store = w.store ∧ ∃ a key base,
      w.outside.attemptOf i = some a ∧ a.queued.payload = .send draftId key base
  | some (.edit _) => ∃ editors, w'.store = { w.store with editors }
  | _ => w'.store = w.store

/-- What a request of worker `i` is. -/
def Asked (i : ℕ) (c : OfflineCall) (w : World offlineSignature Journal) : Prop :=
  match c with
  | .patchDraft none generation draftId input => ∃ a base patch,
      w.outside.attemptOf i = some a ∧ a.header = some generation ∧
        a.queued.payload = .draftSave draftId base patch ∧ input = editBody patch base
  | .postUpload generation _ | .postAttachment false generation _ _ | .postAction generation _ =>
      ∃ a, w.outside.attemptOf i = some a ∧ a.header = some generation
  | .postSend false generation draftId key base => ∃ a,
      w.outside.attemptOf i = some a ∧ a.header = some generation ∧
        a.queued.payload = .send draftId key base ∧ a.filesReady = true
  | _ => True

theorem ServerStep.advance_pass {t : ServerStep} (h : t.advance o = some o') :
    o'.pass = o.pass := by
  cases t with
  | edit d input now =>
      simp only [ServerStep.advance] at h
      split at h
      · obtain rfl := Option.some.inj h
        rfl
      · cases h
  | elsewhere f hf =>
      obtain rfl := Option.some.inj h
      rfl

/-- A worker that is gone takes only its own pass along. -/
theorem Journal.passOf_endPass (hj : j ≠ i) : (o.endPass i).passOf j = o.passOf j := by
  unfold Journal.passOf Journal.endPass
  cases hp : o.pass with
  | none => rfl
  | some p =>
      by_cases hi : p.worker = i
      · simp [hi, Option.filter, Ne.symm hj]
      · simp [hi, Option.filter]

/-- A commit leaves the passes of the other workers alone. -/
theorem Journal.passOf_observe {tag : Option StoreTag} (hj : j ≠ i) :
    (o.observe i tag s).passOf j = o.passOf j := by
  unfold Journal.observe
  split
  case h_2 wr =>
      cases wr <;> simp only [Journal.afterWrite] <;> (try split) <;> (try split) <;>
        first
          | rfl
          | exact passOf_onPass_ne (fun p => rfl) hj
  case h_10 e =>
      obtain ⟨learnt, hlearnt⟩ := afterEdit_eq i s o e
      rw [hlearnt]
      rfl
  all_goals first
    | rfl
    | exact passOf_onPass_ne (fun p => rfl) hj

/-! ### What is on record -/

/-- Every file was filed once, and the rows and actions name filed ones. -/
structure Filing (s : Device) : Prop where
  nodup : (s.filed.map (·.localId)).Nodup
  uploads : ∀ u ∈ s.uploads, ∃ f ∈ s.filed, f.localId = u.localId ∧ f.draftId = u.draftId
  named : ∀ e ∈ s.enqueued, ∀ x, e.payload = .upload x → x ∈ s.filed.map (·.localId)

/-- What the rows of the store show is on record. -/
structure Recorded (w : World offlineSignature Journal) : Prop where
  frozen : Frozen w.store
  filing : Filing w.store
  synced : ∀ a ∈ w.store.queue, a.state = .synced → a.localId ∈ w.outside.synced
  acknowledged : ∀ u ∈ w.store.uploads, u.serverId ≠ none ∨ u.attachedAt ≠ none →
    u.localId ∈ w.outside.acknowledged

/-- Nothing on record is forgotten. -/
structure Grows (w w' : World offlineSignature Journal) : Prop where
  enqueued : w.store.enqueued <+: w'.store.enqueued
  filed : w.store.filed <+: w'.store.filed
  synced : w.outside.synced <+: w'.outside.synced
  acknowledged : w.outside.acknowledged <+: w'.outside.acknowledged
  conflicts : w.outside.conflicts <+: w'.outside.conflicts

variable {w w' w'' : World offlineSignature Journal}

theorem Grows.refl : Grows w w :=
  ⟨List.prefix_refl _, List.prefix_refl _, List.prefix_refl _, List.prefix_refl _,
    List.prefix_refl _⟩

theorem Grows.trans (h : Grows w w') (h' : Grows w' w'') : Grows w w'' :=
  ⟨h.enqueued.trans h'.enqueued, h.filed.trans h'.filed, h.synced.trans h'.synced,
    h.acknowledged.trans h'.acknowledged, h.conflicts.trans h'.conflicts⟩

/-- Answers forget nothing. -/
theorem Journal.SameSettled.grows (h : w.outside.SameSettled o') : Grows w ⟨w.store, o'⟩ :=
  ⟨List.prefix_refl _, List.prefix_refl _, h.synced ▸ List.prefix_refl _,
    h.acknowledged ▸ List.prefix_refl _, h.conflicts⟩

/-- Answers change no row. -/
theorem Recorded.settled (hw : Recorded w) (h : w.outside.SameSettled o') :
    Recorded ⟨w.store, o'⟩ := by
  refine ⟨hw.frozen, hw.filing, fun a ha hstate => ?_, fun u hu hdone => ?_⟩
  · show a.localId ∈ o'.synced
    rw [h.synced]
    exact hw.synced a ha hstate
  · show u.localId ∈ o'.acknowledged
    rw [h.acknowledged]
    exact hw.acknowledged u hu hdone

/-- What the service does on its own settles nothing on the device. -/
theorem ServerStep.advance_settled {t : ServerStep} (h : t.advance o = some o') :
    o.SameSettled o' := by
  cases t with
  | edit d input now =>
      simp only [ServerStep.advance] at h
      split at h
      · obtain rfl := Option.some.inj h
        exact ⟨rfl, rfl, rfl, rfl, List.prefix_refl _⟩
      · cases h
  | elsewhere f hf =>
      obtain rfl := Option.some.inj h
      exact ⟨rfl, rfl, rfl, rfl, List.prefix_refl _⟩

/-- A commit of worker `i` forgets nothing that answers or statements put on record. -/
theorem Journal.observe_grows (i : ℕ) (tag : Option StoreTag) (s : Device) (o : Journal) :
    o.synced <+: (o.observe i tag s).synced ∧
      o.acknowledged <+: (o.observe i tag s).acknowledged ∧
        (o.observe i tag s).conflicts = o.conflicts := by
  have hsame : o.synced <+: o.synced ∧ o.acknowledged <+: o.acknowledged ∧
      o.conflicts = o.conflicts := ⟨List.prefix_refl _, List.prefix_refl _, rfl⟩
  cases tag with
  | none => exact hsame
  | some tag =>
      cases tag with
      | write wr =>
          cases wr with
          | updateAction localId patch =>
              simp only [Journal.observe, Journal.afterWrite]
              split
              · exact ⟨List.prefix_append _ _, List.prefix_refl _, rfl⟩
              · split <;> exact hsame
          | putPendingUploadWithAction upload action =>
              simp only [Journal.observe, Journal.afterWrite]
              split
              · exact ⟨List.prefix_refl _, List.prefix_append _ _, rfl⟩
              · exact hsame
          | updateUpload localId patch =>
              simp only [Journal.observe, Journal.afterWrite]
              split
              · exact ⟨List.prefix_refl _, List.prefix_append _ _, rfl⟩
              · exact hsame
          | _ => exact hsame
      | edit e =>
          obtain ⟨learnt, hlearnt⟩ := Journal.afterEdit_eq i s o e
          simp only [Journal.observe]
          rw [hlearnt]
          exact hsame
      | _ => exact hsame

/-- A row of the queue after an action was added is the action, or was there. -/
theorem addAction_rows {a b : QueuedAction} (h : s.addAction a = .ok s') (hb : b ∈ s'.queue) :
    b ∈ s.queue ∨ b = a := by
  unfold Device.addAction at h
  split at h
  · cases h
  · obtain rfl := Except.ok.inj h
    exact (Table.mem_put.mp hb).imp And.left id

theorem addAction_uploads {a : QueuedAction} (h : s.addAction a = .ok s') :
    s'.uploads = s.uploads ∧ s'.filed = s.filed ∧ s'.enqueued = s.enqueued ++ [a] := by
  unfold Device.addAction at h
  split at h
  · cases h
  · obtain rfl := Except.ok.inj h
    exact ⟨rfl, rfl, rfl⟩

/-- An upload and its action that were filed together. -/
theorem putPending_ok {upload : LocalUpload} {a : QueuedAction}
    (h : (Write.putPendingUploadWithAction upload a).exec s = .ok s') :
    upload.localId ∉ s.filed.map (·.localId) ∧ s'.uploads = s.uploads.put upload ∧
      s'.filed = s.filed ++ [upload] ∧ s'.enqueued = s.enqueued ++ [a] ∧
        ∀ b ∈ s'.queue, b ∈ s.queue ∨ b = a := by
  simp only [Write.exec, bind_eq_ok] at h
  obtain ⟨s₁, hup, hadd⟩ := h
  unfold Device.addUpload at hup
  split at hup
  · cases hup
  next hfresh =>
    obtain rfl := Except.ok.inj hup
    obtain ⟨huploads, hfiled, henqueued⟩ := addAction_uploads hadd
    refine ⟨hfresh, huploads, hfiled, henqueued, fun b hb => ?_⟩
    have hrow := addAction_rows hadd hb
    exact hrow

/-- Every warranted statement files its files. -/
theorem Filing.write {wr : Write} {s' : Device} (hs : Filing w.store)
    (hwarrant : Warranted i wr w) (h : wr.exec w.store = .ok s') :
    Filing s' ∧ w.store.filed <+: s'.filed := by
  have hsame : ∀ s' : Device, s'.filed = w.store.filed → s'.enqueued = w.store.enqueued →
      (∀ u ∈ s'.uploads, ∃ u₀ ∈ w.store.uploads, u₀.localId = u.localId ∧
        u₀.draftId = u.draftId) → Filing s' ∧ w.store.filed <+: s'.filed := by
    intro s' hfiled henqueued huploads
    refine ⟨⟨hfiled ▸ hs.nodup, fun u hu => ?_, ?_⟩, hfiled ▸ List.prefix_refl _⟩
    · obtain ⟨u₀, hu₀, hid, hdraft⟩ := huploads u hu
      obtain ⟨f, hf, hfid, hfdraft⟩ := hs.uploads u₀ hu₀
      exact ⟨f, hfiled ▸ hf, hfid.trans hid, hfdraft.trans hdraft⟩
    · rw [hfiled, henqueued]
      exact hs.named
  have hrows : ∀ s' : Device, s'.filed = w.store.filed → s'.enqueued = w.store.enqueued →
      (∀ u ∈ s'.uploads, u ∈ w.store.uploads) → Filing s' ∧ w.store.filed <+: s'.filed :=
    fun s' hfiled henqueued huploads => hsame s' hfiled henqueued
      fun u hu => ⟨u, huploads u hu, rfl, rfl⟩
  cases wr with
  | enqueue action =>
      obtain ⟨huploads, hfiled, henqueued⟩ := addAction_uploads h
      refine ⟨⟨hfiled ▸ hs.nodup, fun u hu => ?_, fun e he x hpayload => ?_⟩,
        hfiled ▸ List.prefix_refl _⟩
      · rw [hfiled]
        exact hs.uploads u (huploads ▸ hu)
      · rw [hfiled]
        rw [henqueued, List.mem_append] at he
        rcases he with he | he
        · exact hs.named e he x hpayload
        · obtain rfl := List.mem_singleton.mp he
          exact hwarrant.2.2 x hpayload
  | putPendingUploadWithAction upload action =>
      obtain ⟨hfresh, huploads, hfiled, henqueued, -⟩ := putPending_ok h
      refine ⟨⟨?_, fun u hu => ?_, fun e he x hpayload => ?_⟩, hfiled ▸ List.prefix_append _ _⟩
      · rw [hfiled, List.map_append, List.nodup_append]
        refine ⟨hs.nodup, List.nodup_singleton _, fun x hx y hy => ?_⟩
        obtain rfl := List.mem_singleton.mp hy
        rintro rfl
        exact hfresh hx
      · rw [hfiled]
        rw [huploads] at hu
        rcases Table.mem_put.mp hu with ⟨hmem, -⟩ | rfl
        · obtain ⟨f, hf, hsame⟩ := hs.uploads u hmem
          exact ⟨f, List.mem_append_left _ hf, hsame⟩
        · exact ⟨u, List.mem_append_right _ (List.mem_singleton_self u), rfl, rfl⟩
      · rw [hfiled, List.map_append, List.mem_append]
        rw [henqueued, List.mem_append] at he
        rcases he with he | he
        · exact .inl (hs.named e he x hpayload)
        · obtain rfl := List.mem_singleton.mp he
          obtain rfl : upload.localId = x := by simpa [hwarrant.2.2] using hpayload
          exact .inr (List.mem_singleton_self _)
  | updateUpload localId patch =>
      obtain rfl := Except.ok.inj h
      refine hsame _ rfl rfl fun u hu => ?_
      obtain ⟨u₀, hu₀, rfl⟩ := List.mem_map.mp hu
      refine ⟨u₀, hu₀, ?_⟩
      split <;> exact ⟨rfl, rfl⟩
  | deleteUpload localId | pruneUploads localIds =>
      obtain rfl := Except.ok.inj h
      exact hrows _ rfl rfl fun u hu => (Table.mem_delete.mp hu).1
  | updateAction _ _ | deleteAction _ | pruneActions _ | putLocalDraft _ | pruneDrafts _
  | serverGeneration _ | restore _ | lastSyncedAt _ | signInRequired _ =>
      obtain rfl := Except.ok.inj h
      exact hrows _ rfl rfl fun u hu => hu

variable (fails) in
/-- A warranted statement leaves nothing off the record. -/
theorem Recorded.write {wr : Write} {s' : Device} (hw : Recorded w) (hwarrant : Warranted i wr w)
    (h : wr.exec w.store = .ok s') :
    Recorded (Config.committed (offlineSystem fails) w i (some (.write wr)) s') ∧
      Grows w (Config.committed (offlineSystem fails) w i (some (.write wr)) s') := by
  obtain ⟨hfrozen, hgrow⟩ := Write.exec_frozen hw.frozen hwarrant.work h
  obtain ⟨hsynced, hacknowledged, hconflicts⟩ :=
    Journal.observe_grows i (some (.write wr)) w.store w.outside
  obtain ⟨hfiling, hfiled⟩ := hw.filing.write hwarrant h
  refine ⟨⟨hfrozen, hfiling, fun a ha hstate => ?_, fun u hu hdone => ?_⟩, hgrow, hfiled, hsynced,
    hacknowledged, hconflicts ▸ List.prefix_refl _⟩
  · have hold : a ∈ w.store.queue → a.localId ∈
        (w.outside.observe i (some (.write wr)) w.store).synced :=
      fun hmem => hsynced.subset (hw.synced a hmem hstate)
    cases wr with
    | enqueue action =>
        rcases addAction_rows h ha with hmem | rfl
        · exact hold hmem
        · rw [hwarrant.1] at hstate
          cases hstate
    | putPendingUploadWithAction upload action =>
        obtain ⟨-, -, -, -, hrows⟩ := putPending_ok h
        rcases hrows a ha with hmem | rfl
        · exact hold hmem
        · rw [hwarrant.1] at hstate
          cases hstate
    | updateAction localId patch =>
        obtain rfl := Except.ok.inj h
        obtain ⟨a₀, ha₀, rfl⟩ := List.mem_map.mp ha
        by_cases hid : a₀.localId = localId
        · subst hid
          have hpatched : (patch.apply a₀).state = .synced := by simpa using hstate
          cases hpatch : patch.state with
          | none =>
              refine hsynced.subset ?_
              simpa using hw.synced a₀ ha₀ (by simpa [ActionPatch.apply, hpatch] using hpatched)
          | some state =>
              obtain rfl : state = .synced := by simpa [ActionPatch.apply, hpatch] using hpatched
              simp [Config.committed, offlineSystem, Journal.observe, Journal.afterWrite, hpatch]
        · have hrow : (if a₀.localId == localId then patch.apply a₀ else a₀) = a₀ := by
            simp [hid]
          rw [hrow] at hstate ⊢
          exact hsynced.subset (hw.synced a₀ ha₀ hstate)
    | deleteAction localId =>
        obtain rfl := Except.ok.inj h
        exact hold (Table.mem_delete.mp ha).1
    | pruneActions localIds =>
        obtain rfl := Except.ok.inj h
        exact hold (Table.mem_delete.mp ha).1
    | putLocalDraft _ | pruneDrafts _ | updateUpload _ _ | deleteUpload _ | pruneUploads _
    | serverGeneration _ | restore _ | lastSyncedAt _ | signInRequired _ =>
        obtain rfl := Except.ok.inj h
        exact hold ha
  · have hold : u ∈ w.store.uploads → u.localId ∈
        (w.outside.observe i (some (.write wr)) w.store).acknowledged :=
      fun hmem => hacknowledged.subset (hw.acknowledged u hmem hdone)
    cases wr with
    | enqueue action =>
        have hmem : u ∈ w.store.uploads := (addAction_uploads h).1 ▸ hu
        exact hold hmem
    | putPendingUploadWithAction upload action =>
        obtain ⟨-, huploads, -⟩ := putPending_ok h
        have hmem : u ∈ w.store.uploads.put upload := huploads ▸ hu
        rcases Table.mem_put.mp hmem with ⟨hmem, -⟩ | rfl
        · exact hold hmem
        · simp only [Config.committed, offlineSystem, Journal.observe, Journal.afterWrite]
          rw [if_pos hdone]
          exact List.mem_append_right _ (List.mem_singleton_self _)
    | updateUpload localId patch =>
        obtain rfl := Except.ok.inj h
        obtain ⟨u₀, hu₀, rfl⟩ := List.mem_map.mp hu
        by_cases hid : u₀.localId = localId
        · subst hid
          have hpatched : (patch.apply u₀).serverId ≠ none ∨ (patch.apply u₀).attachedAt ≠ none := by
            simpa using hdone
          by_cases hserver : patch.serverId = none
          · refine hacknowledged.subset ?_
            by_cases hattached : patch.attachedAt = none
            · simpa using hw.acknowledged u₀ hu₀
                (by simpa [UploadPatch.apply, hserver, hattached] using hpatched)
            · simpa using hwarrant hserver hattached
          · simp [Config.committed, offlineSystem, Journal.observe, Journal.afterWrite, hserver]
        · have hrow : (if u₀.localId == localId then patch.apply u₀ else u₀) = u₀ := by
            simp [hid]
          rw [hrow] at hdone ⊢
          exact hacknowledged.subset (hw.acknowledged u₀ hu₀ hdone)
    | deleteUpload localId =>
        obtain rfl := Except.ok.inj h
        exact hold (Table.mem_delete.mp hu).1
    | pruneUploads localIds =>
        obtain rfl := Except.ok.inj h
        exact hold (Table.mem_delete.mp hu).1
    | updateAction _ _ | deleteAction _ | pruneActions _ | putLocalDraft _ | pruneDrafts _
    | serverGeneration _ | restore _ | lastSyncedAt _ | signInRequired _ =>
        obtain rfl := Except.ok.inj h
        exact hold hu

/-- A worker that is gone leaves the records alone. -/
theorem Journal.endPass_settled : o.SameSettled (o.endPass i) :=
  ⟨rfl, rfl, rfl, rfl, List.prefix_refl _⟩

/-- What the workers of a device rely on and what they ensure. -/
def offlineDiscipline (fails : Bool) : Discipline (offlineSystem fails) where
  inv := Recorded
  rely i w w' := w'.outside.passOf i = w.outside.passOf i ∧ Grows w w'
  assumes := .free
  ensures := ⟨Described, fun i c w _ => Asked i c w⟩
  rely_refl _ _ := ⟨rfl, .refl⟩
  rely_trans _ _ _ _ h h' := ⟨h'.1.trans h.1, h.2.trans h'.2⟩
  ensures_read _ _ _ := rfl
  inv_tick _ _ _ hw ht := hw.settled (ServerStep.advance_settled ht)
  rely_tick _ _ _ _ _ h := ⟨Journal.passOf_congr (ServerStep.advance_pass h),
    (ServerStep.advance_settled h).grows⟩
  inv_retire _ _ hw := hw.settled Journal.endPass_settled
  rely_retire _ _ _ _ hj := ⟨Journal.passOf_endPass hj, Journal.endPass_settled.grows⟩

end MailHub.Offline
