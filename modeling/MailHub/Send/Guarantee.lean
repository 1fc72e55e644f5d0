import MailHub.Send.System

/-!
# What every worker guarantees

The discipline of the mail services: the invariant of database and log, what a worker relies on
while others run, and what each commit ensures. The append claims are covered only for runs in
which no row is claimed while another live worker is still at an attempt on it; everything else
holds in every run.
-/

namespace MailHub

open Relational Interleaving

/-- Database and log at one moment of a run. -/
abbrev MailWorld := World mailSignature MailLog

variable {libs : Libraries} {fenced : Prop}

/-! ## The invariant -/

/-- A submission carries the frozen bytes and the frozen envelope of its row. -/
def Submission.Faithful (libs : Libraries) (db : Database) (s : Submission) : Prop :=
  ∃ row, db.outboundMessages.find? s.outboundId = some row ∧
    libs.sha256Hex s.request.raw = row.mimeSha256 ∧
    s.request.envelope = ⟨row.envelopeSender, row.envelopeRecipients⟩

/-- The invariant of database and log. -/
structure MailInv (libs : Libraries) (fenced : Prop) (w : MailWorld) : Prop where
  /-- Drafts and sends agree. -/
  consistent : Consistent libs w.store
  /-- No row is submitted twice. -/
  once : (w.outside.submissions.map (·.outboundId)).Nodup
  /-- A submission was made by the worker that took its row. -/
  owned : ∀ s ∈ w.outside.submissions, w.outside.sendClaimant s.outboundId = some s.worker
  /-- A submission carries what its row froze. -/
  faithful : ∀ s ∈ w.outside.submissions, s.Faithful libs w.store
  /-- A row that was taken is not in the queue. -/
  taken : ∀ o i, w.outside.sendClaimant o = some i →
    ∃ row, w.store.outboundMessages.find? o = some row ∧ row.status ≠ .queued
  /-- A worker at an attempt on a claimed row holds the claim. -/
  attempt : fenced → ∀ i o, (i, o) ∈ w.outside.attempts → isAppending o w.store →
    w.outside.copyClaimant o = some i

/-- What worker `i` relies on. -/
structure MailRely (i : ℕ) (w w' : MailWorld) : Prop where
  /-- Rows and drafts evolve. -/
  evolves : Evolves w.store w'.store
  /-- A row that the worker took stays its own. -/
  claim : ∀ o, w.outside.sendClaimant o = some i → w'.outside.sendClaimant o = some i
  /-- Nobody else submits a row that the worker took. -/
  submission : ∀ o, w.outside.sendClaimant o = some i →
    ∀ s ∈ w'.outside.submissions, s.outboundId = o → s ∈ w.outside.submissions
  /-- The worker's attempts stay its own. -/
  attempt : ∀ o, (i, o) ∈ w.outside.attempts → (i, o) ∈ w'.outside.attempts
  /-- Nobody else fails a row that the worker took. -/
  failure : ∀ o, w.outside.sendClaimant o = some i → isFailed o w'.store → isFailed o w.store

theorem MailRely.refl (i : ℕ) (w : MailWorld) : MailRely i w w :=
  ⟨.refl _, fun _ => id, fun _ _ _ hs _ => hs, fun _ => id, fun _ _ => id⟩

theorem MailRely.trans {i : ℕ} {w₁ w₂ w₃ : MailWorld} (h₁ : MailRely i w₁ w₂)
    (h₂ : MailRely i w₂ w₃) : MailRely i w₁ w₃ where
  evolves := h₁.evolves.trans h₂.evolves
  claim o hc := h₂.claim o (h₁.claim o hc)
  submission o hc s hs he :=
    h₁.submission o hc s (h₂.submission o (h₁.claim o hc) s hs he) he
  attempt o ha := h₂.attempt o (h₁.attempt o ha)
  failure o hc hf := h₁.failure o hc (h₂.failure o (h₁.claim o hc) hf)

/-! ## Policies -/

/-- The Sent copy of a row changes hands only when no other live worker is at an attempt on it. -/
def Unattended (i : ℕ) (tag : Option MailTag) (w w' : MailWorld) : Prop :=
  ∀ o, tag = some (.claimSentCopy o) → isAppending o w.store = false →
    isAppending o w'.store = true → ∀ j, (j, o) ∈ w.outside.attempts → j = i

/-- A conclusion that has an effect on a row concludes the claim that its own worker holds, or
one that nobody holds when it was not preceded by a claim. -/
structure Fenced (i : ℕ) (tag : Option MailTag) (w w' : MailWorld) : Prop where
  claimed : ∀ o, tag = some (.concludeSentCopy o) → ∀ o',
    w'.store.outboundMessages.find? o' ≠ w.store.outboundMessages.find? o' →
      o' = o ∧ isAppending o w.store = true ∧ w.outside.copyClaimant o = some i
  unclaimed : ∀ o, tag = some (.recordSentCopy o) → ∀ o',
    w'.store.outboundMessages.find? o' ≠ w.store.outboundMessages.find? o' →
      isAppending o' w.store = false

/-- A commit records what it owes, unless it records an unclassified outcome of a row that another
worker took out of `sending` before. -/
def Accounted (tag : Option MailTag) (w w' : MailWorld) : Prop :=
  Audited w.store w'.store ∨
    ∃ o, tag = some (.recordUnknown o) ∧ isSending o w.store = false

/-- The discipline of the mail services. -/
def mailDiscipline (libs : Libraries) (fenced : Prop) : Discipline (mailSystem libs) where
  inv := MailInv libs fenced
  rely := MailRely
  assumes := ⟨fun i tag w w' => fenced → Unattended i tag w w', fun _ _ _ _ => True⟩
  ensures :=
    ⟨fun i tag w w' => Evolves w.store w'.store ∧ Accounted tag w w' ∧
        (fenced → Fenced i tag w w'),
      fun _ _ _ _ => True⟩
  rely_refl := MailRely.refl
  rely_trans := fun _ _ _ _ => MailRely.trans
  ensures_read := fun _ w _ => ⟨.refl _, .inl fun o => by simp,
    fun _ => ⟨fun _ h => by simp at h, fun _ h => by simp at h⟩⟩
  inv_tick := fun _ t => nomatch t
  rely_tick := fun _ _ t => nomatch t
  inv_retire := fun w i h => ⟨h.consistent, h.once, h.owned, h.faithful, h.taken,
    fun hf j o hm => h.attempt hf j o (List.mem_of_mem_filter hm)⟩
  rely_retire := fun w i j _ hne => ⟨.refl _, fun _ => id, fun _ _ _ hs _ => hs, fun o hm =>
    List.mem_filter.mpr ⟨hm, by simpa using hne⟩, fun _ _ => id⟩

/-! ## Steps -/

/-- The frozen part of a submitted row stays what it was. -/
theorem Submission.Faithful.evolves {db db' : Database} {s : Submission}
    (h : s.Faithful libs db) (he : Evolves db db') : s.Faithful libs db' := by
  obtain ⟨row, hrow, hraw, henv⟩ := h
  obtain ⟨row', hrow', hs, -⟩ := he.row _ row hrow
  exact ⟨row', hrow', by rw [hraw, hs], by rw [henv, hs]⟩

theorem isAppending_iff {o : Uuid} {db : Database} : isAppending o db = true ↔
    ∃ row, db.outboundMessages.find? o = some row ∧ row.sentCopyStatus = .appending := by
  simp [isAppending, Option.any_eq_true]

theorem isQueued_iff {o : Uuid} {db : Database} : isQueued o db = true ↔
    ∃ row, db.outboundMessages.find? o = some row ∧ row.status = .queued := by
  simp [isQueued, Option.any_eq_true]

/-- An append claim that is there now was there before. -/
theorem isAppending_of_noClaim {db db' : Database} (h : NoCopyClaim db db') {o : Uuid}
    (ha : isAppending o db' = true) : isAppending o db = true := by
  obtain ⟨row', hrow', hs'⟩ := isAppending_iff.mp ha
  exact isAppending_iff.mpr (h o row' hrow' hs')

theorem isSending_iff {o : Uuid} {db : Database} : isSending o db = true ↔
    ∃ row, db.outboundMessages.find? o = some row ∧ row.status = .sending := by
  simp [isSending, Option.any_eq_true]

theorem isFailed_iff {o : Uuid} {db : Database} : isFailed o db = true ↔
    ∃ row, db.outboundMessages.find? o = some row ∧ row.status = .failed := by
  simp [isFailed, Option.any_eq_true]

/-- A row that has failed now had failed before. -/
theorem isFailed_of_noFailure {db db' : Database} (h : NoFailure db db') {o : Uuid}
    (hf : isFailed o db' = true) : isFailed o db = true := by
  obtain ⟨row', hrow', hs'⟩ := isFailed_iff.mp hf
  exact isFailed_iff.mpr (h o row' hrow' hs')

variable {i : ℕ} {tag : Option MailTag} {w : MailWorld} {db' : Database}

/-- A row that was taken stays out of the queue. -/
theorem MailInv.taken_evolves (h : MailInv libs fenced w) (he : Evolves w.store db') {o : Uuid}
    {j : ℕ} (ho : w.outside.sendClaimant o = some j) :
    ∃ row, db'.outboundMessages.find? o = some row ∧ row.status ≠ .queued := by
  obtain ⟨row, hrow, hs⟩ := h.taken o j ho
  obtain ⟨row', hrow', -, hq⟩ := he.row o row hrow
  exact ⟨row', hrow', fun hq' => hs (hq hq')⟩

/-- The rows that a step of worker `i` fails are not those that another worker took. -/
def FailsOwn (i : ℕ) (w : MailWorld) (db' : Database) : Prop :=
  ∀ j, j ≠ i → ∀ o, w.outside.sendClaimant o = some j → isFailed o db' → isFailed o w.store

theorem NoFailure.failsOwn (h : NoFailure w.store db') : FailsOwn i w db' :=
  fun _ _ _ _ => isFailed_of_noFailure h

/-- A step that leaves the log alone, but for the worker's own attempts, keeps the discipline. -/
theorem keeps_of_log (hw : MailInv libs fenced w) (hs : MailStep libs w.store db')
    (hn : FailsOwn i w db') {attempts : List (ℕ × Uuid)} (hsub : ∀ a ∈ attempts, a ∈ w.outside.attempts)
    (hsup : ∀ j o, j ≠ i → (j, o) ∈ w.outside.attempts → (j, o) ∈ attempts) :
    (mailDiscipline libs fenced).Keeps i w ⟨db', { w.outside with attempts }⟩ := by
  refine ⟨⟨hs.consistent, hw.once, hw.owned, fun s hm => (hw.faithful s hm).evolves hs.evolves,
    fun o j ho => hw.taken_evolves hs.evolves ho, fun hf j o hm ha => ?_⟩, fun j hj => ?_⟩
  · exact hw.attempt hf j o (hsub _ hm) (isAppending_of_noClaim hs.noClaim ha)
  · exact ⟨hs.evolves, fun _ => id, fun _ _ _ hm _ => hm, fun o => hsup j o hj, hn j hj⟩

/-- A transaction that takes no claim keeps the discipline. -/
theorem keeps_of_step (hw : MailInv libs fenced w) (hs : MailStep libs w.store db')
    (hn : FailsOwn i w db') (hsend : ∀ o, tag ≠ some (.claimSend o)) (hcopy : ∀ o, tag ≠ some (.claimSentCopy o)) :
    (mailDiscipline libs fenced).Keeps i w
      (Config.committed (mailSystem libs) w i tag db') := by
  rcases tag with _ | tag
  · exact keeps_of_log hw hs hn (fun _ => id) fun _ _ _ => id
  cases tag with
  | claimSend o => exact absurd rfl (hsend o)
  | claimSentCopy o => exact absurd rfl (hcopy o)
  | concludeSentCopy o =>
      exact keeps_of_log hw hs hn (fun a ha => List.mem_of_mem_filter ha) fun j o' hj hm =>
        List.mem_filter.mpr ⟨hm, by simp [hj]⟩
  | recordSentCopy _ | recordUnknown _ | claimItem _ _ | reloadItems _ =>
      exact keeps_of_log hw hs hn (fun _ => id) fun _ _ _ => id

/-- What a transaction that takes no claim and concludes nothing ensures. -/
theorem ensures_of_step (he : Evolves w.store db') (ha : Audited w.store db') (hconclude : ∀ o,
    tag ≠ some (.concludeSentCopy o)) (hrecord : ∀ o, tag ≠ some (.recordSentCopy o)) :
    (mailDiscipline libs fenced).ensures.commit i tag w
      (Config.committed (mailSystem libs) w i tag db') :=
  ⟨he, .inl ha, fun _ => ⟨fun o h => absurd h (hconclude o), fun o h => absurd h (hrecord o)⟩⟩

/-! ## Requests and transactions of a worker -/

/-- The program keeps the discipline with nothing to know. -/
abbrev Quiet {α : Type} (libs : Libraries) (fenced : Prop) (i : ℕ) (p : MailProgram α) : Prop :=
  Preserves (mailDiscipline libs fenced) i (fun _ => True) p

variable {α : Type} {K : MailWorld → Prop}

/-- A request other than a submission changes nothing that anyone knows. -/
theorem preserves_ask {c : MailCall} (hK : Stable (mailDiscipline libs fenced) i K)
    (hc : ∀ log, MailLog.afterCall i log c = log) :
    Preserves (mailDiscipline libs fenced) i K (MailProgram.ask c) := by
  refine ⟨fun w hw => .request fun w' hr hi r o ho _ => ?_⟩
  obtain rfl : w'.outside = o := by simpa [mailSystem, hc] using ho
  exact ⟨⟨hi, fun j _ => .refl j w'⟩, trivial,
    (Preserves.ofExcept hK r).safe w' (hK w w' hr hi hw)⟩

/-- A transaction without a name keeps what is known when that outlasts what evolves. -/
theorem preserves_transact {t : Tx α} (hK : Stable (mailDiscipline libs fenced) i K)
    (hown : ∀ w db', Evolves w.store db' → K w → K ⟨db', w.outside⟩)
    (ht : ∀ w b db', K w → Consistent libs w.store → t.run w.store = .ok (b, db') →
      MailStep libs w.store db' ∧ Recorded w.store db') :
    Preserves (mailDiscipline libs fenced) i K (MailProgram.transact t) := by
  refine ⟨fun w hw => .transaction (fun w' hr hi b db' hrun _ => ?_)
    fun _ w' hr hi _ => hK w w' hr hi hw⟩
  have hw' := hK w w' hr hi hw
  obtain ⟨hs, hrec⟩ := ht w' b db' hw' hi.consistent hrun
  exact ⟨keeps_of_step hi hs hrec.noFailure.failsOwn (by simp) (by simp),
    ensures_of_step hs.evolves hrec.audited (by simp) (by simp),
    .pure fun w₂ hr₂ hi₂ => hK _ w₂ hr₂ hi₂ (hown w' db' hs.evolves hw')⟩

/-- A transaction without a name, from what it does to drafts and sends. -/
theorem quiet_transact {t : Tx α} (ht : ∀ db b db', Consistent libs db →
    t.run db = .ok (b, db') → MailStep libs db db')
    (hr : ∀ db b db', t.run db = .ok (b, db') → Recorded db db') :
    Quiet libs fenced i (MailProgram.transact t) :=
  preserves_transact .trivial (fun _ _ _ => id) fun w b db' _ hc hrun =>
    ⟨ht w.store b db' hc hrun, hr w.store b db' hrun⟩

/-! ### The claim of a queued row -/

/-- Worker `i` took the row and did not fail it. -/
structure Claimed (i : ℕ) (row : OutboundMessage) (w : MailWorld) : Prop where
  claim : w.outside.sendClaimant row.id = some i
  unfailed : isFailed row.id w.store = false

theorem stable_claimed (row : OutboundMessage) :
    Stable (mailDiscipline libs fenced) i (Claimed i row) := by
  intro w w' hr _ h
  refine ⟨hr.claim _ h.claim, ?_⟩
  by_contra hf
  have hbefore : isFailed row.id w.store = true := hr.failure _ h.claim (by simpa using hf)
  rw [h.unfailed] at hbefore
  exact Bool.noConfusion hbefore

/-- Worker `i` took the row, nobody submitted it, and the database still holds what it froze. -/
structure Owned (i : ℕ) (row : OutboundMessage) (w : MailWorld) : Prop
    extends Claimed i row w where
  fresh : ∀ s ∈ w.outside.submissions, s.outboundId ≠ row.id
  stored : ∃ row', w.store.outboundMessages.find? row.id = some row' ∧
    row'.toOutboundSnapshot = row.toOutboundSnapshot

theorem stable_owned (row : OutboundMessage) :
    Stable (mailDiscipline libs fenced) i (Owned i row) := by
  intro w w' hr hi h
  obtain ⟨row', hrow', hs'⟩ := h.stored
  obtain ⟨row₂, hrow₂, hs₂, -⟩ := hr.evolves.row _ row' hrow'
  exact ⟨stable_claimed row w w' hr hi h.toClaimed,
    fun s hm he => h.fresh s (hr.submission _ h.claim s hm he) he, row₂, hrow₂, hs₂.trans hs'⟩

/-- The world after the claim of a queued row. -/
theorem committed_claimSend (o : Uuid) :
    Config.committed (mailSystem libs) w i (some (.claimSend o)) db' =
      ⟨db', if isQueued o w.store && !isQueued o db' then
        { w.outside with sendClaimant := Function.update w.outside.sendClaimant o (some i) }
        else w.outside⟩ := rfl

/-- Taking a row from the queue keeps the discipline. -/
theorem keeps_of_claimSend {o : Uuid} (hw : MailInv libs fenced w)
    (hs : MailStep libs w.store db') (hn : NoFailure w.store db') :
    (mailDiscipline libs fenced).Keeps i w
      (Config.committed (mailSystem libs) w i (some (.claimSend o)) db') := by
  rw [committed_claimSend]
  by_cases heffect : (isQueued o w.store && !isQueued o db') = true
  · rw [if_pos heffect]
    obtain ⟨hqueued, hleft⟩ := Bool.and_eq_true_iff.mp heffect
    obtain ⟨before, hbefore, hstatus⟩ := isQueued_iff.mp hqueued
    -- a queued row was taken by nobody
    have hnone : ∀ o' j, w.outside.sendClaimant o' = some j → o' ≠ o := by
      rintro o' j ho rfl
      obtain ⟨row, hrow, hne⟩ := hw.taken o' j ho
      exact hne (Option.some.inj (hrow.symm.trans hbefore) ▸ hstatus)
    refine ⟨⟨hs.consistent, hw.once, fun s hm => ?_,
      fun s hm => (hw.faithful s hm).evolves hs.evolves, fun o' j ho => ?_, fun hf j o' hm ha => ?_⟩,
      fun j hj => ⟨hs.evolves, fun o' ho => ?_, fun _ _ _ hm _ => hm, fun _ => id,
        fun _ _ => isFailed_of_noFailure hn⟩⟩
    · exact (Function.update_of_ne (hnone _ _ (hw.owned s hm)) ..).trans (hw.owned s hm)
    · by_cases he : o' = o
      · subst he
        obtain ⟨row', hrow', -, -⟩ := hs.evolves.row o' before hbefore
        refine ⟨row', hrow', fun hq => ?_⟩
        simp [isQueued_iff.mpr ⟨row', hrow', hq⟩] at hleft
      · exact hw.taken_evolves hs.evolves (by simpa [Function.update_of_ne he] using ho)
    · exact hw.attempt hf j o' hm (isAppending_of_noClaim hs.noClaim ha)
    · exact (Function.update_of_ne (hnone _ _ ho) ..).trans ho
  · rw [if_neg heffect]
    exact keeps_of_log hw hs hn.failsOwn (fun _ => id) fun _ _ _ => id

/-- The worker that takes a row owns it. -/
theorem owned_of_claimSend {row : OutboundMessage} (hw : MailInv libs fenced w)
    (hc : SendClaimed w.store db' row) :
    Owned i row (Config.committed (mailSystem libs) w i (some (.claimSend row.id)) db') := by
  obtain ⟨before, hbefore, hstatus⟩ := hc.before
  have hqueued : isQueued row.id w.store = true := isQueued_iff.mpr ⟨before, hbefore, hstatus⟩
  have hleft : isQueued row.id db' = false := by simp [isQueued, hc.after, hc.status]
  have hunfailed : isFailed row.id db' = false := by simp [isFailed, hc.after, hc.status]
  rw [committed_claimSend, if_pos (by rw [hqueued, hleft]; rfl)]
  refine ⟨⟨Function.update_self .., hunfailed⟩, fun s hm he => ?_, row, hc.after, rfl⟩
  obtain ⟨row', hrow', hne⟩ := hw.taken _ _ (hw.owned s hm)
  rw [he, hbefore] at hrow'
  exact hne (Option.some.inj hrow' ▸ hstatus)

theorem safe_claimSend {outboundId : Uuid} {now : Time} :
    Safe (mailDiscipline libs fenced) i
      (Program.transaction (S := mailSignature) (some (.claimSend outboundId))
        (claimSend outboundId now)) w
      (fun claimed w' => ∀ row, claimed = some row → Owned i row w') fun _ _ => True := by
  refine .transaction (fun w' _ hi claimed db' hrun _ => ?_) fun _ _ _ _ _ => trivial
  obtain ⟨hs, hclaimed⟩ := claimSend_step hi.consistent hrun
  have hrec := claimSend_recorded hrun
  refine ⟨keeps_of_claimSend hi hs hrec.noFailure,
    ensures_of_step hs.evolves hrec.audited (by simp) (by simp),
    .pure fun w₂ hr hi₂ row hrow => ?_⟩
  obtain ⟨rfl, hc⟩ := hclaimed row hrow
  exact stable_owned row _ _ hr hi₂ (owned_of_claimSend hi hc)

/-- The worker that owns a row may submit it once, as it is frozen. -/
theorem safe_submit {row : OutboundMessage} {request : SmtpSubmitRequest}
    (hraw : libs.sha256Hex request.raw = row.mimeSha256)
    (henvelope : request.envelope = ⟨row.envelopeSender, row.envelopeRecipients⟩)
    (h : Owned i row w) :
    Safe (mailDiscipline libs fenced) i (MailProgram.submit row.id request) w
      (fun _ => Claimed i row) fun _ => Claimed i row := by
  refine .request fun w' hr hi r o ho _ => ?_
  obtain rfl : ({ w'.outside with
      submissions := w'.outside.submissions ++ [⟨i, row.id, request⟩] } : MailLog) = o := by
    simpa [mailSystem, MailLog.afterCall] using ho
  obtain ⟨⟨hclaim, hunfailed⟩, hfresh, row', hrow', hs'⟩ := stable_owned row _ _ hr hi h
  refine ⟨⟨⟨hi.consistent, ?_, fun s hm => ?_, fun s hm => ?_, hi.taken, hi.attempt⟩,
    fun j hj => ⟨.refl _, fun _ => id, fun o ho s hm he => ?_, fun _ => id, fun _ _ => id⟩⟩,
    trivial, (Preserves.ofExcept (stable_claimed row) r).safe _ ⟨hclaim, hunfailed⟩⟩
  · rw [List.map_append, List.map_singleton]
    refine List.nodup_append.mpr ⟨hi.once, List.nodup_singleton _, fun a ha b hb => ?_⟩
    obtain ⟨s, hm, rfl⟩ := List.mem_map.mp ha
    obtain rfl := List.mem_singleton.mp hb
    exact hfresh s hm
  · rcases List.mem_append.mp hm with hm | hm
    · exact hi.owned s hm
    · obtain rfl := List.mem_singleton.mp hm
      exact hclaim
  · rcases List.mem_append.mp hm with hm | hm
    · exact hi.faithful s hm
    · obtain rfl := List.mem_singleton.mp hm
      exact ⟨row', hrow', by rw [hraw, hs'], by rw [henvelope, hs']⟩
  · rcases List.mem_append.mp hm with hm | hm
    · exact hm
    · obtain rfl := List.mem_singleton.mp hm
      subst he
      exact absurd (Option.some.inj (ho.symm.trans hclaim)) hj

/-! ### The outcome of a submission -/

/-- The worker that took a row may fail it once. -/
theorem safe_recordFailure {row : OutboundMessage} {outcome : FailureOutcome}
    (h : Claimed i row w) :
    Safe (mailDiscipline libs fenced) i (recordFailure row outcome) w (fun _ _ => True)
      fun _ _ => True := by
  refine .transaction (fun w' hr hi updated db' hrun _ => ?_) fun _ _ _ _ _ => trivial
  obtain ⟨hclaim, hunfailed⟩ := stable_claimed row w w' hr hi h
  have hs := commitFailure_step hi.consistent hrun
  have haudited : Audited w'.store db' := by
    refine commitFailure_audited (fun r hfind hfailed => ?_) hrun
    have hf : isFailed row.id w'.store = true := isFailed_iff.mpr ⟨r, hfind, hfailed⟩
    rw [hunfailed] at hf
    exact Bool.noConfusion hf
  have hown : FailsOwn i w' db' := by
    intro j hj o ho hf
    by_cases he : o = row.id
    · subst he
      exact absurd (Option.some.inj (ho.symm.trans hclaim)) hj
    · rwa [isFailed, commitFailure_others hrun he] at hf
  exact ⟨keeps_of_step hi hs hown (by simp) (by simp),
    ensures_of_step hs.evolves haudited (by simp) (by simp), .pure fun _ _ _ => trivial⟩

/-- An unclassified outcome is recorded for a row that is being sent, or after it left. -/
theorem quiet_recordUnknown (row : OutboundMessage) (report : SmtpSubmitReport) :
    Quiet libs fenced i (recordUnknown row report) := by
  refine ⟨fun w _ => .transaction (fun w' _ hi updated db' hrun _ => ?_) fun _ _ _ _ _ => trivial⟩
  have hs := commitUnknown_step hi.consistent hrun
  refine ⟨keeps_of_step hi hs (commitUnknown_noFailure hrun).failsOwn (by simp) (by simp),
    ⟨hs.evolves, ?_, fun _ => ⟨by simp, by simp⟩⟩, .pure fun _ _ _ => trivial⟩
  cases hsending : isSending row.id w'.store with
  | true =>
      obtain ⟨r, hfind, hstatus⟩ := isSending_iff.mp hsending
      exact .inl (commitUnknown_audited hfind hstatus hrun)
  | false => exact .inr ⟨row.id, rfl, hsending⟩

/-! ### The claim of a Sent copy -/

/-- Worker `i` is at an append attempt on the row. -/
def Attempting (i : ℕ) (o : Uuid) (w : MailWorld) : Prop := (i, o) ∈ w.outside.attempts

theorem stable_attempting (o : Uuid) :
    Stable (mailDiscipline libs fenced) i (Attempting i o) :=
  fun _ _ hr _ h => hr.attempt o h

/-- The world after the claim of a Sent copy. -/
theorem committed_claimSentCopy (o : Uuid) :
    Config.committed (mailSystem libs) w i (some (.claimSentCopy o)) db' =
      ⟨db', if !isAppending o w.store && isAppending o db' then
        { w.outside with
          copyClaimant := Function.update w.outside.copyClaimant o (some i)
          attempts := (i, o) :: w.outside.attempts }
        else w.outside⟩ := rfl

/-- Taking the claim of a Sent copy keeps the discipline when nobody else is at the row. -/
theorem keeps_of_claimSentCopy {o : Uuid} (hw : MailInv libs fenced w)
    (hc : Consistent libs db') (he : Evolves w.store db') (hn : NoFailure w.store db')
    (hother : ∀ o', o' ≠ o →
      db'.outboundMessages.find? o' = w.store.outboundMessages.find? o')
    (ha : (mailDiscipline libs fenced).assumes.commit i (some (.claimSentCopy o)) w
      (Config.committed (mailSystem libs) w i (some (.claimSentCopy o)) db')) :
    (mailDiscipline libs fenced).Keeps i w
      (Config.committed (mailSystem libs) w i (some (.claimSentCopy o)) db') := by
  have hold : ∀ o', o' ≠ o → isAppending o' db' = isAppending o' w.store := fun o' hne => by
    rw [isAppending, isAppending, hother o' hne]
  rw [committed_claimSentCopy]
  by_cases heffect : (!isAppending o w.store && isAppending o db') = true
  · rw [if_pos heffect]
    obtain ⟨hbefore, hafter⟩ := Bool.and_eq_true_iff.mp heffect
    refine ⟨⟨hc, hw.once, hw.owned, fun s hm => (hw.faithful s hm).evolves he,
      fun o' j ho => hw.taken_evolves he ho, fun hf j o' hm happ => ?_⟩,
      fun j hj => ⟨he, fun _ => id, fun _ _ _ hm _ => hm, fun _ hm => List.mem_cons_of_mem _ hm,
        fun _ _ => isFailed_of_noFailure hn⟩⟩
    by_cases hne : o' = o
    · subst hne
      have hj : j = i := by
        rcases List.mem_cons.mp hm with heq | hm
        · exact (Prod.mk.inj heq).1
        · exact ha hf o' rfl (by simpa using hbefore) hafter j hm
      subst hj
      exact Function.update_self ..
    · have hm : (j, o') ∈ w.outside.attempts := by simpa [hne] using hm
      have happ : isAppending o' w.store = true := by rwa [← hold o' hne]
      exact (Function.update_of_ne hne ..).trans (hw.attempt hf j o' hm happ)
  · rw [if_neg heffect]
    refine ⟨⟨hc, hw.once, hw.owned, fun s hm => (hw.faithful s hm).evolves he,
      fun o' j ho => hw.taken_evolves he ho, fun hf j o' hm happ => ?_⟩,
      fun j hj => ⟨he, fun _ => id, fun _ _ _ hm _ => hm, fun _ => id,
        fun _ _ => isFailed_of_noFailure hn⟩⟩
    refine hw.attempt hf j o' hm ?_
    by_cases hne : o' = o
    · subst hne
      by_contra hn
      exact heffect (by simp [Bool.not_eq_true _ ▸ hn, happ])
    · rwa [← hold o' hne]

theorem safe_claimSentCopy {outboundId : Uuid} {now : Time} :
    Safe (mailDiscipline libs fenced) i
      (Program.transaction (S := mailSignature) (some (.claimSentCopy outboundId))
        (claimSentCopy outboundId now)) w
      (fun claimed w' => ∀ row, claimed = some row → Attempting i row.id w') fun _ _ => True := by
  refine .transaction (fun w' _ hi claimed db' hrun ha => ?_) fun _ _ _ _ _ => trivial
  obtain ⟨hc, he, hother, hclaimed⟩ := claimSentCopy_step hi.consistent hrun
  have hrec := claimSentCopy_recorded hrun
  refine ⟨keeps_of_claimSentCopy hi hc he hrec.noFailure hother ha,
    ensures_of_step he hrec.audited (by simp) (by simp),
    .pure fun w₂ hr hi₂ row hrow => ?_⟩
  obtain ⟨rfl, ⟨before, hbefore, hopen⟩, hafter, hs⟩ := hclaimed row hrow
  refine stable_attempting _ _ _ hr hi₂ ?_
  have hfree : isAppending row.id w'.store = false := by
    cases h : before.sentCopyStatus <;> simp_all [isAppending, SentCopyStatus.isOpen]
  have happ : isAppending row.id db' = true := isAppending_iff.mpr ⟨row, hafter, hs⟩
  rw [committed_claimSentCopy, if_pos (by rw [hfree, happ]; rfl)]
  exact List.mem_cons_self

/-- A worker at an attempt concludes its own claim. -/
theorem safe_conclude {row : OutboundMessage} {outcome : SentCopyOutcome}
    (h : Attempting i row.id w) :
    Safe (mailDiscipline libs fenced) i (concludeSentCopy row .claimed outcome) w
      (fun _ _ => True) fun _ => Attempting i row.id := by
  refine .transaction (fun w' hr hi after db' hrun _ => ?_) fun _ w' hr hi _ =>
    stable_attempting _ _ _ hr hi h
  obtain ⟨hs, heffect⟩ := commitSentCopy_step hi.consistent hrun
  have hrec := commitSentCopy_recorded hrun
  refine ⟨keeps_of_step hi hs hrec.noFailure.failsOwn (by simp) (by simp),
    ⟨hs.evolves, .inl hrec.audited, fun hf =>
    ⟨fun o ho o' hne => ?_, fun o ho => by simp at ho⟩⟩, .pure fun _ _ _ => trivial⟩
  obtain rfl : row.id = o := by simpa using ho
  obtain ⟨r, hr', hc⟩ := heffect o' hne
  obtain ⟨hin, happ⟩ := Bool.and_eq_true_iff.mp hc
  obtain rfl : o' = row.id := (Table.key_of_find? hr').symm.trans (inStatus_iff.mp hin).1
  have happ : isAppending row.id w'.store = true :=
    isAppending_iff.mpr ⟨r, hr', by simpa using happ⟩
  exact ⟨rfl, happ, hi.attempt hf i row.id (stable_attempting _ _ _ hr hi h) happ⟩

/-- Recording the end of a Sent copy that nobody claimed. -/
theorem quiet_record {row : OutboundMessage} {outcome : SentCopyOutcome} :
    Quiet libs fenced i (concludeSentCopy row .unclaimed outcome) := by
  refine ⟨fun w _ => .transaction (fun w' _ hi after db' hrun _ => ?_) fun _ _ _ _ _ => trivial⟩
  obtain ⟨hs, heffect⟩ := commitSentCopy_step hi.consistent hrun
  have hrec := commitSentCopy_recorded hrun
  refine ⟨keeps_of_step hi hs hrec.noFailure.failsOwn (by simp) (by simp),
    ⟨hs.evolves, .inl hrec.audited, fun _ =>
    ⟨fun o ho => by simp at ho, fun o _ o' hne => ?_⟩⟩, .pure fun _ _ _ => trivial⟩
  obtain ⟨r, hr', hc⟩ := heffect o' hne
  have hopen : r.sentCopyStatus.isOpen = true := (Bool.and_eq_true_iff.mp hc).2
  cases h : r.sentCopyStatus <;> simp_all [isAppending, SentCopyStatus.isOpen]

end MailHub
