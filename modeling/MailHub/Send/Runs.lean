import MailHub.Send.Operations

/-!
# What every run of the mail services keeps

For any number of processes and calls in any order, with crashes and faults between any two of
their steps: a row is submitted at most once, as it was frozen, and never returns to the queue; a
draft is locked by exactly the unresolved send of its own and is then what the send froze.
-/

namespace MailHub

open Relational Interleaving

variable {libs : Libraries} {c₀ c c' : Config mailSignature MailLog}

/-! ## Runs -/

/-- Runs without any condition keep the part of the discipline that needs none. -/
theorem run_sound (h₀ : MailStart c₀) (h : Reaches (mailSystem libs) .free c₀ c) :
    c.Sound (mailDiscipline libs False) :=
  mail_sound h₀ (h.mono (fun _ _ _ _ _ => False.elim) fun _ _ _ _ => id)

/-- What evolves, evolves between any two moments of a run. -/
theorem run_evolves (h₀ : MailStart c₀) (h : Reaches (mailSystem libs) .free c₀ c)
    (h' : Reaches (mailSystem libs) .free c c') : Evolves c.world.store c'.world.store := by
  have hrun : Reaches (mailSystem libs) (mailDiscipline libs False).assumes c c' :=
    h'.mono (fun _ _ _ _ _ => False.elim) fun _ _ _ _ => id
  exact hrun.related (run_sound h₀ h) (fun op _ w => (quiet_run op).safe w trivial) .refl
    (fun _ _ _ => .trans) fun _ _ _ _ hens => hens.1

/-! ## A sample -/

/-- Libraries that are simple enough to evaluate. -/
def sampleLibraries : Libraries where
  sha256Hex := fun bytes => if bytes.length ≤ 50 then "short" else "long"
  composeMime := fun _ => .ok []
  simpleParser := fun _ => .ok
    { messageId := some "<11@b.cc>", inReplyTo := none, referenceIds := [], sender := none,
      replyTo := none, recipients := none, subject := none, sentAt := none, textPlain := none,
      html := none, attachments := [] }
  renderMarkdownHtml := id
  extractReplyQuote := fun _ _ => ""

/-- Answers in which everything works: the clock and the identifiers give `n`, the server accepts
the submission and refuses the append. -/
def sampleReply (n : ℕ) : (c : MailCall) → Except Failure c.Answer
  | .now | .generateId | .openSentCopy _ => .ok n
  | .storagePut .. => .ok ⟨"short", 0⟩
  | .storageGet _ => .ok []
  | .storageStat _ => .ok (some 0)
  | .storageVerify .. => .ok true
  | .resolveCredentials _ => .ok ⟨"smtp.b.cc", 465, "tls", "a", "b"⟩
  | .submit .. => .ok ⟨.accepted, none, none, [], none⟩
  | .select .. => .ok ⟨1, 1⟩
  | .searchByMessageId .. => .ok []
  | .fetchOriginal .. => .ok none
  | .appendMessage .. => .ok .rejected
  | .logout _ => .ok ()
  | .fetchFlags _ uids => .ok (uids.map fun uid => ⟨⟨true, false⟩, uid, none⟩)
  | .revalidate _ => .ok ⟨1, 1⟩
  | .applyAction _ item => .ok (.confirmed item.remote none)

/-- A process with every port. -/
def sampleProcess : Process := ⟨some 1, true, true⟩

/-- One account with a Sent folder and an upload, and no draft. -/
def sampleDatabase : Database :=
  { Database.empty with
    serviceState := some ⟨1, .ready⟩
    accounts := ⟨[⟨1, [⟨⟨"a@b.cc", none⟩, true⟩], true⟩], by decide⟩
    folders := ⟨[⟨5, 1, "Sent", some .sent, none, 0, none, none, false⟩], by decide⟩
    uploads := ⟨[⟨7, 1, "notes.txt", "text/plain", 0, "uploads/7.bin", "short", 0⟩], by decide⟩ }

/-- The sample before any call. -/
def sampleStart : Config mailSignature MailLog := ⟨⟨sampleDatabase, .empty⟩, []⟩

theorem sampleStart_start : MailStart sampleStart := ⟨rfl, rfl, rfl, rfl, rfl, rfl⟩

/-- Worker 0 creates draft 10, and worker 1 queues it as row 12. -/
def sampleQueue : List (Event (mailSystem sampleLibraries)) :=
  [.spawn (.createDraft sampleProcess (some 1)
      ⟨1, none, some { «to» := [⟨"c@d.ee", none⟩] }, none, none⟩),
    .commit 0, .commit 0, .answer 0 (sampleReply 10), .answer 0 (sampleReply 0), .commit 0,
    .spawn (.queueSend sampleProcess (some 1) ⟨10, "key", 1⟩),
    .commit 1, .commit 1, .commit 1, .commit 1, .commit 1, .answer 1 (sampleReply 11),
    .answer 1 (sampleReply 0), .answer 1 (sampleReply 12), .answer 1 (sampleReply 0),
    .answer 1 (sampleReply 0), .commit 1]

/-- Worker 2 submits row 12, and the server accepts it. -/
def sampleAccept : List (Event (mailSystem sampleLibraries)) :=
  [.spawn (.executeOutbound sampleProcess 12), .commit 2, .commit 2, .answer 2 (sampleReply 0),
    .commit 2, .answer 2 (sampleReply 0), .answer 2 (sampleReply 0), .answer 2 (sampleReply 0),
    .answer 2 (sampleReply 13), .answer 2 (sampleReply 0), .commit 2]

/-! ## Submissions -/

/-- What a moment of a run promises about submissions. -/
structure SubmissionsSafe (libs : Libraries) (c : Config mailSignature MailLog) : Prop where
  /-- Each row was submitted at most once. -/
  once : ∀ o, (c.world.outside.submissions.filter fun s => s.outboundId == o).length ≤ 1
  /-- What was submitted hashes to the stored hash of its row, under the row's envelope. -/
  faithful : ∀ s ∈ c.world.outside.submissions, s.Faithful libs c.world.store
  /-- Rows stay with what they froze, and none that left the queue returns to it. -/
  settled : ∀ c', Reaches (mailSystem libs) .free c c' → ∀ o row,
    c.world.store.outboundMessages.find? o = some row →
      ∃ row', c'.world.store.outboundMessages.find? o = some row' ∧
        row'.toOutboundSnapshot = row.toOutboundSnapshot ∧
        (row.status ≠ .queued → row'.status ≠ .queued)

theorem submissions_safe (h₀ : MailStart c₀) (h : Reaches (mailSystem libs) .free c₀ c) :
    SubmissionsSafe libs c := by
  have hinv := (run_sound h₀ h).inv
  refine ⟨fun o => ?_, hinv.faithful, fun c' h' o row hrow => ?_⟩
  · have hcount : (c.world.outside.submissions.map (·.outboundId)).count o ≤ 1 :=
      List.nodup_iff_count_le_one.mp hinv.once o
    rw [List.count_eq_countP, List.countP_map, List.countP_eq_length_filter] at hcount
    exact hcount
  · obtain ⟨row', hrow', hs, hq⟩ := (run_evolves h₀ h h').row o row hrow
    exact ⟨row', hrow', hs, fun hne hq' => hne (hq hq')⟩

/-- The sample submits its row once, and what holds of every run holds of it. -/
theorem submissions_safe_sample : ∃ c,
    sampleStart.run (mailSystem sampleLibraries) (sampleQueue ++ sampleAccept) = some c ∧
      c.world.outside.submissions.map (·.outboundId) = [12] ∧
      SubmissionsSafe sampleLibraries c := by
  have h : ((sampleStart.run (mailSystem sampleLibraries) (sampleQueue ++ sampleAccept)).map
      fun c => c.world.outside.submissions.map (·.outboundId)) = some [12] := by decide +kernel
  obtain ⟨c, hrun, hsubmitted⟩ := Option.map_eq_some_iff.mp h
  exact ⟨c, hrun, hsubmitted, submissions_safe sampleStart_start (.of_run hrun)⟩

/-! ## Locks -/

/-- An edit of one draft. -/
inductive DraftEdit
  | update (input : UpdateDraftInput) (now : Time)
  | delete (now : Time)
  | attach (uploadId : Uuid)
  | detach (uploadId : Uuid)

/-- What the transaction of an edit returns. -/
def DraftEdit.Result : DraftEdit → Type
  | update .. => DraftRecord
  | delete _ => Unit
  | attach _ => Upload × ℕ
  | detach _ => Unit

/-- The transaction of an edit. -/
def DraftEdit.commit (draftId : Uuid) : (edit : DraftEdit) → Tx edit.Result
  | update input now => commitDraftUpdate draftId input now
  | delete now => commitDraftDeletion draftId now
  | attach uploadId => commitAttachment draftId uploadId
  | detach uploadId => commitDetachment draftId uploadId

/-- What a moment of a run promises about draft locks. -/
structure LocksSafe (libs : Libraries) (c : Config mailSignature MailLog) : Prop where
  /-- A draft is locked by exactly the unresolved send of its own. -/
  locked_iff : ∀ d draft o, c.world.store.drafts.find? d = some draft →
    (draft.lockedBySend = some o ↔ ∃ row, c.world.store.outboundMessages.find? o = some row ∧
      row.draftId = some d ∧
        (row.status = .queued ∨ row.status = .sending ∨ row.status = .outcomeUnknown))
  /-- A locked draft and its links are what the send froze. -/
  frozen : ∀ d draft o row, c.world.store.drafts.find? d = some draft →
    draft.lockedBySend = some o → c.world.store.outboundMessages.find? o = some row →
      draft.content = row.content ∧
        linkPairs (draftLinks d c.world.store) = frozenPairs o c.world.store
  /-- What a send froze stays as it is. -/
  kept : ∀ c', Reaches (mailSystem libs) .free c c' → ∀ o row,
    c.world.store.outboundMessages.find? o = some row →
      frozenPairs o c'.world.store = frozenPairs o c.world.store ∧
        ∃ row', c'.world.store.outboundMessages.find? o = some row' ∧ row'.content = row.content
  /-- Every edit of a locked draft fails and leaves the database alone. -/
  rejected : ∀ d draft, c.world.store.drafts.find? d = some draft → draft.lockedBySend ≠ none →
    ∀ edit : DraftEdit, (edit.commit d).run c.world.store = .error draftLocked ∧
      ∀ i tag k c', c.workers[i]? = some (.atomic tag (edit.commit d).run k) →
        c.fire (mailSystem libs) (.commit i) = some c' → c'.world.store = c.world.store

/-- Every edit of a live, locked draft fails. -/
theorem edit_rejected {db : Database} {d : Uuid} {draft : Draft}
    (hd : db.drafts.find? d = some draft) (hlive : draft.deletedAt = none)
    (hlocked : draft.lockedBySend ≠ none) (edit : DraftEdit) :
    (edit.commit d).run db = .error draftLocked := by
  have hlock : (lockEditableDraft d).run db = .error draftLocked := by
    simp [lockEditableDraft, lockDraftRow, hd, hlive, hlocked]
  cases edit with
  | update input now =>
      have h : (commitDraftUpdate d input now).run db = .error draftLocked := by
        simp [commitDraftUpdate, hlock]
      exact h
  | delete now =>
      have h : (commitDraftDeletion d now).run db = .error draftLocked := by
        simp [commitDraftDeletion, hlock]
      exact h
  | attach uploadId =>
      have h : (commitAttachment d uploadId).run db = .error draftLocked := by
        simp [commitAttachment, hlock]
      exact h
  | detach uploadId =>
      have h : (commitDetachment d uploadId).run db = .error draftLocked := by
        simp [commitDetachment, hlock]
      exact h

theorem locks_safe (h₀ : MailStart c₀) (h : Reaches (mailSystem libs) .free c₀ c) :
    LocksSafe libs c := by
  have hc := (run_sound h₀ h).inv.consistent
  refine ⟨fun d draft o hd => ?_, fun d draft o row hd hl hrow => ?_, fun c' h' o row hrow => ?_,
    fun d draft hd hl edit => ?_⟩
  · rw [hc.locked_iff d draft o hd]
    refine exists_congr fun row => and_congr_right fun _ => and_congr_right fun _ => ?_
    cases row.status <;> simp [OutboundStatus.isUnresolved]
  · have hfrozen := hc.frozen d draft o row hd hl hrow
    have hid : draft.id = d := Table.key_of_find? hd
    have hkey : row.id = o := Table.key_of_find? hrow
    exact ⟨hfrozen.content, by rw [← hid, ← hkey]; exact hfrozen.links⟩
  · have he := run_evolves h₀ h h'
    obtain ⟨row', hrow', hs, -⟩ := he.row o row hrow
    exact ⟨he.links o row hrow, row', hrow', by rw [hs]⟩
  · obtain ⟨o, hlock⟩ := Option.ne_none_iff_exists'.mp hl
    obtain ⟨row, hrow, -⟩ := hc.row_of_locked hd hlock
    have hlive := (hc.frozen d draft o row hd hlock hrow).live
    have hrun := edit_rejected hd hlive hl edit
    exact ⟨hrun, fun i tag k c' hp hfire => Config.fire_error hp hrun hfire⟩

/-- The sample locks its draft, and what holds of every run holds of it. -/
theorem locks_safe_sample : ∃ c,
    sampleStart.run (mailSystem sampleLibraries) sampleQueue = some c ∧
      c.world.store.drafts.rows.map (·.lockedBySend) = [some 12] ∧
      LocksSafe sampleLibraries c := by
  have h : ((sampleStart.run (mailSystem sampleLibraries) sampleQueue).map
      fun c => c.world.store.drafts.rows.map (·.lockedBySend)) = some [some 12] := by
    decide +kernel
  obtain ⟨c, hrun, hlocked⟩ := Option.map_eq_some_iff.mp h
  exact ⟨c, hrun, hlocked, locks_safe sampleStart_start (.of_run hrun)⟩

end MailHub
