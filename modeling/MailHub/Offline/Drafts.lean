import MailHub.Offline.Runs

/-!
# What an answer does to the drafts of the service

An answer leaves the drafts alone, locks one, or takes one edit. An edit of a replay is recorded
with its action; an edit of anything else is recorded with its draft.
-/

namespace MailHub.Offline

open Relational Interleaving MailHub OfflineStore

variable {i : ℕ} {c : OfflineCall} {o o' : Journal} {d : Uuid}

/-! ## Answers -/

/-- No pass replays what no pass replayed before. -/
def Journal.Older (o o' : Journal) : Prop :=
  ∀ p, o'.pass = some p → o.pass = some p ∨ p.attempt = none

/-- The service took an edit. -/
def Journal.Took (draftId : Uuid) (input : UpdateDraftInput) (o o' : Journal) : Prop :=
  ∃ row row' record, EditAccepted draftId input record o.server o'.server row row'

/-- What an answer to a request of worker `i` did to the drafts. -/
inductive Journal.Answered (i : ℕ) (c : OfflineCall) (o o' : Journal) : Prop
  | same (hserver : o'.server = o.server) (heffects : o'.effects = o.effects)
      (hothers : o'.others = o.others) (hpass : o.Older o')
  /-- A draft was locked for a send. -/
  | locked (hserver : ∀ d row, o.server.drafts.find? d = some row →
      ∃ row', o'.server.drafts.find? d = some row' ∧ row.SameText row')
      (heffects : o'.effects = o.effects) (hothers : o'.others = o.others) (hpass : o.Older o')
  /-- An editor's save took effect. -/
  | edited (draftId : Uuid) (input : UpdateDraftInput) (hserver : o.Took draftId input o')
      (heffects : o'.effects = o.effects) (hothers : o'.others = o.others ++ [draftId])
      (hpass : o.Older o')
  /-- A replayed save took effect. -/
  | replayed (a : Attempt) (g : Option Uuid) (draftId : Uuid) (input : UpdateDraftInput)
      (hc : c = .patchDraft none g draftId input) (ha : o.attemptOf i = some a)
      (hserver : o.Took draftId input o')
      (heffects : o'.effects = o.effects ++ [⟨a.queued.localId, draftId, input⟩])
      (hothers : o'.others = o.others)
      (hpass : o'.pass = o.pass ∨ ∃ revision, o'.pass = (o.onAttempt i fun a =>
        { a with accepted := true, revision := some revision }).pass)

namespace Journal

theorem Older.of_eq (h : o'.pass = o.pass) : o.Older o' := fun _ hp => .inl (h ▸ hp)

/-- Only the answer to a replayed save changes what a pass replays. -/
theorem PassAnswered.older (h : PassAnswered i c o o')
    (hc : ∀ g d input, c ≠ .patchDraft none g d input) : o.Older o' := by
  cases h with
  | same h => exact .of_eq h
  | acquired _ _ h =>
      intro p hp
      obtain rfl := Option.some.inj (h.symm.trans hp)
      exact .inr rfl
  | released _ h =>
      intro p hp
      rw [h] at hp
      exact .inl (Option.filter_eq_some_iff.mp hp).1
  | accepted g d input _ he _ => exact absurd he (hc g d input)

/-- What an answer did to the drafts does not depend on what else it recorded. -/
theorem Answered.congr {o'' : Journal} (h : Answered i c o o') (hserver : o''.server = o'.server)
    (heffects : o''.effects = o'.effects) (hothers : o''.others = o'.others)
    (hpass : o''.pass = o'.pass) : Answered i c o o'' := by
  have holder : o.Older o' → o.Older o'' := fun h p hp => h p (hpass ▸ hp)
  have htook : ∀ d input, o.Took d input o' → o.Took d input o'' := by
    rintro d input ⟨row, row', record, haccepted⟩
    refine ⟨row, row', record, ?_⟩
    rw [hserver]
    exact haccepted
  cases h with
  | same hs he ho hp =>
      exact .same (hserver.trans hs) (heffects.trans he) (hothers.trans ho) (holder hp)
  | locked hs he ho hp =>
      refine .locked (fun d row hrow => ?_) (heffects.trans he) (hothers.trans ho) (holder hp)
      rw [hserver]
      exact hs d row hrow
  | edited d input ht he ho hp =>
      exact .edited d input (htook d input ht) (heffects.trans he) (hothers.trans ho) (holder hp)
  | replayed a g d input hc ha ht he ho hp =>
      refine .replayed a g d input hc ha (htook d input ht) (heffects.trans he)
        (hothers.trans ho) ?_
      rw [hpass]
      exact hp

/-- An edit that takes effect is recorded with its action or its draft. -/
theorem edited_answered {editor : Option Uuid} {g : Option Uuid} {input : UpdateDraftInput}
    {now : Time} {record : DraftRecord} {server : Database}
    (hasked : editor = none → ∃ a, o.attemptOf i = some a)
    (h : (commitDraftUpdate d input now).run o.server = .ok (record, server)) :
    Answered i (.patchDraft editor g d input) o (o.edited i editor d input server) := by
  obtain ⟨row, row', haccepted⟩ := commitDraftUpdate_ok h
  cases editor with
  | some editor =>
      exact .edited d input ⟨row, row', record, haccepted⟩ rfl rfl (.of_eq edited_pass)
  | none =>
      obtain ⟨a, ha⟩ := hasked rfl
      obtain ⟨learnt, hedited⟩ : ∃ learnt, o.edited i none d input server =
          { o with server, learnt, effects := o.effects ++ [⟨a.queued.localId, d, input⟩] } :=
        ⟨_, by simp only [edited, ha]; rfl⟩
      rw [hedited]
      exact .replayed a g d input rfl ha ⟨row, row', record, haccepted⟩ rfl rfl (.inl rfl)

theorem answerPatch_drafts {editor : Option Uuid} {g : Option Uuid} {input : UpdateDraftInput}
    {r : Except OfflineFailure DraftRecord} (hasked : editor = none → ∃ a, o.attemptOf i = some a)
    (h : o.answerPatch i editor d input r = some o') :
    Answered i (.patchDraft editor g d input) o o' := by
  have hsame : Answered i (.patchDraft editor g d input) o o := .same rfl rfl rfl (.of_eq rfl)
  cases answerPatch_answered h with
  | taken record server hr hnone hrun =>
      subst hnone
      obtain ⟨a, ha⟩ := hasked rfl
      obtain ⟨row, row', haccepted⟩ := commitDraftUpdate_ok hrun
      have hedited : (o.edited i none d input server).server = server ∧
          (o.edited i none d input server).effects =
            o.effects ++ [⟨a.queued.localId, d, input⟩] ∧
          (o.edited i none d input server).others = o.others := by
        simp only [edited, ha, and_self]
      refine .replayed a g d input rfl ha ⟨row, row', record, ?_⟩ hedited.2.1 hedited.2.2
        (.inr ⟨record.revision, ?_⟩)
      · show EditAccepted d input record o.server (o.edited i none d input server).server row row'
        rw [hedited.1]
        exact haccepted
      · unfold onAttempt onPass
        rw [edited_pass]
  | saved record server hr hsome hrun | unheard time record server hr hrun =>
      exact (edited_answered hasked hrun).congr rfl rfl rfl rfl
  | refused e message revision hr hrun =>
      refine hsame.congr ?_ ?_ ?_ refused_pass <;> unfold refused <;> simp only <;>
        split <;> rfl
  | failed e hr he => exact hsame

/-- Recording a request changes nothing else. -/
theorem requested_eq (i : ℕ) (g : Option Uuid) (o : Journal) :
    ∃ requests, o.requested i g = { o with requests } := by
  unfold requested
  split
  · exact ⟨_, rfl⟩
  · exact ⟨o.requests, rfl⟩

theorem sent_eq (i : ℕ) (d : Uuid) (o : Journal) : ∃ sends, o.sent i d = { o with sends } := by
  unfold sent
  split
  · exact ⟨_, rfl⟩
  · exact ⟨o.sends, rfl⟩

/-- Locking for a send leaves the texts alone. -/
theorem answerSend_drafts {editor : Bool} {base : ℕ} {r : Except OfflineFailure Uuid}
    (h : o.answerSend i editor d base r = some o') :
    (∀ d row, o.server.drafts.find? d = some row →
      ∃ row', o'.server.drafts.find? d = some row' ∧ row.SameText row') ∧
      o'.effects = o.effects ∧ o'.others = o.others := by
  obtain ⟨outboundId, locked, server, hlock, rfl⟩ | ⟨-, -, rfl⟩ | rfl := answerSend_eq h
  · exact ⟨fun d row hrow => lockDraftForSend_sameText hlock d hrow, rfl, rfl⟩
  · exact ⟨fun d row hrow => ⟨row, hrow, .refl⟩, rfl, rfl⟩
  · exact ⟨fun d row hrow => ⟨row, hrow, .refl⟩, rfl, rfl⟩

/-- Every answer does one of these. -/
theorem respond_answered {r : Except OfflineFailure c.Answer}
    (hasked : ∀ g d input, c = .patchDraft none g d input → ∃ a, o.attemptOf i = some a)
    (h : respond i c r o = some o') : Answered i c o o' := by
  have hpass := respond_pass h
  cases c with
  | patchDraft editor g d input =>
      cases editor with
      | some editor => exact answerPatch_drafts (by simp) h
      | none =>
          obtain ⟨requests, hrequests⟩ := requested_eq i g o
          have hanswer : ({ o with requests } : Journal).answerPatch i none d input r = some o' := by
            rw [← hrequests]
            exact h
          obtain ⟨a, ha⟩ := hasked g d input rfl
          have hdrafts := answerPatch_drafts (o := { o with requests }) (g := g) (fun _ => ⟨a, ha⟩)
            hanswer
          cases hdrafts with
          | same hs he ho hp => exact .same hs he ho hp
          | locked hs he ho hp => exact .locked hs he ho hp
          | edited d' input' hs he ho hp => exact .edited d' input' hs he ho hp
          | replayed a' g' d' input' hc ha' hs he ho hp =>
              exact .replayed a' g' d' input' hc ha' hs he ho hp
  | now | generateId | offline | sessionGeneration | releasePass =>
      obtain ⟨rfl, -⟩ := total_eq h
      exact .same rfl rfl rfl (hpass.older (by simp))
  | acquirePass =>
      obtain ⟨-, htotal⟩ := Option.ite_none_right_eq_some.mp h
      obtain ⟨rfl, -⟩ := total_eq htotal
      exact .same rfl rfl rfl (hpass.older (by simp))
  | getAttachments d =>
      obtain rfl := plain_eq h
      exact .same rfl rfl rfl (.of_eq rfl)
  | postUpload g upload | postAction g body =>
      obtain ⟨requests, hrequests⟩ := requested_eq i g o
      obtain rfl := plain_eq h
      rw [hrequests]
      exact .same rfl rfl rfl (.of_eq rfl)
  | postAttachment editor g d uploadId =>
      obtain rfl := plain_eq h
      obtain ⟨requests, hrequests⟩ := requested_eq i g o
      rw [hrequests]
      split <;> exact .same rfl rfl rfl (.of_eq rfl)
  | postSend editor g d key base =>
      have holder : o.Older o' := hpass.older (by simp)
      obtain ⟨requests, hrequests⟩ := requested_eq i g o
      obtain ⟨sends, hsends⟩ := sent_eq i d { o with requests }
      have hanswer : (if editor then o else (o.requested i g).sent i d).answerSend
          i editor d base r = some o' := h
      obtain ⟨hserver, heffects, hothers⟩ := answerSend_drafts hanswer
      rw [hrequests, hsends] at hserver heffects hothers
      refine .locked (fun d row hrow => ?_) ?_ ?_ holder
      · exact hserver d row (by split <;> exact hrow)
      · rw [heffects]
        split <;> rfl
      · rw [hothers]
        split <;> rfl
  | readDraft d =>
      cases r with
      | ok record =>
          obtain rfl := Option.some.inj (Option.ite_none_right_eq_some.mp h).2
          exact .same rfl rfl rfl (.of_eq rfl)
      | error e =>
          obtain rfl := Option.some.inj (Option.ite_none_right_eq_some.mp h).2
          exact .same rfl rfl rfl (.of_eq rfl)

end Journal

end MailHub.Offline
