import Mathlib.Algebra.Order.BigOperators.Group.List
import Mathlib.Algebra.Order.Group.Nat
import MailHub.Compose.Sessions

/-!
# Draft calls that run at the same time

Each transaction on a draft locks the row of the draft first, so in any interleaving of the
statements it has the effect of one step. An update replaces exactly the revision that it was made
against, and the links of a draft keep distinct positions and the budget.
-/

namespace MailHub.DraftSessions

open Relational Interleaving MailHub

variable {d k u : Uuid} {s s' : Database}

/-! ## Effects -/

/-- The links of every draft have distinct positions and keep to the budget. -/
def LinksSound (db : Database) : Prop :=
  ∀ d, ((db.draftUploads.select (·.draftId == d)).map (·.ordinal)).Nodup ∧
    attachmentBytes d db ≤ attachmentsTotalMaxBytes

/-- What an attachment does: a link that was there is the answer, and nothing changes. -/
structure Attached (d u : Uuid) (upload : Upload) (ordinal : ℕ) (s s' : Database) : Prop where
  recorded : s'.draftUploads.find? (d, u) = some ⟨d, u, ordinal⟩
  again : ∀ link, s.draftUploads.find? (d, u) = some link → link.ordinal = ordinal ∧ s' = s
  drafts : s'.drafts = s.drafts

/-- What a call that committed did. -/
def DraftCall.Effect : DraftCall → DraftAnswer → Database → Database → Prop
  | .updateDraft _ d input _, a, s, s' => ∃ record row row', a = .record record ∧
      EditAccepted d input record s s' row row' ∧ s'.draftUploads = s.draftUploads
  | .attachUpload _ d u, a, s, s' => ∃ upload ordinal, a = .link upload ordinal ∧
      s.uploads.find? u = some upload ∧ Attached d u upload ordinal s s'
  | .detachUpload _ d u, a, s, s' => a = .done ∧ s.draftUploads.find? (d, u) ≠ none ∧
      s'.draftUploads.find? (d, u) = none ∧ s'.drafts = s.drafts
  | .deleteDraft _ _ _, a, s, s' => a = .done ∧ s'.draftUploads = s.draftUploads ∧
      ∀ k row, s.drafts.find? k = some row →
        ∃ row', s'.drafts.find? k = some row' ∧ row.SameText row'

/-! ## Links -/

/-- The bytes of the attachments do not depend on their order. -/
theorem attachmentBytes_eq (d : Uuid) (db : Database) : attachmentBytes d db =
    (((db.draftUploads.select (·.draftId == d)).filterMap fun l =>
      db.uploads.find? l.uploadId).map (·.sizeBytes)).sum :=
  (((List.perm_insertionSort _ _).filterMap _).map _).sum_nat

/-- Where neither links nor uploads change, links stay sound. -/
theorem LinksSound.congr (h : LinksSound s) (hlinks : s'.draftUploads = s.draftUploads)
    (huploads : s'.uploads = s.uploads) : LinksSound s' := by
  intro d
  rw [attachmentBytes_eq, hlinks, huploads, ← attachmentBytes_eq]
  exact h d

/-- A new link at a free position that fits into the budget keeps links sound. -/
theorem LinksSound.insert {t : Table DraftUpload} {n : ℕ} {upload : Upload} (h : LinksSound s)
    (hupload : s.uploads.find? u = some upload)
    (hfits : attachmentBytes d s + upload.sizeBytes ≤ attachmentsTotalMaxBytes)
    (hfree : ∀ l ∈ s.draftUploads.select (·.draftId == d), l.ordinal ≠ n)
    (hinsert : s.draftUploads.insert? ⟨d, u, n⟩ = some t) (hlinks : s'.draftUploads = t)
    (huploads : s'.uploads = s.uploads) : LinksSound s' := by
  intro k
  have hselect := Table.select_insert? (p := fun l => l.draftId == k) hinsert
  rw [attachmentBytes_eq, hlinks, huploads, hselect]
  by_cases hk : d = k
  · subst hk
    rw [if_pos (by simp)]
    constructor
    · rw [List.map_append, List.nodup_append]
      refine ⟨(h d).1, by simp, fun a ha b hb => ?_⟩
      obtain ⟨l, hl, rfl⟩ := List.mem_map.mp ha
      obtain rfl : b = n := by simpa using hb
      exact hfree l hl
    · rw [List.filterMap_append, List.map_append, List.sum_append, ← attachmentBytes_eq]
      simpa [hupload] using hfits
  · rw [if_neg (by simpa using hk), List.append_nil, ← attachmentBytes_eq]
    exact h k

/-- Deleting links keeps the others sound. -/
theorem LinksSound.delete {p : DraftUpload → Bool} (h : LinksSound s)
    (hlinks : s'.draftUploads = s.draftUploads.delete p) (huploads : s'.uploads = s.uploads) :
    LinksSound s' := by
  intro k
  have hsub : (s'.draftUploads.select (·.draftId == k)).Sublist
      (s.draftUploads.select (·.draftId == k)) := by
    rw [hlinks, Table.select_delete]
    exact List.filter_sublist
  refine ⟨(h k).1.sublist (hsub.map _), ?_⟩
  rw [attachmentBytes_eq, huploads]
  refine le_trans (((hsub.filterMap _).map _).sum_le_sum fun _ _ => Nat.zero_le _) ?_
  rw [← attachmentBytes_eq]
  exact (h k).2

/-! ## Transactions -/

/-- What a committed call leaves alone. -/
structure Frame (d : Uuid) (s s' : Database) : Prop where
  others : ∀ k, k ≠ d → s'.drafts.find? k = s.drafts.find? k ∧
    s'.draftUploads.select (·.draftId == k) = s.draftUploads.select (·.draftId == k)
  uploads : s'.uploads = s.uploads
  accounts : s'.accounts = s.accounts

theorem Frame.part (h : Frame d s s') (hk : k ≠ d) : part k s' = part k s := by
  obtain ⟨hdraft, hlinks⟩ := h.others k hk
  unfold DraftSessions.part
  rw [hdraft, hlinks, h.uploads, h.accounts]

/-- Rewriting one row leaves the other drafts alone. -/
theorem find?_update_of_ne {f : Draft → Draft} (hf : ∀ r, (f r).id = r.id) (hk : k ≠ d) :
    (s.drafts.update (·.id == d) f hf).find? k = s.drafts.find? k := by
  rw [Table.find?_update]
  cases hrow : s.drafts.find? k with
  | none => rfl
  | some row =>
      have hkey : row.id = k := Table.key_of_find? hrow
      have hne : row.id ≠ d := hkey.trans_ne hk
      simp [hne]

theorem commitDraftUpdate_frame {input : UpdateDraftInput} {now : Time} {record : DraftRecord}
    (h : (commitDraftUpdate d input now).run s = .ok (record, s')) :
    Frame d s s' ∧ s'.draftUploads = s.draftUploads := by
  simp [commitDraftUpdate, updateDraftRow, lockEditableDraft_ok] at h
  obtain ⟨row, -, -, identity, -, recipients, -, subject, -, markdown, -,
    ⟨-, -, rfl⟩ | ⟨-, -, rfl⟩⟩ := h
  · refine ⟨⟨fun k hk => ⟨?_, rfl⟩, rfl, rfl⟩, rfl⟩
    exact find?_update_of_ne (by exact fun _ => rfl) hk
  · exact ⟨⟨fun _ _ => ⟨rfl, rfl⟩, rfl, rfl⟩, rfl⟩

theorem requireUpload_ok {upload : Upload} :
    (requireUpload u).run s = .ok (upload, s') ↔ s.uploads.find? u = some upload ∧ s = s' := by
  unfold requireUpload
  cases hupload : s.uploads.find? u <;> simp [hupload]

/-- What an attachment does. -/
theorem commitAttachment_ok {upload : Upload} {n : ℕ}
    (h : (commitAttachment d u).run s = .ok ((upload, n), s')) :
    s.uploads.find? u = some upload ∧ Attached d u upload n s s' ∧ Frame d s s' ∧
      (LinksSound s → LinksSound s') := by
  simp [commitAttachment, lockEditableDraft_ok, requireUpload_ok] at h
  obtain ⟨row, -, upload', hupload, -, h⟩ := h
  cases hlink : s.draftUploads.find? (d, u) with
  | some link =>
      rw [hlink] at h
      obtain ⟨hpair, rfl⟩ := Prod.mk.inj (Except.ok.inj h)
      obtain ⟨rfl, rfl⟩ := Prod.mk.inj hpair
      obtain ⟨rfl, rfl⟩ : link.draftId = d ∧ link.uploadId = u :=
        Prod.mk.inj (Table.key_of_find? hlink)
      refine ⟨hupload, ⟨hlink, fun link' hlink' => ?_, rfl⟩, ⟨fun _ _ => ⟨rfl, rfl⟩, rfl, rfl⟩, id⟩
      rw [hlink] at hlink'
      exact ⟨congrArg _ (Option.some.inj hlink').symm, rfl⟩
  | none =>
      rw [hlink] at h
      simp [requireAttachmentBudget_ok, insertDraftUpload_ok] at h
      obtain ⟨hfits, t, ⟨hfree, hinsert⟩, ⟨rfl, rfl⟩, rfl⟩ := h
      have hrecorded : t.find? (d, u) = some ⟨d, u, nextOrdinal d s⟩ :=
        (Table.find?_insert? hinsert).trans (if_pos rfl)
      refine ⟨hupload, ⟨hrecorded, fun link hlink' => ?_, rfl⟩, ⟨fun k hk => ⟨rfl, ?_⟩, rfl, rfl⟩,
        fun hs => hs.insert hupload hfits (fun l hl => ?_) hinsert rfl rfl⟩
      · rw [hlink] at hlink'
        cases hlink'
      · have hselect := Table.select_insert? (p := fun l => l.draftId == k) hinsert
        rw [hselect, if_neg (by simpa using Ne.symm hk), List.append_nil]
      · obtain ⟨hmem, hdraft⟩ := Table.mem_select.mp hl
        exact hfree l hmem (beq_iff_eq.mp hdraft)

/-- A detachment removes a link that was there. -/
theorem commitDetachment_ok (h : (commitDetachment d u).run s = .ok ((), s')) :
    s.draftUploads.find? (d, u) ≠ none ∧ s'.draftUploads.find? (d, u) = none ∧
      s'.drafts = s.drafts ∧ Frame d s s' ∧ (LinksSound s → LinksSound s') := by
  simp [commitDetachment, lockEditableDraft_ok] at h
  obtain ⟨-, hfound, rfl⟩ := h
  refine ⟨hfound, ?_, rfl, ⟨fun k hk => ⟨rfl, ?_⟩, rfl, rfl⟩, fun hs => hs.delete rfl rfl⟩
  · rw [Table.find?_delete]
    cases hlink : s.draftUploads.find? (d, u) with
    | none => rfl
    | some link =>
        obtain ⟨rfl, rfl⟩ : link.draftId = d ∧ link.uploadId = u :=
          Prod.mk.inj (Table.key_of_find? hlink)
        simp
  · rw [Table.select_delete]
    refine List.filter_eq_self.mpr fun l hl => ?_
    have hdraft : l.draftId = k := by simpa using (List.mem_filter.mp hl).2
    simp [hdraft, hk]

/-- A deletion leaves links, texts and revisions alone. -/
theorem commitDraftDeletion_ok {now : Time}
    (h : (commitDraftDeletion d now).run s = .ok ((), s')) :
    s'.draftUploads = s.draftUploads ∧ Frame d s s' ∧ ∀ k row, s.drafts.find? k = some row →
      ∃ row', s'.drafts.find? k = some row' ∧ row.SameText row' := by
  simp [commitDraftDeletion, updateDraftRow, lockEditableDraft_ok] at h
  obtain ⟨-, rfl⟩ := h
  refine ⟨rfl, ⟨fun k hk => ⟨?_, rfl⟩, rfl, rfl⟩, fun k row hrow => ?_⟩
  · exact find?_update_of_ne (by exact fun _ => rfl) hk
  · refine ⟨_, by rw [Table.find?_update, hrow, Option.map_some], ?_⟩
    split <;> exact ⟨rfl, rfl, rfl, rfl, rfl⟩

/-! ## Calls -/

/-- What a call that commits does, and what it leaves alone. -/
theorem session_ok {c : DraftCall} {a : DraftAnswer}
    (h : c.session.atomically.run s = .ok (a, s')) :
    c.Effect a s s' ∧ Frame c.draftId s s' ∧ (LinksSound s → LinksSound s') := by
  cases c with
  | updateDraft g d input now =>
      simp only [DraftCall.session, Session.atomically_bind, StateT.run_bind, bind_eq_ok,
        Prod.exists, updateDraft_atomically] at h
      obtain ⟨record, db, hrun, hpure⟩ := h
      obtain ⟨rfl, rfl⟩ := Prod.mk.inj (Except.ok.inj hpure)
      obtain ⟨row, row', haccepted⟩ := commitDraftUpdate_ok hrun
      obtain ⟨hframe, hlinks⟩ := commitDraftUpdate_frame hrun
      exact ⟨⟨record, row, row', rfl, haccepted, hlinks⟩, hframe,
        fun hs => hs.congr hlinks hframe.uploads⟩
  | attachUpload g d u =>
      simp only [DraftCall.session, Session.atomically_bind, StateT.run_bind, bind_eq_ok,
        Prod.exists, attachUpload_atomically] at h
      obtain ⟨upload, n, db, hrun, hpure⟩ := h
      obtain ⟨rfl, rfl⟩ := Prod.mk.inj (Except.ok.inj hpure)
      obtain ⟨hupload, hattached, hframe, hlinks⟩ := commitAttachment_ok hrun
      exact ⟨⟨upload, n, rfl, hupload, hattached⟩, hframe, hlinks⟩
  | detachUpload g d u =>
      simp only [DraftCall.session, Session.atomically_bind, StateT.run_bind, bind_eq_ok,
        Prod.exists, detachUpload_atomically] at h
      obtain ⟨done, db, hrun, hpure⟩ := h
      obtain ⟨rfl, rfl⟩ := Prod.mk.inj (Except.ok.inj hpure)
      obtain ⟨hfound, hgone, hdrafts, hframe, hlinks⟩ := commitDetachment_ok hrun
      exact ⟨⟨rfl, hfound, hgone, hdrafts⟩, hframe, hlinks⟩
  | deleteDraft g d now =>
      simp only [DraftCall.session, Session.atomically_bind, StateT.run_bind, bind_eq_ok,
        Prod.exists, deleteDraft_atomically] at h
      obtain ⟨done, db, hrun, hpure⟩ := h
      obtain ⟨rfl, rfl⟩ := Prod.mk.inj (Except.ok.inj hpure)
      obtain ⟨hlinks, hframe, htexts⟩ := commitDraftDeletion_ok hrun
      exact ⟨⟨rfl, hlinks, htexts⟩, hframe, fun hs => hs.congr hlinks hframe.uploads⟩

/-- The lock of a draft protects its calls. -/
theorem drafts_protected (generation : Option Uuid) :
    (drafts generation).Protected part LinksSound where
  isLocal := session_local
  keeps c s a s' hs hrun := by
    obtain ⟨-, hframe, hlinks⟩ := session_ok hrun
    exact ⟨hlinks hs, fun k hk => hframe.part hk⟩

/-! ## Revisions -/

/-- No call takes the revision of a draft back. -/
theorem session_revision {c : DraftCall} {a : DraftAnswer} {row : Draft}
    (h : c.session.atomically.run s = .ok (a, s')) (hrow : s.drafts.find? k = some row) :
    ∃ row', s'.drafts.find? k = some row' ∧ row.revision ≤ row'.revision := by
  obtain ⟨heffect, -, -⟩ := session_ok h
  cases c with
  | updateDraft g d input now =>
      obtain ⟨record, old, new, -, haccepted, -⟩ := heffect
      by_cases hk : k = d
      · subst hk
        obtain rfl : old = row := Option.some.inj (haccepted.before.symm.trans hrow)
        exact ⟨new, haccepted.after, by rw [haccepted.moved]; exact Nat.le_add_right _ _⟩
      · exact ⟨row, (haccepted.others k hk).trans hrow, le_rfl⟩
  | attachUpload g d u =>
      obtain ⟨upload, n, -, -, hattached⟩ := heffect
      exact ⟨row, by rw [hattached.drafts, hrow], le_rfl⟩
  | detachUpload g d u => exact ⟨row, by rw [heffect.2.2.2, hrow], le_rfl⟩
  | deleteDraft g d now =>
      obtain ⟨row', hrow', hsame⟩ := heffect.2.2 k row hrow
      exact ⟨row', hrow', hsame.2.2.2.2.ge⟩

/-- The history of draft calls. -/
abbrev DraftHistory := List (Entry Database Failure DraftCall DraftAnswer)

/-- Along a history of calls the revision of a draft only grows. -/
theorem chained_revision {h : DraftHistory} {row : Draft} (hchained : Chained s h s')
    (hcommitted : ∀ i c a s₁ s₂, .committed i c a s₁ s₂ ∈ h →
      c.session.atomically.run s₁ = .ok (a, s₂)) (hrow : s.drafts.find? k = some row) :
    ∀ i c a s₁ s₂, .committed i c a s₁ s₂ ∈ h →
      ∃ row', s₁.drafts.find? k = some row' ∧ row.revision ≤ row'.revision := by
  induction h generalizing s row with
  | nil => exact fun _ _ _ _ _ hmem => absurd hmem List.not_mem_nil
  | cons e h ih =>
      intro i c a s₁ s₂ hmem
      have hrest : ∀ i c a s₁ s₂, .committed i c a s₁ s₂ ∈ h →
          c.session.atomically.run s₁ = .ok (a, s₂) :=
        fun i c a s₁ s₂ hmem => hcommitted i c a s₁ s₂ (List.mem_cons_of_mem _ hmem)
      cases e with
      | answered j m r =>
          rcases List.mem_cons.mp hmem with heq | hmem
          · cases heq
          · exact ih hchained hrest hrow i c a s₁ s₂ hmem
      | committed j m b t t' =>
          obtain ⟨rfl, hchained⟩ := hchained
          rcases List.mem_cons.mp hmem with heq | hmem
          · cases heq
            exact ⟨row, hrow, le_rfl⟩
          · obtain ⟨row', hrow', hle⟩ :=
              session_revision (hcommitted j m b s t' List.mem_cons_self) hrow
            obtain ⟨row'', hrow'', hle'⟩ := ih hchained hrest hrow' i c a s₁ s₂ hmem
            exact ⟨row'', hrow'', hle.trans hle'⟩

/-- Of two updates of one draft, the later one was made against a later revision. -/
def LaterBase (e e' : Entry Database Failure DraftCall DraftAnswer) : Prop :=
  ∀ i i' g g' d input input' now now' a a' s₁ s₁' s₂ s₂',
    e = .committed i (.updateDraft g d input now) a s₁ s₂ →
    e' = .committed i' (.updateDraft g' d input' now') a' s₁' s₂' →
    input.namesField = true → input.baseRevision < input'.baseRevision

theorem pairwise_laterBase {h : DraftHistory} (hchained : Chained s h s')
    (hcommitted : ∀ i c a s₁ s₂, .committed i c a s₁ s₂ ∈ h →
      c.session.atomically.run s₁ = .ok (a, s₂)) : h.Pairwise LaterBase := by
  induction h generalizing s with
  | nil => exact .nil
  | cons e h ih =>
      have hrest : ∀ i c a s₁ s₂, .committed i c a s₁ s₂ ∈ h →
          c.session.atomically.run s₁ = .ok (a, s₂) :=
        fun i c a s₁ s₂ hmem => hcommitted i c a s₁ s₂ (List.mem_cons_of_mem _ hmem)
      cases e with
      | answered j m r =>
          refine .cons (fun e' _ => ?_) (ih hchained hrest)
          intro i i' g g' d input input' now now' a a' s₁ s₁' s₂ s₂' heq
          cases heq
      | committed j m b t t' =>
          obtain ⟨rfl, hchained⟩ := hchained
          refine .cons (fun e' he' => ?_) (ih hchained hrest)
          intro i i' g g' d input input' now now' a a' s₁ s₁' s₂ s₂' heq heq' hnames
          cases heq
          subst heq'
          -- The first update leaves a later revision, and the second one finds no earlier one.
          obtain ⟨record, row, row', -, haccepted, -⟩ :=
            (session_ok (hcommitted _ _ _ _ _ List.mem_cons_self)).1
          obtain ⟨record', old, new, -, haccepted', -⟩ :=
            (session_ok (hrest _ _ _ _ _ he')).1
          obtain ⟨found, hfound, hle⟩ :=
            chained_revision hchained hrest haccepted.after _ _ _ _ _ he'
          obtain rfl : old = found := Option.some.inj (haccepted'.before.symm.trans hfound)
          have hmoved := haccepted.moved
          rw [hnames, if_pos rfl] at hmoved
          have hbase := haccepted.base
          have hbase' := haccepted'.base
          omega

/-! ## Runs -/

/-- What draft calls do in a run, from a store to another. -/
structure DraftsConsistent (s₀ : Database) (h : DraftHistory) (s : Database) : Prop where
  /-- The store is what the committed calls made of it, one after the other. -/
  chained : Chained s₀ h s
  /-- Each call that committed did what it is for, in one step. -/
  effects : ∀ i c a s₁ s₂, .committed i c a s₁ s₂ ∈ h → c.Effect a s₁ s₂
  /-- No update is lost: each one was made against a later revision than those before it. -/
  bases : h.Pairwise LaterBase
  /-- A call that returns committed once, and a call that is refused changed nothing. -/
  answers : ∀ i c r, .answered i c r ∈ h → Told h i c r
  /-- The links of every draft have distinct positions and keep to the budget. -/
  links : LinksSound s

/-- In every run of calls on drafts, whatever the order of their statements, updates replace the
revision that they were made against, refused calls change nothing, a repeated attachment answers
with the recorded link, and the links stay sound. -/
theorem drafts_consistent {generation : Option Uuid}
    {c₀ c : Config (serviceSignature Database Uuid Failure DraftCall DraftAnswer)
      (Ledger Database Uuid Failure DraftCall DraftAnswer)}
    (hworkers : c₀.workers = []) (hhistory : c₀.world.outside.history = [])
    (hlinks : LinksSound c₀.world.store)
    (h : Reaches (drafts generation).system .free c₀ c) :
    DraftsConsistent c₀.world.store c.world.outside.history c.world.store := by
  have hserial := Service.serial (drafts_protected generation) hworkers hhistory hlinks h
  have hcommitted : ∀ i n a s₁ s₂, .committed i n a s₁ s₂ ∈ c.world.outside.history →
      n.session.atomically.run s₁ = .ok (a, s₂) :=
    fun i n a s₁ s₂ hmem => (hserial.committed i n a s₁ s₂ hmem).2
  refine ⟨hserial.chained, fun i n a s₁ s₂ hmem => ?_,
    pairwise_laterBase hserial.chained hcommitted, hserial.answered, hserial.kept⟩
  exact (session_ok (hcommitted i n a s₁ s₂ hmem)).1

/-! ## Samples -/

/-- A service of generation 1 with draft 10 at revision 1 and an upload of its account. -/
def sampleDatabase : Database :=
  { Database.empty with
    serviceState := some ⟨1, .ready⟩
    drafts := ⟨[⟨10, 1, ⟨"a@b.cc", none⟩, none, none, none, [], ⟨[], [], []⟩, none, "", 1, none, 0,
      none⟩], by decide⟩
    uploads := ⟨[⟨20, 1, "f", "text/plain", 5, "k", "h", 0⟩], by decide⟩ }

/-- An edit of the text against revision 1. -/
def sampleInput (markdown : String) : UpdateDraftInput :=
  ⟨1, none, none, none, some (some markdown)⟩

/-- The sample before any call. -/
def sampleCalls : Config (serviceSignature Database Uuid Failure DraftCall DraftAnswer)
    (Ledger Database Uuid Failure DraftCall DraftAnswer) :=
  ⟨⟨sampleDatabase, ⟨fun _ => none, []⟩⟩, []⟩

/-- Worker `i` gets the lock that it waits for, or its rollback is done. -/
def sampleGrant (i : ℕ) : Event (drafts (some 1)).system := .answer i fun _ => .ok ()

/-- Two edits against the same revision pass the gate together; the second one waits for the lock
of the first. Then an upload is attached twice. -/
def sampleRace : List (Event (drafts (some 1)).system) :=
  [.spawn (.updateDraft (some 1) 10 (sampleInput "a") 5), .commit 0,
    .spawn (.updateDraft (some 1) 10 (sampleInput "b") 6), .commit 1, sampleGrant 0] ++
    List.replicate 5 (.commit 0) ++ [sampleGrant 1, .commit 1, sampleGrant 1, .commit 1,
    .spawn (.attachUpload (some 1) 10 20), .commit 2, sampleGrant 2] ++
    List.replicate 9 (.commit 2) ++
    [.spawn (.attachUpload (some 1) 10 20), .commit 3, sampleGrant 3] ++
    List.replicate 5 (.commit 3)

/-- What a worker is told: the revision or the position, or nothing for a refusal. -/
def answerView : Entry Database Failure DraftCall DraftAnswer → Option (ℕ × Option ℕ)
  | .answered i _ (.ok (.record r)) => some (i, some r.revision)
  | .answered i _ (.ok (.link _ n)) => some (i, some n)
  | .answered i _ _ => some (i, none)
  | .committed .. => none

theorem sampleDatabase_sound : LinksSound sampleDatabase := by
  intro d
  have hlinks : sampleDatabase.draftUploads.select (·.draftId == d) = [] := rfl
  rw [attachmentBytes_eq, hlinks]
  exact ⟨List.nodup_nil, Nat.zero_le _⟩

/-- One edit goes through, the other one is refused, and both attachments get the same link. -/
theorem drafts_consistent_sample : ∃ c,
    Reaches (drafts (some 1)).system .free sampleCalls c ∧
      c.world.outside.history.filterMap answerView =
        [(0, some 2), (1, none), (2, some 0), (3, some 0)] ∧
      DraftsConsistent sampleDatabase c.world.outside.history c.world.store := by
  have hrun : (sampleCalls.run _ sampleRace).map
      (fun c => c.world.outside.history.filterMap answerView) =
        some [(0, some 2), (1, none), (2, some 0), (3, some 0)] := by
    decide +kernel
  obtain ⟨c, hc, hview⟩ := Option.map_eq_some_iff.mp hrun
  have hreach := Reaches.of_run hc
  exact ⟨c, hreach, hview, drafts_consistent rfl rfl sampleDatabase_sound hreach⟩

end MailHub.DraftSessions
