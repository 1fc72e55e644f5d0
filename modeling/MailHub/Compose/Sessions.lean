import MailHub.Compose.Edits
import MailHub.Interleaving.Sessions

/-!
# Draft transactions, statement by statement

Every statement of a draft transaction is a step of its own here, so that other calls can commit
between any two of them. Taken together the statements are the transactions of the draft service,
and each of them stays within what the lock of its draft protects.
-/

namespace MailHub.DraftSessions

open Relational Interleaving MailHub

/-! ## Transactions, statement by statement -/

/-- Read one value. -/
def select {α : Type} (f : Database → Except Failure α) : Session Database Failure α :=
  .one fun db => (f db).map fun a => (a, db)

/-- The new sender of a draft: the current one, unless the edit names another. -/
def resolveEditIdentity (row : Draft) :
    Option (Option String) → Session Database Failure EmailAddress
  | none => pure row.identity
  | some requested => do
      let account ← select (requireAccount row.accountId)
      .lift (resolveIdentity account.identities requested)

theorem edited_id (now : Time) (row : Draft) (identity : EmailAddress) (recipients : Recipients)
    (subject : Option String) (markdown : String) (r : Draft) :
    ({ r with identity, recipients, subject, markdown, revision := row.revision + 1,
              updatedAt := now } : Draft).id = r.id := rfl

/-- The transaction of one revision-aware draft edit. -/
def updateDraft (draftId : Uuid) (input : UpdateDraftInput) (now : Time) :
    Session Database Failure DraftRecord := do
  let row ← .one (lockEditableDraft draftId)
  if row.revision ≠ input.baseRevision then
    throw (.compose .draftStale
      s!"This draft changed elsewhere; the server holds revision {row.revision}."
      (some row.revision))
  let identity ← resolveEditIdentity row input.identity
  let recipients ← .lift (patched row.recipients input.recipients normalizeRecipients)
  let subject ← .lift (patched row.subject input.subject normalizeSubject)
  let markdown ← .lift (patched row.markdown input.markdown normalizeMarkdown)
  if input.namesField then
    let edit (r : Draft) : Draft :=
      { r with identity, recipients, subject, markdown, revision := row.revision + 1,
               updatedAt := now }
    .one (updateDraftRow draftId edit (edited_id now row identity recipients subject markdown))
    .one (Tx.recordEvent .user "draft.updated" "draft" draftId)
    .lift (toDraftRecord (edit row))
  else .lift (toDraftRecord row)

/-- The recorded link of one upload inside one draft. -/
def findDraftUpload (draftId uploadId : Uuid) : Session Database Failure (Option DraftUpload) :=
  select fun db => .ok (db.draftUploads.find? (draftId, uploadId))

/-- The transaction of one attachment. -/
def attachUpload (draftId uploadId : Uuid) : Session Database Failure (Upload × ℕ) := do
  let draft ← .one (lockEditableDraft draftId)
  let upload ← .one (requireUpload uploadId)
  if upload.accountId ≠ draft.accountId then
    throw (invalidCompose "The upload belongs to a different account than the draft.")
  match ← findDraftUpload draftId uploadId with
  | some attached => return (upload, attached.ordinal)
  | none =>
      .one (requireAttachmentBudget draftId upload)
      let next ← select fun db => .ok (nextOrdinal draftId db)
      .one (insertDraftUpload ⟨draftId, uploadId, next⟩)
      .one (Tx.recordEvent .user "draft.upload_attached" "draft" draftId)
      return (upload, next)

/-- Delete one link, and tell whether there was one. -/
def deleteDraftUpload (draftId uploadId : Uuid) : Tx Bool := do
  let db ← get
  set { db with
    draftUploads := db.draftUploads.delete fun l => l.draftId == draftId && l.uploadId == uploadId }
  return (db.draftUploads.find? (draftId, uploadId)).isSome

/-- The transaction of one detachment. -/
def detachUpload (draftId uploadId : Uuid) : Session Database Failure Unit := do
  let _ ← .one (lockEditableDraft draftId)
  let removed ← .one (deleteDraftUpload draftId uploadId)
  if !removed then
    throw (.compose .notFound "The draft does not reference this upload." none)
  .one (Tx.recordEvent .user "draft.upload_detached" "draft" draftId)

theorem deleted_id (now : Time) (r : Draft) : ({ r with deletedAt := some now } : Draft).id = r.id :=
  rfl

/-- The transaction of one soft deletion. -/
def deleteDraft (draftId : Uuid) (now : Time) : Session Database Failure Unit := do
  let _ ← .one (lockEditableDraft draftId)
  .one (updateDraftRow draftId (fun r => { r with deletedAt := some now }) (deleted_id now))
  .one (Tx.recordEvent .user "draft.deleted" "draft" draftId)

/-! ## Transactions in one step -/

section Statements

variable {draftId uploadId d : Uuid} {input : UpdateDraftInput} {now : Time} {db db' : Database}

@[simp] theorem run_select {α : Type} (f : Database → Except Failure α) (db : Database) :
    (select f).atomically.run db = (f db).map fun a => (a, db) := by
  unfold select
  rw [Session.atomically_one]
  rfl

/-- The sender is resolved against the account as it is at the moment. -/
theorem run_resolveEditIdentity {row : Draft} {requested : Option (Option String)} :
    (resolveEditIdentity row requested).atomically.run db =
      (patched row.identity requested fun requested => do
        let account ← requireAccount row.accountId db
        resolveIdentity account.identities requested).map fun identity => (identity, db) := by
  cases requested with
  | none => rfl
  | some requested =>
      unfold resolveEditIdentity patched
      rw [Session.atomically_bind, StateT.run_bind, run_select]
      cases requireAccount row.accountId db with
      | error e => rfl
      | ok account => exact (congrFun (Session.atomically_lift _) db).trans run_lift

/-- A draft that may be edited was read from the store as it is. -/
theorem run_lockEditableDraft (db : Database) :
    (lockEditableDraft draftId).run db = ((lockEditableDraft draftId).run db).map
      fun r => (r.1, db) := by
  cases hrun : (lockEditableDraft draftId).run db with
  | error e => rfl
  | ok r =>
      obtain ⟨row, db'⟩ := r
      obtain ⟨-, -, -, rfl⟩ := lockEditableDraft_ok.mp hrun
      rfl

/-- An edit, its statements taken together, is the edit of the draft service. -/
theorem updateDraft_atomically :
    (updateDraft draftId input now).atomically.run db =
      (commitDraftUpdate draftId input now).run db := by
  unfold updateDraft commitDraftUpdate
  simp only [Session.atomically_bind, Session.atomically_one, StateT.run_bind, StateT.run_get]
  cases hlock : (lockEditableDraft draftId).run db with
  | error e => simp [hlock]
  | ok r =>
      obtain ⟨row, db'⟩ := r
      obtain ⟨-, -, -, rfl⟩ := lockEditableDraft_ok.mp hlock
      simp [hlock, run_resolveEditIdentity, ok_bind]
      split
      · cases patched row.identity input.identity fun requested => do
            let account ← requireAccount row.accountId db
            resolveIdentity account.identities requested with
        | error e => rfl
        | ok identity => rfl
      · rfl

/-- So is an attachment. -/
theorem attachUpload_atomically :
    (attachUpload draftId uploadId).atomically.run db =
      (commitAttachment draftId uploadId).run db := by
  unfold attachUpload commitAttachment findDraftUpload
  simp only [Session.atomically_bind, Session.atomically_one, StateT.run_bind]
  cases hlock : (lockEditableDraft draftId).run db with
  | error e => simp
  | ok r =>
      obtain ⟨row, db'⟩ := r
      obtain ⟨-, -, -, rfl⟩ := lockEditableDraft_ok.mp hlock
      simp [ok_bind]
      cases hupload : (requireUpload uploadId).run db with
      | error e => simp
      | ok r =>
          obtain ⟨upload, db'⟩ := r
          simp [ok_bind]
          split
          · cases db'.draftUploads.find? (draftId, uploadId) with
            | some attached => rfl
            | none =>
                simp only [Except.map, ok_bind]
                simp
                rfl
          · rfl

/-- A detachment deletes its link and fails when there was none. -/
theorem detachUpload_atomically :
    (detachUpload draftId uploadId).atomically.run db =
      (commitDetachment draftId uploadId).run db := by
  unfold detachUpload commitDetachment deleteDraftUpload
  simp only [Session.atomically_bind, Session.atomically_one, StateT.run_bind, StateT.run_get]
  cases hlock : (lockEditableDraft draftId).run db with
  | error e => simp
  | ok r =>
      obtain ⟨row, db'⟩ := r
      simp [ok_bind]

/-- And a soft deletion. -/
theorem deleteDraft_atomically :
    (deleteDraft draftId now).atomically = commitDraftDeletion draftId now := by
  unfold deleteDraft commitDraftDeletion
  simp only [Session.atomically_bind, Session.atomically_one]

/-! ## What a draft lock protects -/

/-- The rows that a call on a draft reads and writes: the draft, its links, and the tables of
uploads and accounts, which no call on drafts changes. -/
def part (d : Uuid) (db : Database) :
    Option Draft × List DraftUpload × Table Upload × Table Account :=
  (db.drafts.find? d, db.draftUploads.select (·.draftId == d), db.uploads, db.accounts)

variable {α : Type} {P : Type} {s s' : Database}

theorem part_eq (h : part d s = part d s') : s.drafts.find? d = s'.drafts.find? d ∧
    s.draftUploads.select (·.draftId == d) = s'.draftUploads.select (·.draftId == d) ∧
      s.uploads = s'.uploads ∧ s.accounts = s'.accounts := by
  obtain ⟨hdraft, hrest⟩ := Prod.mk.inj h
  obtain ⟨hlinks, hrest⟩ := Prod.mk.inj hrest
  obtain ⟨huploads, haccounts⟩ := Prod.mk.inj hrest
  exact ⟨hdraft, hlinks, huploads, haccounts⟩

/-- A link of a draft is found among the links of the draft. -/
theorem find?_link (db : Database) : db.draftUploads.find? (d, uploadId) =
    (db.draftUploads.select (·.draftId == d)).find? (·.uploadId == uploadId) := by
  unfold Table.find? Table.select
  rw [List.find?_filter]
  refine congrFun (congrArg List.find? (funext fun l => ?_)) _
  simp [Keyed.key, Bool.decide_and]

theorem local_lockEditableDraft : LocalTo (part d) (lockEditableDraft d) := by
  refine ⟨fun s s' row s₁ hpart hrun => ?_⟩
  obtain ⟨hrow, hlive, hfree, rfl⟩ := lockEditableDraft_ok.mp hrun
  refine ⟨s', lockEditableDraft_ok.mpr ⟨?_, hlive, hfree, rfl⟩, hpart⟩
  rw [← (part_eq hpart).1, hrow]

theorem local_requireUpload : LocalTo (part d) (requireUpload uploadId) :=
  .of_read (fun p => (p.2.2.1.find? uploadId).elim
    (.error (.compose .notFound "No upload exists with this identifier." none)) .ok) fun s => by
      unfold requireUpload part
      cases hupload : s.uploads.find? uploadId <;> simp [hupload, Except.map]

theorem local_select {f : Database → Except Failure α}
    (h : ∀ s s', part d s = part d s' → f s = f s') : (select f).LocalTo (part d) := by
  refine .one ⟨fun s s' a s₁ hpart hrun => ?_⟩
  have hvalue : (f s).map (fun a => (a, s)) = .ok (a, s₁) := hrun
  obtain ⟨b, hb, hpair⟩ := except_map_eq_ok.mp hvalue
  obtain ⟨rfl, rfl⟩ := Prod.mk.inj hpair
  refine ⟨s', ?_, hpart⟩
  show (f s').map (fun a => (a, s')) = .ok (b, s')
  rw [← h s s' hpart, hb]
  rfl

theorem local_recordEvent {actor : Actor} {type entity : String} :
    LocalTo (part d) (Tx.recordEvent actor type entity draftId) := by
  refine ⟨fun s s' a s₁ hpart hrun => ?_⟩
  obtain ⟨-, rfl⟩ := Prod.mk.inj (Except.ok.inj hrun)
  exact ⟨_, rfl, hpart⟩

/-- Rewriting the row of a draft makes of it what the row determines. -/
theorem local_updateDraftRow {f : Draft → Draft} {hf : ∀ r, (f r).id = r.id} :
    LocalTo (part d) (updateDraftRow d f hf) := by
  refine ⟨fun s s' a s₁ hpart hrun => ?_⟩
  obtain ⟨-, rfl⟩ := Prod.mk.inj (Except.ok.inj hrun)
  obtain ⟨hdraft, hlinks, huploads, haccounts⟩ := part_eq hpart
  refine ⟨_, rfl, ?_⟩
  unfold part
  simp only [Table.find?_update, hdraft, hlinks, huploads, haccounts]

theorem attachmentBytes_congr (h : part d s = part d s') :
    attachmentBytes d s = attachmentBytes d s' := by
  obtain ⟨-, hlinks, huploads, -⟩ := part_eq h
  unfold attachmentBytes draftLinks
  rw [hlinks, huploads]

theorem requireAttachmentBudget_ok {incoming : Upload} {u : Unit} :
    (requireAttachmentBudget d incoming).run s = .ok (u, s') ↔
      attachmentBytes d s + incoming.sizeBytes ≤ attachmentsTotalMaxBytes ∧ s = s' := by
  unfold requireAttachmentBudget
  simp

theorem local_requireAttachmentBudget {incoming : Upload} :
    LocalTo (part d) (requireAttachmentBudget d incoming) := by
  refine ⟨fun s s' a s₁ hpart hrun => ?_⟩
  obtain ⟨hfits, rfl⟩ := requireAttachmentBudget_ok.mp hrun
  refine ⟨s', requireAttachmentBudget_ok.mpr ⟨?_, rfl⟩, hpart⟩
  rwa [← attachmentBytes_congr hpart]

/-- A link is inserted when neither its upload nor its position is taken. -/
theorem insertDraftUpload_ok {link : DraftUpload} {u : Unit} :
    (insertDraftUpload link).run s = .ok (u, s') ↔
      (∀ l ∈ s.draftUploads.select (·.draftId == link.draftId), l.ordinal ≠ link.ordinal) ∧
        ∃ t, s.draftUploads.insert? link = some t ∧ { s with draftUploads := t } = s' := by
  unfold insertDraftUpload
  simp
  exact fun _ _ _ => Iff.rfl

theorem local_insertDraftUpload {ordinal : ℕ} :
    LocalTo (part d) (insertDraftUpload ⟨d, uploadId, ordinal⟩) := by
  refine ⟨fun s s' a s₁ hpart hrun => ?_⟩
  obtain ⟨hdraft, hlinks, huploads, haccounts⟩ := part_eq hpart
  obtain ⟨hfree, t, hinsert, rfl⟩ := insertDraftUpload_ok.mp hrun
  have hnew : s.draftUploads.find? (d, uploadId) = none := Table.find?_of_insert? hinsert
  have hnew' : s'.draftUploads.find? (d, uploadId) = none := by
    rw [find?_link, ← hlinks, ← find?_link, hnew]
  have hroom : (s'.draftUploads.insert? ⟨d, uploadId, ordinal⟩).isSome = true :=
    Table.insert?_isSome.mpr hnew'
  obtain ⟨t', hinsert'⟩ := Option.isSome_iff_exists.mp hroom
  refine ⟨_, insertDraftUpload_ok.mpr ⟨hlinks ▸ hfree, t', hinsert', rfl⟩, ?_⟩
  have hselect := Table.select_insert? (p := fun l => l.draftId == d) hinsert
  have hselect' := Table.select_insert? (p := fun l => l.draftId == d) hinsert'
  unfold part
  simp only [hdraft, huploads, haccounts, hselect, hselect', hlinks]

theorem local_deleteDraftUpload : LocalTo (part d) (deleteDraftUpload d uploadId) := by
  refine ⟨fun s s' a s₁ hpart hrun => ?_⟩
  obtain ⟨hdraft, hlinks, huploads, haccounts⟩ := part_eq hpart
  obtain ⟨hfound, rfl⟩ := Prod.mk.inj (Except.ok.inj hrun)
  refine ⟨_, congrArg Except.ok (congrArg₂ Prod.mk ?_ rfl), ?_⟩
  · show (s'.draftUploads.find? (d, uploadId)).isSome = a
    rw [find?_link, ← hlinks, ← find?_link]
    exact hfound
  · unfold part
    simp only [hdraft, huploads, haccounts, Table.select_delete, hlinks]

end Statements

/-! ## The service -/

/-- A call on one draft; an edit and a deletion carry the time at which they run. -/
inductive DraftCall
  | updateDraft (requestGeneration : Option Uuid) (draftId : Uuid) (input : UpdateDraftInput)
      (now : Time)
  | attachUpload (requestGeneration : Option Uuid) (draftId uploadId : Uuid)
  | detachUpload (requestGeneration : Option Uuid) (draftId uploadId : Uuid)
  | deleteDraft (requestGeneration : Option Uuid) (draftId : Uuid) (now : Time)

namespace DraftCall

def requestGeneration : DraftCall → Option Uuid
  | updateDraft g _ _ _ | attachUpload g _ _ | detachUpload g _ _ | deleteDraft g _ _ => g

/-- The draft whose row the call locks. -/
def draftId : DraftCall → Uuid
  | updateDraft _ d _ _ | attachUpload _ d _ | detachUpload _ d _ | deleteDraft _ d _ => d

/-- What a call requires of its arguments. -/
def check : DraftCall → Except Failure Unit
  | updateDraft _ _ input _ =>
      if input.baseRevision < 1 ∨ maxSafeInteger < input.baseRevision then
        .error (invalidCompose "The base revision must be a positive integer.")
      else .ok ()
  | _ => .ok ()

end DraftCall

/-- What a call returns. -/
inductive DraftAnswer
  | record (r : DraftRecord)
  | link (upload : Upload) (ordinal : ℕ)
  | done
  deriving DecidableEq, Repr

/-- The statements of a call. -/
def DraftCall.session : DraftCall → Session Database Failure DraftAnswer
  | updateDraft _ d input now => do return .record (← DraftSessions.updateDraft d input now)
  | attachUpload _ d u => do
      let (upload, ordinal) ← DraftSessions.attachUpload d u
      return .link upload ordinal
  | detachUpload _ d u => do
      DraftSessions.detachUpload d u
      return .done
  | deleteDraft _ d now => do
      DraftSessions.deleteDraft d now
      return .done

/-- The calls on drafts in a process with a configured generation: each passes the recovery gate and
its own checks, and locks its draft. -/
def drafts (generation : Option Uuid) :
    Service Database Uuid Failure DraftCall DraftAnswer where
  enter c db := do
    let _ ← gateMutation generation c.requestGeneration db
    c.check
  key := DraftCall.draftId
  session := DraftCall.session
  fault := Failure.isDatabaseFault

/-! ## Protection -/

section Protection

variable {d u : Uuid} {s s' : Database}

theorem local_resolveEditIdentity {row : Draft} {requested : Option (Option String)} :
    (resolveEditIdentity row requested).LocalTo (part d) := by
  cases requested with
  | none => exact .pure _
  | some requested =>
      refine .bind (local_select fun s s' hpart => ?_) fun _ => .lift _
      unfold requireAccount
      rw [(part_eq hpart).2.2.2]

theorem local_updateDraft {input : UpdateDraftInput} {now : Time} :
    (updateDraft d input now).LocalTo (part d) := by
  refine .bind (.one local_lockEditableDraft) fun row => .ite (fun _ => .throw _) fun _ => ?_
  refine .bind local_resolveEditIdentity fun identity => .bind (.lift _) fun recipients =>
    .bind (.lift _) fun subject => .bind (.lift _) fun markdown => .ite (fun _ => ?_) fun _ => .lift _
  exact .bind (.one local_updateDraftRow) fun _ => .bind (.one local_recordEvent) fun _ => .lift _

theorem local_attachUpload : (attachUpload d u).LocalTo (part d) := by
  refine .bind (.one local_lockEditableDraft) fun draft => .bind (.one local_requireUpload)
    fun upload => .ite (fun _ => .throw _) fun _ => .bind (local_select ?_) fun found => ?_
  · intro s s' hpart
    rw [find?_link, find?_link, (part_eq hpart).2.1]
  · cases found with
    | some attached => exact .pure _
    | none =>
        refine .bind (.one local_requireAttachmentBudget) fun _ =>
          .bind (local_select fun s s' hpart => ?_) fun next =>
            .bind (.one local_insertDraftUpload) fun _ =>
              .bind (.one local_recordEvent) fun _ => .pure _
        unfold nextOrdinal draftLinks
        rw [(part_eq hpart).2.1]

theorem local_detachUpload : (detachUpload d u).LocalTo (part d) := by
  refine .bind (.one local_lockEditableDraft) fun _ => .bind (.one local_deleteDraftUpload)
    fun removed => .ite (fun _ => .throw _) fun _ => .one local_recordEvent

theorem local_deleteDraft {now : Time} : (deleteDraft d now).LocalTo (part d) :=
  .bind (.one local_lockEditableDraft) fun _ => .bind (.one local_updateDraftRow) fun _ =>
    .one local_recordEvent

/-- Every statement of a call stays within what the lock of its draft protects. -/
theorem session_local (c : DraftCall) : c.session.LocalTo (part c.draftId) := by
  cases c with
  | updateDraft g d input now => exact .bind local_updateDraft fun _ => .pure _
  | attachUpload g d u => exact .bind local_attachUpload fun _ => .pure _
  | detachUpload g d u => exact .bind local_detachUpload fun _ => .pure _
  | deleteDraft g d now => exact .bind local_deleteDraft fun _ => .pure _

end Protection

end MailHub.DraftSessions
