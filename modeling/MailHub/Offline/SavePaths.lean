import MailHub.Compose.Edits
import MailHub.Compose.RecipientText
import MailHub.Offline.Port

/-!
# The two ways a draft edit is saved

The editor spreads the whole patch into the body of its request; the replay of a queued save strips
the fields that the route cannot carry. Both bodies go through one route: its schema, the recovery
gate, and the transaction of the edit.
-/

namespace MailHub.Offline

open Relational Interleaving MailHub

/-! ## The route -/

/-- The schema of an address. -/
def addressSchema (address : String) : Bool := 3 ≤ address.length && address.length ≤ 320

/-- The schema of one recipient list. -/
def recipientListSchema (list : List EmailAddress) : Bool :=
  list.length ≤ 100 &&
    list.all fun entry => addressSchema entry.address && entry.name.all (·.length ≤ 128)

/-- The schema of a recipient list set. -/
def recipientsSchema (recipients : Recipients) : Bool :=
  recipientListSchema recipients.«to» && recipientListSchema recipients.cc &&
    recipientListSchema recipients.bcc

/-- The schema of a field that may be absent: what is present has to satisfy `p`, and `null` is
accepted if `nullable` says so. -/
def fieldSchema {α : Type} (nullable : Bool) (p : α → Bool) : Option (Option α) → Bool
  | none => true
  | some none => nullable
  | some (some value) => p value

/-- The schema of the body of `PATCH /drafts/:id`. -/
def draftEditSchema (body : UpdateDraftInput) : Bool :=
  1 ≤ body.baseRevision && fieldSchema false addressSchema body.identity &&
    fieldSchema false recipientsSchema body.recipients &&
    fieldSchema true (·.length ≤ 4096) body.subject &&
    fieldSchema true (·.length ≤ markdownMax) body.markdown

/-- The server: its deployment, and what its validator says of a body that breaks the schema. -/
structure Server where
  deployment : Deployment
  explain : UpdateDraftInput → String

/-- The handler of `PATCH /drafts/:id`. -/
def Server.patchDraft (server : Server) (requestGeneration : Option Uuid) (draftId : Uuid)
    (body : UpdateDraftInput) : MailProgram DraftRecord := do
  if draftEditSchema body = false then
    throw (invalidCompose (server.explain body))
  updateDraft server.deployment requestGeneration draftId body

/-- A request that runs on a database while the clock shows `now`: its answer and the database that
it leaves. -/
def runAt {α : Type} (now : Time) : MailProgram α → Database → Option (Except Failure α × Database)
  | .pure a, db => some (.ok a, db)
  | .throw e, db => some (.error e, db)
  | .halt, _ => none
  | .atomic _ f k, db =>
      match f db with
      | .ok (b, db') => runAt now (k (.ok b)) db'
      | .error e => runAt now (k (.error e)) db
  | .call .now k, db => runAt now (k (.ok now)) db
  | .call _ _, _ => none

/-- What a request does on the server: the record that it answers, or that it is refused, and the
database that it leaves. -/
def effectOf (now : Time) (program : MailProgram DraftRecord) (db : Database) :
    Option (Option DraftRecord × Database) :=
  (runAt now program db).map fun r => (r.1.toOption, r.2)

/-! ## What the two ways have in common -/

/-- The patch carries no `null` for the identity or the recipients. -/
def CarriesNoNull (patch : DraftEditPatch) : Prop :=
  patch.identity ≠ some none ∧ patch.recipients ≠ some none

/-- The server takes the fields that a replay keeps: each passes the schema and its validation. -/
structure Acceptable (patch : DraftEditPatch) : Prop where
  schema : draftEditSchema (editBody patch 1) = true
  identity : ∀ address, patch.identity = some (some address) →
    (normalizeEmailAddress address).isOk = true
  recipients : ∀ recipients, patch.recipients = some (some recipients) →
    (normalizeRecipients (some recipients)).isOk = true
  subject : ∀ subject, patch.subject = some subject → (normalizeSubject subject).isOk = true
  markdown : ∀ markdown, patch.markdown = some markdown → (normalizeMarkdown markdown).isOk = true

/-- Without a `null` both ways send the same body. -/
theorem editBody_eq (patch : DraftEditPatch) (baseRevision : ℕ) (h : CarriesNoNull patch) :
    editBody patch baseRevision = patch.toInput baseRevision := by
  obtain ⟨hidentity, hrecipients⟩ := h
  have hkept : ∀ {α : Type} (field : Option (Option α)), field ≠ some none →
      (field.bind fun value => value.map some) = field := by
    intro α field hfield
    rcases field with _ | _ | value
    · rfl
    · exact absurd rfl hfield
    · rfl
  unfold editBody DraftEditPatch.toInput
  rw [hkept _ hidentity, hkept _ hrecipients]

/-- The schema refuses a body with a `null` for the identity or the recipients. -/
theorem draftEditSchema_of_null {patch : DraftEditPatch} (h : ¬ CarriesNoNull patch)
    (baseRevision : ℕ) : draftEditSchema (patch.toInput baseRevision) = false := by
  unfold CarriesNoNull at h
  have hnull : patch.identity = some none ∨ patch.recipients = some none := by tauto
  unfold draftEditSchema DraftEditPatch.toInput
  rcases hnull with hnull | hnull <;> simp [hnull, fieldSchema]

/-- A body that breaks the schema is refused before anything else runs. -/
theorem effectOf_of_schema {server : Server} {generation : Option Uuid} {draftId : Uuid}
    {body : UpdateDraftInput} {now : Time} {db : Database} (h : draftEditSchema body = false) :
    effectOf now (server.patchDraft generation draftId body) db = some (none, db) := by
  unfold Server.patchDraft
  rw [if_pos h]
  rfl

/-! ## Runs of the request -/

section Runs

variable {α β : Type} {now : Time} {db db' : Database}

/-- A sequence goes on with the value and the database that its first part leaves. -/
theorem runAt_bind {p : MailProgram α} {g : α → MailProgram β} {a : α}
    (h : runAt now p db = some (.ok a, db')) :
    runAt now (p >>= g) db = runAt now (g a) db' := by
  rw [Program.bind_eq]
  induction p generalizing db with
  | pure b =>
      obtain ⟨rfl, rfl⟩ : b = a ∧ db = db' := by simpa [runAt] using h
      rfl
  | throw e => simp [runAt] at h
  | halt => simp [runAt] at h
  | atomic tag f k ih =>
      simp only [Program.bind, runAt] at h ⊢
      split at h
      · exact ih _ h
      · exact ih _ h
  | call c k ih =>
      cases c <;> simp only [Program.bind, runAt] at h ⊢ <;> first | exact ih _ h | simp at h

/-- A sequence fails where its first part does. -/
theorem runAt_bind_error {p : MailProgram α} {g : α → MailProgram β} {e : Failure}
    (h : runAt now p db = some (.error e, db')) :
    runAt now (p >>= g) db = some (.error e, db') := by
  rw [Program.bind_eq]
  induction p generalizing db with
  | pure b => simp [runAt] at h
  | throw e' =>
      obtain ⟨rfl, rfl⟩ : e' = e ∧ db = db' := by simpa [runAt] using h
      rfl
  | halt => simp [runAt] at h
  | atomic tag f k ih =>
      simp only [Program.bind, runAt] at h ⊢
      split at h
      · exact ih _ h
      · exact ih _ h
  | call c k ih =>
      cases c <;> simp only [Program.bind, runAt] at h ⊢ <;> first | exact ih _ h | simp at h

theorem runAt_now : runAt now MailProgram.now db = some (.ok now, db) := rfl

/-- A transaction that commits leaves its database. -/
theorem runAt_transact {t : Tx α} {a : α} (h : t.run db = .ok (a, db')) :
    runAt now (MailProgram.transact t) db = some (.ok a, db') := by
  unfold MailProgram.transact Program.transaction
  rw [runAt, h]
  rfl

/-- A transaction that fails leaves the database as it was. -/
theorem runAt_transact_error {t : Tx α} {e : Failure} (h : t.run db = .error e) :
    runAt now (MailProgram.transact t) db = some (.error e, db) := by
  unfold MailProgram.transact Program.transaction
  rw [runAt, h]
  rfl

theorem runAt_gate (now : Time) (d : Deployment) (requestGeneration : Option Uuid)
    (db : Database) : runAt now (d.gate requestGeneration) db =
      some (gateMutation d.generation requestGeneration db, db) := by
  have hquery : runAt now (MailProgram.query (gateMutation d.generation requestGeneration)) db =
      some (.ok (gateMutation d.generation requestGeneration db), db) := rfl
  unfold Deployment.gate
  rw [runAt_bind hquery]
  unfold MailProgram.lift
  cases gateMutation d.generation requestGeneration db <;> rfl

end Runs

variable {server : Server} {draftId : Uuid} {body : UpdateDraftInput} {now : Time}
  {db db' : Database}

/-- A body that passes the schema and the gate does what its transaction does. -/
theorem effectOf_of_commit {generation : Uuid} {record : DraftRecord}
    (hschema : draftEditSchema body = true)
    (hgate : gateMutation server.deployment.generation (some generation) db = .ok generation)
    (hbase : body.baseRevision ≤ maxSafeInteger)
    (hcommit : (commitDraftUpdate draftId body now).run db = .ok (record, db')) :
    effectOf now (server.patchDraft (some generation) draftId body) db =
      some (some record, db') := by
  have hpositive : 1 ≤ body.baseRevision := by
    unfold draftEditSchema at hschema
    simp only [Bool.and_eq_true, decide_eq_true_eq] at hschema
    exact hschema.1.1.1.1
  have hbounds : ¬ (body.baseRevision < 1 ∨ maxSafeInteger < body.baseRevision) := by omega
  have hgateRun := runAt_gate now server.deployment (some generation) db
  rw [hgate] at hgateRun
  unfold effectOf Server.patchDraft updateDraft
  rw [if_neg (by simp [hschema]), runAt_bind hgateRun, if_neg hbounds, runAt_bind runAt_now,
    runAt_transact hcommit]
  rfl

/-- A body whose transaction fails in every database is refused, and nothing changes. -/
theorem effectOf_of_fails {requestGeneration : Option Uuid}
    (h : ∀ now db, ∃ e, (commitDraftUpdate draftId body now).run db = .error e) :
    effectOf now (server.patchDraft requestGeneration draftId body) db = some (none, db) := by
  by_cases hschema : draftEditSchema body = false
  · exact effectOf_of_schema hschema
  obtain ⟨e, hrun⟩ := h now db
  have hgateRun := runAt_gate now server.deployment requestGeneration db
  unfold effectOf Server.patchDraft updateDraft
  rw [if_neg hschema]
  cases hgate : gateMutation server.deployment.generation requestGeneration db with
  | error e' =>
      rw [hgate] at hgateRun
      rw [runAt_bind_error hgateRun]
      rfl
  | ok generation =>
      rw [hgate] at hgateRun
      rw [runAt_bind hgateRun]
      by_cases hbounds : body.baseRevision < 1 ∨ maxSafeInteger < body.baseRevision
      · rw [if_pos hbounds]
        rfl
      · rw [if_neg hbounds, runAt_bind runAt_now, runAt_transact_error hrun]
        rfl

/-- A transaction that commits has validated every field that a replay sends. -/
theorem acceptable_of_commit {patch : DraftEditPatch} {baseRevision : ℕ} {record : DraftRecord}
    (hschema : draftEditSchema (editBody patch 1) = true)
    (h : (commitDraftUpdate draftId (editBody patch baseRevision) now).run db =
      .ok (record, db')) : Acceptable patch := by
  obtain ⟨row, row', haccepted⟩ := commitDraftUpdate_ok h
  have hnamed := haccepted.named
  refine ⟨hschema, fun address hpatch => ?_, fun recipients hpatch => ?_, fun subject hpatch => ?_,
    fun markdown hpatch => ?_⟩
  · have hbody : (editBody patch baseRevision).identity = some (some address) := by
      simp [editBody, hpatch]
    obtain ⟨identities, hresolved⟩ := hnamed .identity (by simp [UpdateDraftInput.sets, hbody]) _ hbody
    cases identities with
    | nil => simp [resolveIdentity] at hresolved
    | cons first rest =>
        obtain ⟨normal, hnormal, -⟩ := bind_eq_ok.mp hresolved
        simp [hnormal, Except.isOk, Except.toBool]
  · have hbody : (editBody patch baseRevision).recipients = some (some recipients) := by
      simp [editBody, hpatch]
    have hvalid := hnamed .recipients (by simp [UpdateDraftInput.sets, hbody]) _ hbody
    simp [hvalid, Except.isOk, Except.toBool]
  · have hvalid := hnamed .subject (by simp [UpdateDraftInput.sets, editBody, hpatch]) _ hpatch
    simp [hvalid, Except.isOk, Except.toBool]
  · have hvalid := hnamed .markdown (by simp [UpdateDraftInput.sets, editBody, hpatch]) _ hpatch
    simp [hvalid, Except.isOk, Except.toBool]

/-- A replay that carries a field the server does not take is refused, and nothing changes. -/
theorem effectOf_replay_refused {patch : DraftEditPatch} (h : ¬ Acceptable patch)
    {requestGeneration : Option Uuid} {baseRevision : ℕ} :
    effectOf now (server.patchDraft requestGeneration draftId (editBody patch baseRevision)) db =
      some (none, db) := by
  by_cases hschema : draftEditSchema (editBody patch 1) = true
  · refine effectOf_of_fails fun now db => ?_
    cases hrun : (commitDraftUpdate draftId (editBody patch baseRevision) now).run db with
    | ok r => exact absurd (acceptable_of_commit hschema hrun) h
    | error e => exact ⟨e, rfl⟩
  · refine effectOf_of_schema ?_
    -- the base revision only adds a check of its own
    unfold draftEditSchema editBody at hschema ⊢
    simp only [le_refl, decide_true, Bool.true_and, Bool.not_eq_true] at hschema
    simp only [Bool.and_assoc] at hschema ⊢
    rw [hschema, Bool.and_false]

/-! ## A database in which a patch is taken -/

/-- An empty draft of account 1. -/
def emptyDraft : Draft where
  id := 10
  accountId := 1
  identity := ⟨"a@b.cc", none⟩
  threadId := none
  replyParentId := none
  inReplyTo := none
  referenceIds := []
  recipients := { «to» := [] }
  subject := none
  markdown := ""
  revision := 1
  lockedBySend := none
  updatedAt := 0
  deletedAt := none

/-- A ready database with the empty draft, whose account sends as `address`. -/
def draftDatabase (address : String) : Database :=
  { Database.empty with
    serviceState := some ⟨1, .ready⟩
    accounts := Table.empty.put ⟨1, [⟨⟨address, none⟩, true⟩], false⟩
    drafts := Table.empty.put emptyDraft }

/-- A server of generation 1 that handles no files. -/
def emptyServer : Server where
  deployment := ⟨some 1, ⟨fun _ => "", fun _ => .ok [], fun _ => .error "", id, fun _ _ => ""⟩⟩
  explain := fun _ => ""

/-- A patched field has a value when the validation takes what the input names. -/
theorem patched_exists {α β : Type} {current : α} {input : Option β}
    {normalize : β → Except Failure α} (h : ∀ v, input = some v → (normalize v).isOk = true) :
    ∃ value, patched current input normalize = .ok value := by
  cases input with
  | none => exact ⟨current, rfl⟩
  | some v =>
      have hok := h v rfl
      cases hvalue : normalize v with
      | ok value => exact ⟨value, hvalue⟩
      | error e => simp [hvalue, Except.isOk, Except.toBool] at hok

/-- An account with one identity takes the patches that name it. -/
theorem patched_identity {patch : DraftEditPatch} (h : Acceptable patch) :
    ∃ address identity, patched emptyDraft.identity (editBody patch 1).identity (fun requested => do
      let account ← requireAccount emptyDraft.accountId (draftDatabase address)
      resolveIdentity account.identities requested) = .ok identity := by
  rcases hpatch : patch.identity with _ | _ | requested
  · exact ⟨"a@b.cc", emptyDraft.identity, by simp [editBody, hpatch, patched]⟩
  · exact ⟨"a@b.cc", emptyDraft.identity, by simp [editBody, hpatch, patched]⟩
  · have hok := h.identity requested hpatch
    cases hnormal : normalizeEmailAddress requested with
    | error e => simp [hnormal, Except.isOk, Except.toBool] at hok
    | ok address =>
        have haccount : requireAccount emptyDraft.accountId (draftDatabase address) =
            .ok ⟨1, [⟨⟨address, none⟩, true⟩], false⟩ := rfl
        exact ⟨address, ⟨address, none⟩,
          by simp [editBody, hpatch, patched, haccount, resolveIdentity, hnormal]⟩

/-- The recipients that a patch leaves are normalized. -/
theorem patched_recipients {patch : DraftEditPatch} (h : Acceptable patch) :
    ∃ recipients, patched emptyDraft.recipients (editBody patch 1).recipients normalizeRecipients =
        .ok recipients ∧ normalizeRecipients (some recipients) = .ok recipients := by
  rcases hpatch : patch.recipients with _ | _ | requested
  · exact ⟨emptyDraft.recipients, by simp [editBody, hpatch, patched], rfl⟩
  · exact ⟨emptyDraft.recipients, by simp [editBody, hpatch, patched], rfl⟩
  · have hok := h.recipients requested hpatch
    cases hnormal : normalizeRecipients (some requested) with
    | error e => simp [hnormal, Except.isOk, Except.toBool] at hok
    | ok recipients =>
        exact ⟨recipients, by simp [editBody, hpatch, patched, hnormal],
          normalizeRecipients_normalized hnormal⟩

/-- The empty draft takes every patch that is acceptable. -/
theorem commit_of_acceptable {patch : DraftEditPatch} (h : Acceptable patch) :
    ∃ address record db', (commitDraftUpdate 10 (editBody patch 1) 0).run (draftDatabase address) =
      .ok (record, db') := by
  obtain ⟨address, identity, hidentity⟩ := patched_identity h
  obtain ⟨recipients, hrecipients, hfixed⟩ := patched_recipients h
  obtain ⟨subject, hsubject⟩ : ∃ subject, patched emptyDraft.subject (editBody patch 1).subject
      normalizeSubject = .ok subject := patched_exists h.subject
  obtain ⟨markdown, hmarkdown⟩ : ∃ markdown, patched emptyDraft.markdown (editBody patch 1).markdown
      normalizeMarkdown = .ok markdown := patched_exists h.markdown
  have hdraft : (draftDatabase address).drafts.find? 10 = some emptyDraft := rfl
  have hlock : (lockEditableDraft 10).run (draftDatabase address) =
      .ok (emptyDraft, draftDatabase address) := lockEditableDraft_ok.mpr ⟨hdraft, rfl, rfl, rfl⟩
  have hbase : emptyDraft.revision = (editBody patch 1).baseRevision := rfl
  have hsame : normalizeRecipients (some emptyDraft.recipients) = .ok emptyDraft.recipients := rfl
  refine ⟨address, ?_⟩
  unfold commitDraftUpdate
  by_cases hnames : (editBody patch 1).namesField = true
  · simp [hlock, hbase, hidentity, hrecipients, hsubject, hmarkdown, hnames, updateDraftRow,
      toDraftRecord, hfixed]
  · simp [hlock, hbase, hidentity, hrecipients, hsubject, hmarkdown, hnames, toDraftRecord, hsame]

/-! ## Both ways save alike -/

/-- A patch does the same to every draft of every server, whether its save is replayed or spread
into a request. -/
def SavesAgree (patch : DraftEditPatch) : Prop :=
  ∀ (server : Server) (requestGeneration : Option Uuid) (draftId : Uuid) (baseRevision : ℕ)
    (now : Time) (db : Database),
    effectOf now (server.patchDraft requestGeneration draftId (editBody patch baseRevision)) db =
      effectOf now (server.patchDraft requestGeneration draftId (patch.toInput baseRevision)) db

/-- The two ways save alike exactly when the patch carries no `null` that a replay strips, or when
the server refuses the rest of the patch anyway. -/
theorem saves_agree_iff (patch : DraftEditPatch) :
    SavesAgree patch ↔ CarriesNoNull patch ∨ ¬ Acceptable patch := by
  constructor
  · intro hagree
    by_contra hneither
    obtain ⟨hnull, hacceptable⟩ : ¬ CarriesNoNull patch ∧ Acceptable patch := by tauto
    obtain ⟨address, record, db', hcommit⟩ := commit_of_acceptable hacceptable
    have hgate : gateMutation emptyServer.deployment.generation (some 1) (draftDatabase address) =
        .ok 1 := gateMutation_eq_ok_iff.mpr ⟨rfl, rfl, rfl⟩
    have hbase : (editBody patch 1).baseRevision ≤ maxSafeInteger := by
      show 1 ≤ maxSafeInteger
      decide
    have hreplay := effectOf_of_commit hacceptable.schema hgate hbase hcommit
    rw [hagree, effectOf_of_schema (draftEditSchema_of_null hnull 1)] at hreplay
    simp at hreplay
  · rintro (hplain | hrefused) server requestGeneration draftId baseRevision now db
    · rw [editBody_eq patch baseRevision hplain]
    · by_cases hnull : CarriesNoNull patch
      · rw [editBody_eq patch baseRevision hnull]
      · rw [effectOf_replay_refused hrefused,
          effectOf_of_schema (draftEditSchema_of_null hnull baseRevision)]

/-! ## Samples -/

/-- Resetting the identity and naming a subject. -/
def resetIdentity : DraftEditPatch where
  identity := some none
  subject := some (some "Plans")

/-- A replay stores the new subject, and the request with the same patch is refused. -/
theorem saves_differ :
    (effectOf 0 (emptyServer.patchDraft (some 1) 10 (editBody resetIdentity 1))
        (draftDatabase "a@b.cc")).map (fun r => r.1.map fun d => (d.subject, d.revision)) =
      some (some (some "Plans", 2)) ∧
    effectOf 0 (emptyServer.patchDraft (some 1) 10 (resetIdentity.toInput 1))
        (draftDatabase "a@b.cc") = some (none, draftDatabase "a@b.cc") ∧
    ¬ SavesAgree resetIdentity := by
  have hreplay : (effectOf 0 (emptyServer.patchDraft (some 1) 10 (editBody resetIdentity 1))
        (draftDatabase "a@b.cc")).map (fun r => r.1.map fun d => (d.subject, d.revision)) =
      some (some (some "Plans", 2)) := rfl
  have honline : effectOf 0 (emptyServer.patchDraft (some 1) 10 (resetIdentity.toInput 1))
        (draftDatabase "a@b.cc") = some (none, draftDatabase "a@b.cc") :=
    effectOf_of_schema (by decide)
  refine ⟨hreplay, honline, fun hagree => ?_⟩
  have heffect := hagree emptyServer (some 1) 10 1 0 (draftDatabase "a@b.cc")
  rw [heffect, honline] at hreplay
  simp at hreplay

end MailHub.Offline
