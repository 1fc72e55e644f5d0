import MailHub.Interleaving.Roles
import MailHub.Offline.Editor
import MailHub.Offline.Runs
import MailHub.Offline.Sync

/-!
# Files that the owner detached

The record of an upload outlives the link to its draft on the server. The editor links every
record that its list does not show, and the replay of a send links every record that is not marked
as attached; neither can tell whether the link never came about or the owner has removed it.
-/

namespace MailHub.Offline

open Relational Interleaving MailHub

/-! ## The links of the server -/

/-- One file of one draft. -/
structure DraftFile where
  draftId : Uuid
  uploadId : Uuid
  deriving DecidableEq, Repr

/-- The links that the server holds, and the files that the owner has detached and not attached
again. -/
structure LinkLog where
  linked : List DraftFile
  detached : List DraftFile
  deriving DecidableEq, Repr

namespace LinkLog

def start : LinkLog := ⟨[], []⟩

/-- An attach step takes effect. -/
def link (file : DraftFile) (o : LinkLog) : LinkLog := { o with linked := o.linked ++ [file] }

/-- The files of a draft as the server lists them. -/
def filesOf (draftId : Uuid) (o : LinkLog) : List Uuid :=
  (o.linked.filter (·.draftId == draftId)).map (·.uploadId)

/-- The links after an answer; an attach step may take effect although its answer is lost. -/
def respond (_ : ℕ) :
    (c : OfflineCall) → Except OfflineFailure c.Answer → LinkLog → Option LinkLog
  | .postAttachment _ _ draftId uploadId, r, o =>
      match r with
      | .ok _ | .error (.lost (some _)) => some (o.link ⟨draftId, uploadId⟩)
      | .error _ => some o
  | .getAttachments draftId, r, o =>
      match r with
      | .ok ids => if o.filesOf draftId == ids then some o else none
      | .error _ => some o
  | _, _, o => some o

end LinkLog

/-- What the owner does about a file: add it to the draft, or remove it. -/
inductive OwnerStep
  | attach (file : DraftFile)
  | detach (file : DraftFile)
  deriving DecidableEq, Repr

/-- The links after the owner's step; only what is linked can be removed. -/
def OwnerStep.advance : OwnerStep → LinkLog → Option LinkLog
  | attach file, o => some ⟨o.linked ++ [file], o.detached.filter (· != file)⟩
  | detach file, o =>
      if file ∈ o.linked then some ⟨o.linked.filter (· != file), o.detached ++ [file]⟩ else none

/-! ## What the device does -/

/-- What the device does about the files of its drafts. -/
inductive LinkOp
  | enqueueUpload (upload : OfflineStore.NewUpload)
  | markUploadAcknowledged (localId serverId : Uuid)
  /-- Any other statement of the store. -/
  | statement (w : Write)
  /-- An editor reconciles the list that it shows. -/
  | attachAcknowledgedUploads (draftId : Uuid) (attached : List Uuid)
  /-- A queued send is replayed. -/
  | queueSend (draftId : Uuid) (idempotencyKey : String) (baseRevision : ℕ)

/-- The program of each operation. -/
def LinkOp.run : LinkOp → OfflineProgram Unit
  | enqueueUpload upload => do let _ ← Offline.enqueueUpload upload
  | markUploadAcknowledged localId serverId =>
      OfflineStore.markUploadAcknowledged localId serverId
  | statement w => OfflineStore.write w
  | attachAcknowledgedUploads draftId attached => Offline.attachAcknowledgedUploads draftId attached
  | queueSend draftId idempotencyKey baseRevision => do
      let _ ← Offline.queueSend draftId idempotencyKey baseRevision

/-- One device, its server and its owner; the browser's storage may fail. -/
def linkSystem : System offlineSignature LinkLog where
  Op := LinkOp
  program := LinkOp.run
  Tick := OwnerStep
  advance := OwnerStep.advance
  respond := LinkLog.respond
  fault := fun e => e matches OfflineFailure.storage _
  observe := fun _ _ _ _ o => o
  observe_read := fun _ _ _ => rfl
  retire := fun _ o => o

/-- The moments that runs reach when each event meets `P`. -/
inductive LinkReaches (P : Config offlineSignature LinkLog → Event linkSystem → Prop)
    (c₀ : Config offlineSignature LinkLog) : Config offlineSignature LinkLog → Prop
  | start : LinkReaches P c₀ c₀
  | next {c c' : Config offlineSignature LinkLog} (e : Event linkSystem) :
      LinkReaches P c₀ c → P c e → c.fire linkSystem e = some c' → LinkReaches P c₀ c'

/-- The start of a run: nothing is under way, and the server links nothing; the device may hold
anything. -/
structure LinkStart (c : Config offlineSignature LinkLog) : Prop where
  outside : c.world.outside = .start
  workers : c.workers = []

/-! ## Keeping out of the owner's way -/

/-- Everything but linking one file. -/
def sparing (file : DraftFile) : Vocabulary offlineSignature where
  commit := fun _ _ _ => True
  call := fun c => ∀ editor generation,
    c ≠ OfflineCall.postAttachment editor generation file.draftId file.uploadId

/-- No record that an operation reads makes it link a file that the owner has detached. -/
def LinkOp.ReadsClean (w : World offlineSignature LinkLog) : LinkOp → Prop
  | attachAcknowledgedUploads draftId attached => ∀ u ∈ OfflineStore.uploadsOf draftId w.store,
      ∀ id, u.serverId = some id → id ∉ attached → ⟨draftId, id⟩ ∉ w.outside.detached
  | queueSend draftId _ _ => ∀ u ∈ OfflineStore.uploadsOf draftId w.store,
      ∀ id, u.serverId = some id → u.attachedAt = none → ⟨draftId, id⟩ ∉ w.outside.detached
  | _ => True

/-- An operation reads the records only when none names a file that it would link although the
owner has detached it, and the owner detaches a file only when nothing under way can still link
it. -/
def KeepsApart (c : Config offlineSignature LinkLog) : Event linkSystem → Prop
  | .commit i => ∀ op : LinkOp, c.workers[i]? = some op.run → op.ReadsClean c.world
  | .tick (.detach file) => ∀ p ∈ c.workers, p.Within (sparing file)
  | _ => True

/-! ## What the programs link -/

section Sparing

variable {file : DraftFile} {draftId : Uuid}

theorem spares_write {w : Write} : (OfflineStore.write w).Within (sparing file) :=
  ⟨fun _ _ _ _ => trivial, fun r => .ofExcept r⟩

theorem spares_look {α : Type} {tag : StoreTag} {f : Device → α} :
    (OfflineStore.look tag f).Within (sparing file) :=
  ⟨fun _ _ _ _ => trivial, fun r => .ofExcept r⟩

theorem spares_read {α : Type} {f : Device → α} :
    (OfflineStore.read f).Within (sparing file) := .read fun _ => trivial

theorem spares_timestamp : OfflineStore.timestamp.Within (sparing file) :=
  .request fun _ _ h => by cases h

theorem spares_generateId : OfflineStore.generateId.Within (sparing file) :=
  .request fun _ _ h => by cases h

theorem spares_apiPostAttachment {editor : Bool} {generation : Option Uuid} {id : Uuid}
    (h : (⟨draftId, id⟩ : DraftFile) ≠ file) :
    (apiPostAttachment editor generation draftId id).Within (sparing file) := by
  refine .request fun editor' generation' heq => h ?_
  obtain ⟨-, -, rfl, rfl⟩ := OfflineCall.postAttachment.inj heq
  rfl

theorem spares_markUploadAttached {localId : Uuid} :
    (OfflineStore.markUploadAttached localId).Within (sparing file) :=
  .bind spares_timestamp fun _ => spares_write

theorem spares_enqueueUpload {upload : OfflineStore.NewUpload} :
    (Offline.enqueueUpload upload).Within (sparing file) := by
  refine .bind spares_read fun generation => ?_
  cases generation with
  | none => exact .throw _
  | some generation =>
      refine .bind spares_generateId fun localId => .bind spares_timestamp fun createdAt => ?_
      refine .bind ?_ fun action => .bind spares_write fun _ => .pure _
      exact .bind spares_generateId fun _ => .bind spares_timestamp fun _ => .pure _

/-- An editor links only records that its list does not show. -/
theorem spares_attachEach {attached : List Uuid} {uploads : List LocalUpload}
    (h : ∀ u ∈ uploads, ∀ id, u.serverId = some id → id ∉ attached →
      (⟨draftId, id⟩ : DraftFile) ≠ file) :
    (attachEach draftId attached uploads).Within (sparing file) := by
  induction uploads with
  | nil => exact .pure _
  | cons upload uploads ih =>
      have hrest := ih fun u hu => h u (List.mem_cons_of_mem _ hu)
      have hfirst := h upload List.mem_cons_self
      unfold attachEach
      cases hserver : upload.serverId with
      | none => exact hrest
      | some serverId =>
          refine .ite (fun _ => .bind spares_markUploadAttached fun _ => hrest) fun hnew => ?_
          have hfile := hfirst serverId hserver (by simpa using hnew)
          refine .bind (.attempt (.bind (.request fun _ _ heq => by cases heq) fun generation =>
            ?_)) fun _ => hrest
          exact .bind (spares_apiPostAttachment hfile) fun _ => spares_markUploadAttached

theorem spares_attachUpload {upload : LocalUpload} {id : Uuid} {known : Option (List Uuid)}
    (h : (⟨draftId, id⟩ : DraftFile) ≠ file) :
    (attachUpload draftId upload id known).Within (sparing file) := by
  have hlink : ∀ ids : List Uuid, Program.Within (sparing file) (do
      if !ids.contains id then
        let generation ← generationHeaders
        apiPostAttachment false generation draftId id
      OfflineStore.markUploadAttached upload.localId
      return ids : OfflineProgram (List Uuid)) := by
    intro ids
    have hmark : Program.Within (sparing file) (do
        OfflineStore.markUploadAttached upload.localId
        return ids : OfflineProgram (List Uuid)) :=
      .bind spares_markUploadAttached fun _ => .pure _
    refine .ite (fun _ => ?_) fun _ => hmark
    exact .bind spares_look fun _ => .bind (spares_apiPostAttachment h) fun _ => hmark
  cases known with
  | some ids => exact hlink ids
  | none => exact .bind (.request fun _ _ heq => by cases heq) fun ids => hlink ids

/-- The replay of a send links only records that are not marked as attached. -/
theorem spares_attachUploads {uploads : List LocalUpload} {known : Option (List Uuid)}
    (h : ∀ u ∈ uploads, ∀ id, u.serverId = some id → u.attachedAt = none →
      (⟨draftId, id⟩ : DraftFile) ≠ file) :
    (attachUploads draftId uploads known).Within (sparing file) := by
  induction uploads generalizing known with
  | nil => exact .pure _
  | cons upload uploads ih =>
      have hrest : ∀ known, (attachUploads draftId uploads known).Within (sparing file) :=
        fun _ => ih fun u hu => h u (List.mem_cons_of_mem _ hu)
      have hfirst := h upload List.mem_cons_self
      unfold attachUploads
      cases hserver : upload.serverId with
      | none => exact .pure _
      | some id =>
          refine .ite (fun _ => hrest _) fun hunmarked => ?_
          have hfile := hfirst id hserver (by simpa using hunmarked)
          refine .bind (.attempt (spares_attachUpload hfile)) fun r => ?_
          cases r with
          | ok ids => exact hrest _
          | error e => exact .pure _

end Sparing

/-! ## What every moment keeps -/

variable {c c' c₀ : Config offlineSignature LinkLog} {e : Event linkSystem} {i : ℕ}

/-- What a moment keeps: no file that the owner has detached is linked, and whoever has read the
records links none of them. -/
structure FilesApart (c : Config offlineSignature LinkLog) : Prop where
  detached : ∀ file ∈ c.world.outside.detached, file ∉ c.world.outside.linked
  workers : ∀ p ∈ c.workers, (∃ op : LinkOp, p = op.run) ∨
    ∀ file ∈ c.world.outside.detached, p.Within (sparing file)

/-- An operation links nothing at all, or it begins by reading the records. -/
theorem LinkOp.begins (op : LinkOp) (file : DraftFile) :
    op.run.Within (sparing file) ∨ ∃ (tag : Option StoreTag) (g : Device → List LocalUpload)
      (k : Except OfflineFailure (List LocalUpload) → OfflineProgram Unit),
      op.run = .atomic tag (fun s => .ok (g s, s)) k ∧
      (∀ e, (k (.error e)).Within (sparing file)) ∧
      ∀ w : World offlineSignature LinkLog, op.ReadsClean w → file ∈ w.outside.detached →
        (k (.ok (g w.store))).Within (sparing file) := by
  cases op with
  | enqueueUpload upload => exact .inl (.bind spares_enqueueUpload fun _ => .pure _)
  | markUploadAcknowledged localId serverId => exact .inl spares_write
  | statement w => exact .inl spares_write
  | attachAcknowledgedUploads draftId attached =>
      refine .inr ⟨none, OfflineStore.uploadsOf draftId, _, rfl, fun e => trivial,
        fun w hclean hfile => ?_⟩
      have hlinks : (attachEach draftId attached (OfflineStore.uploadsOf draftId w.store)).Within
          (sparing file) := by
        refine spares_attachEach fun u hu id hid hnew heq => ?_
        exact hclean u hu id hid hnew (heq ▸ hfile)
      exact .bind (.attempt hlinks) fun _ => .pure _
  | queueSend draftId idempotencyKey baseRevision =>
      refine .inr ⟨some (.files draftId), OfflineStore.uploadsOf draftId, _, rfl, fun e => trivial,
        fun w hclean hfile => ?_⟩
      have hlinks : (attachUploads draftId (OfflineStore.uploadsOf draftId w.store) none).Within
          (sparing file) := by
        refine spares_attachUploads fun u hu id hid hunmarked heq => ?_
        exact hclean u hu id hid hunmarked (heq ▸ hfile)
      have hsend : (replaying (do
          let generation ← generationHeaders
          let _ ← apiPostSend false generation draftId idempotencyKey baseRevision
          return .synced none none) true).Within (sparing file) := by
        refine .tryCatch (.bind spares_look fun generation => .bind ?_ fun _ => .pure _)
          fun _ => .pure _
        exact .request fun _ _ heq => by cases heq
      change Program.Within (sparing file)
        (((attachUploads draftId (OfflineStore.uploadsOf draftId w.store) none).bind _).bind _)
      refine .bind (.bind hlinks fun r => ?_) fun _ => .pure _
      cases r with
      | some outcome => exact .pure _
      | none => exact hsend

/-- Nothing or one file is linked by an answer. -/
theorem respond_links {q : OfflineCall} {r : Except OfflineFailure q.Answer} {o o' : LinkLog}
    (h : LinkLog.respond i q r o = some o') : o' = o ∨ ∃ editor generation draftId id,
      q = .postAttachment editor generation draftId id ∧ o' = o.link ⟨draftId, id⟩ := by
  cases q with
  | postAttachment editor generation draftId id =>
      simp only [LinkLog.respond] at h
      split at h
      · exact .inr ⟨_, _, _, _, rfl, (Option.some.inj h).symm⟩
      · exact .inr ⟨_, _, _, _, rfl, (Option.some.inj h).symm⟩
      · exact .inl (Option.some.inj h).symm
  | getAttachments draftId =>
      simp only [LinkLog.respond] at h
      split at h
      · split at h
        · exact .inl (Option.some.inj h).symm
        · cases h
      · exact .inl (Option.some.inj h).symm
  | _ => exact .inl (Option.some.inj h).symm

namespace FilesApart

/-- A worker that links nothing detached goes on, and others do not link it either. -/
theorem resume {p : OfflineProgram Unit} {w : World offlineSignature LinkLog} (h : FilesApart c)
    (hsame : w.outside.detached = c.world.outside.detached)
    (hlinked : ∀ file ∈ c.world.outside.detached, file ∉ w.outside.linked)
    (hp : ∀ file ∈ c.world.outside.detached, p.Within (sparing file)) :
    FilesApart (c.resume linkSystem i p w) := by
  have houtside : (c.resume linkSystem i p w).world.outside = w.outside := by
    unfold Config.resume
    split <;> rfl
  refine ⟨?_, fun p' hp' => ?_⟩
  · rw [houtside, hsame]
    exact hlinked
  · rw [houtside, hsame]
    rcases List.mem_or_eq_of_mem_set hp' with hold | rfl
    · exact h.workers p' hold
    · exact .inr hp

/-- What follows a transaction links nothing detached. -/
theorem atomic {β : Type} {tag : Option StoreTag}
    {f : Device → Except OfflineFailure (β × Device)}
    {k : Except OfflineFailure β → OfflineProgram Unit} (h : FilesApart c)
    (hi : c.workers[i]? = some (.atomic tag f k)) {file : DraftFile}
    (hfile : file ∈ c.world.outside.detached) :
    (∀ e, (k (.error e)).Within (sparing file)) ∧
      ((∀ op : LinkOp, c.workers[i]? = some op.run → op.ReadsClean c.world) →
        ∀ b s, f c.world.store = .ok (b, s) → (k (.ok b)).Within (sparing file)) := by
  have hwithin : Program.Within (sparing file) (.atomic tag f k : OfflineProgram Unit) →
      (∀ e, (k (.error e)).Within (sparing file)) ∧
        ((∀ op : LinkOp, c.workers[i]? = some op.run → op.ReadsClean c.world) →
          ∀ b s, f c.world.store = .ok (b, s) → (k (.ok b)).Within (sparing file)) :=
    fun hspares => ⟨fun e => hspares.2 _, fun _ b s _ => hspares.2 _⟩
  rcases h.workers _ (List.mem_of_getElem? hi) with ⟨op, hop⟩ | hspares
  · rcases op.begins file with hspares | ⟨tag', g, k', hrun, herror, hread⟩
    · exact hwithin (hop ▸ hspares)
    · have hbegin := hop.trans hrun
      cases hbegin
      refine ⟨herror, fun hclean b s hf => ?_⟩
      obtain ⟨rfl, -⟩ := Prod.mk.inj (Except.ok.inj hf)
      exact hread c.world (hclean op (by rw [hi, hop])) hfile
  · exact hwithin (hspares file hfile)

/-- A request under way links nothing detached. -/
theorem request {q : OfflineCall} {k : Except OfflineFailure q.Answer → OfflineProgram Unit}
    (h : FilesApart c) (hi : c.workers[i]? = some (.call q k)) {file : DraftFile}
    (hfile : file ∈ c.world.outside.detached) :
    Program.Within (sparing file) (.call q k : OfflineProgram Unit) := by
  rcases h.workers _ (List.mem_of_getElem? hi) with ⟨op, hop⟩ | hspares
  · rcases op.begins file with hspares | ⟨tag, g, k', hrun, -, -⟩
    · exact hop ▸ hspares
    · cases hop.trans hrun
  · exact hspares file hfile

/-- An event that keeps out of the owner's way. -/
theorem step (h : FilesApart c) (he : KeepsApart c e) (hfire : c.fire linkSystem e = some c') :
    FilesApart c' := by
  cases e with
  | spawn op =>
      obtain rfl := Option.some.inj hfire
      refine ⟨h.detached, fun p hp => ?_⟩
      rcases List.mem_append.mp hp with hp | hp
      · exact h.workers p hp
      · exact .inl ⟨op, List.mem_singleton.mp hp⟩
  | commit i =>
      simp only [Config.fire] at hfire
      split at hfire
      next hi =>
        split at hfire
        next hf =>
          obtain rfl := Option.some.inj hfire
          exact h.resume rfl h.detached fun file hfile => (h.atomic hi hfile).2 he _ _ hf
        next =>
          obtain rfl := Option.some.inj hfire
          exact h.resume rfl h.detached fun file hfile => (h.atomic hi hfile).1 _
      next => cases hfire
  | abort i e =>
      simp only [Config.fire] at hfire
      split at hfire
      next hi =>
        split at hfire
        · obtain rfl := Option.some.inj hfire
          exact h.resume rfl h.detached fun file hfile => (h.atomic hi hfile).1 _
        · cases hfire
      next => cases hfire
  | answer i r =>
      simp only [Config.fire] at hfire
      split at hfire
      next q k hi =>
        obtain ⟨o, ho, rfl⟩ := Option.map_eq_some_iff.mp hfire
        have hrest : ∀ file ∈ c.world.outside.detached, (k (r q)).Within (sparing file) :=
          fun file hfile => (h.request hi hfile).2 _
        rcases respond_links (i := i) ho with rfl | ⟨editor, generation, draftId, id, rfl, rfl⟩
        · exact h.resume rfl h.detached hrest
        · refine h.resume rfl (fun file hfile hmem => ?_) hrest
          rcases List.mem_append.mp hmem with hold | hnew
          · exact h.detached file hfile hold
          · obtain rfl := List.mem_singleton.mp hnew
            exact (h.request hi hfile).1 editor generation rfl
      next => cases hfire
  | stop i =>
      simp only [Config.fire] at hfire
      split at hfire
      · obtain rfl := Option.some.inj hfire
        exact h.resume rfl h.detached fun _ _ => trivial
      · cases hfire
  | tick t =>
      obtain ⟨o, ho, rfl⟩ := Option.map_eq_some_iff.mp hfire
      cases t with
      | attach file =>
          obtain rfl := Option.some.inj ho
          refine ⟨fun x hx hmem => ?_, fun p hp => ?_⟩
          · obtain ⟨hx, hne⟩ := List.mem_filter.mp hx
            rcases List.mem_append.mp hmem with hold | hnew
            · exact h.detached x hx hold
            · simp [List.mem_singleton.mp hnew] at hne
          · exact (h.workers p hp).imp_right fun hspares x hx =>
              hspares x (List.mem_filter.mp hx).1
      | detach file =>
          simp only [linkSystem, OwnerStep.advance] at ho
          split at ho
          · obtain rfl := Option.some.inj ho
            refine ⟨fun x hx hmem => ?_, fun p hp => ?_⟩
            · obtain ⟨hmem, hne⟩ := List.mem_filter.mp hmem
              rcases List.mem_append.mp hx with hold | hnew
              · exact h.detached x hold hmem
              · simp [List.mem_singleton.mp hnew] at hne
            · refine (h.workers p hp).imp_right fun hspares x hx => ?_
              rcases List.mem_append.mp hx with hold | hnew
              · exact hspares x hold
              · obtain rfl := List.mem_singleton.mp hnew
                exact he p hp
          · cases ho

/-- Every moment of a run that keeps out of the owner's way. -/
theorem reaches (h₀ : LinkStart c₀) (h : LinkReaches KeepsApart c₀ c) : FilesApart c := by
  induction h with
  | start =>
      refine ⟨fun file hfile => ?_, fun p hp => ?_⟩
      · rw [h₀.outside] at hfile
        cases hfile
      · rw [h₀.workers] at hp
        cases hp
  | next e _ he hfire ih => exact ih.step he hfire

end FilesApart

/-- In a run that keeps out of the owner's way, a file that the owner has detached stays detached
until the owner attaches it. -/
theorem detached_stays (h₀ : LinkStart c₀) (h : LinkReaches KeepsApart c₀ c) :
    ∀ file ∈ c.world.outside.detached, file ∉ c.world.outside.linked :=
  (FilesApart.reaches h₀ h).detached

/-! ## Samples -/

/-- A sequence of events, each of which passes a check. -/
theorem LinkReaches.of_runChecked {P : Config offlineSignature LinkLog → Event linkSystem → Prop}
    {check : Config offlineSignature LinkLog → Event linkSystem → Bool}
    (hcheck : ∀ c e, check c e = true → P c e) {es : List (Event linkSystem)}
    (hc : LinkReaches P c₀ c) (h : c.runChecked linkSystem check es = some c') :
    LinkReaches P c₀ c' := by
  induction es generalizing c with
  | nil =>
      obtain rfl : c = c' := by simpa [Config.runChecked] using h
      exact hc
  | cons e es ih =>
      unfold Config.runChecked at h
      split at h
      next hpass =>
        obtain ⟨c₁, hfire, hrun⟩ := Option.bind_eq_some_iff.mp h
        exact ih (.next e hc (hcheck c e hpass) hfire) hrun
      next => cases h

/-- A check that a device without records passes while nothing is under way. -/
def keepsApart (c : Config offlineSignature LinkLog) : Event linkSystem → Bool
  | .commit _ => c.world.outside.detached.isEmpty || c.world.store.uploads.rows.isEmpty
  | .tick (.detach _) => c.workers.all (·.finished)
  | _ => true

theorem keepsApart_sound (c : Config offlineSignature LinkLog) (e : Event linkSystem)
    (h : keepsApart c e = true) : KeepsApart c e := by
  cases e with
  | commit i =>
      intro op _
      have hempty : c.world.outside.detached = [] ∨ c.world.store.uploads.rows = [] := by
        simpa [keepsApart] using h
      have hclean : ∀ draftId, ∀ u ∈ OfflineStore.uploadsOf draftId c.world.store, ∀ id,
          (⟨draftId, id⟩ : DraftFile) ∉ c.world.outside.detached := by
        intro draftId u hu id
        rcases hempty with hnone | hnone
        · simp [hnone]
        · simp [OfflineStore.uploadsOf, Table.select, hnone] at hu
      cases op with
      | attachAcknowledgedUploads draftId attached =>
          exact fun u hu id _ _ => hclean draftId u hu id
      | queueSend draftId key base => exact fun u hu id _ _ => hclean draftId u hu id
      | _ => trivial
  | tick t =>
      cases t with
      | attach file => trivial
      | detach file =>
          intro p hp
          have hdone := List.all_eq_true.mp h p hp
          cases p with
          | atomic tag f k => cases hdone
          | call q k => cases hdone
          | _ => trivial
  | _ => trivial

/-- A device that was never used and a server without links. -/
def sampleLinks : Config offlineSignature LinkLog := ⟨⟨Device.empty, .start⟩, []⟩

theorem sampleLinks_start : LinkStart sampleLinks := ⟨rfl, rfl⟩

/-- A file of draft 10 is queued as record 3, acknowledged as upload 5, and linked. -/
def sampleAttach : List (Event linkSystem) :=
  [.spawn (.statement (.serverGeneration 1)), .commit 0,
    .spawn (.enqueueUpload ⟨10, 1, "a.txt", "text/plain", 1, [0], none, none, 1⟩), .commit 1,
    .answer 1 (sampleAnswer 3), .answer 1 (sampleAnswer 1), .answer 1 (sampleAnswer 4),
    .answer 1 (sampleAnswer 1), .commit 1,
    .spawn (.markUploadAcknowledged 3 5), .commit 2,
    .spawn (.attachAcknowledgedUploads 10 []), .commit 3, .answer 3 (sampleAnswer 1),
    .answer 3 (sampleAnswer 1), .answer 3 (sampleAnswer 2), .commit 3]

/-- The device forgets the record, the owner detaches the file, and the editor reconciles. -/
def sampleForgotten : List (Event linkSystem) :=
  sampleAttach ++ [.spawn (.statement (.deleteUpload 3)), .commit 4, .tick (.detach ⟨10, 5⟩),
    .spawn (.attachAcknowledgedUploads 10 []), .commit 5]

/-- A file whose record is gone stays detached. -/
theorem detached_stays_sample : ∃ c, c.world.outside = ⟨[], [⟨10, 5⟩]⟩ ∧
    LinkReaches KeepsApart sampleLinks c ∧
      ∀ file ∈ c.world.outside.detached, file ∉ c.world.outside.linked := by
  have h : (sampleLinks.runChecked linkSystem keepsApart sampleForgotten).map
      (·.world.outside) = some ⟨[], [⟨10, 5⟩]⟩ := by decide +kernel
  obtain ⟨c, hrun, hview⟩ := Option.map_eq_some_iff.mp h
  have hreach := LinkReaches.of_runChecked keepsApart_sound .start hrun
  exact ⟨c, hview, hreach, detached_stays sampleLinks_start hreach⟩

/-- The owner detaches the file, and the editor, which reads the list again, links it again. -/
theorem detached_returns : ∃ c, LinkReaches (fun _ _ => True) sampleLinks c ∧
    ∃ file ∈ c.world.outside.detached, file ∈ c.world.outside.linked := by
  have h : (sampleLinks.runChecked linkSystem (fun _ _ => true) (sampleAttach ++
      [.tick (.detach ⟨10, 5⟩), .spawn (.attachAcknowledgedUploads 10 []), .commit 4,
        .answer 4 (sampleAnswer 1), .answer 4 (sampleAnswer 1)])).map (·.world.outside) =
          some ⟨[⟨10, 5⟩], [⟨10, 5⟩]⟩ := by decide +kernel
  obtain ⟨c, hrun, hview⟩ := Option.map_eq_some_iff.mp h
  refine ⟨c, .of_runChecked (fun _ _ _ => trivial) .start hrun, ⟨10, 5⟩, ?_, ?_⟩
  · rw [hview]
    exact List.mem_singleton_self _
  · rw [hview]
    exact List.mem_singleton_self _

end MailHub.Offline
