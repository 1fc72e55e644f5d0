import MailHub.Offline.Replay

/-!
# Runs of the device

The editors touch no pass, so they keep to their description as well. Whatever every described
commit and every described request keeps therefore holds in every run of the device.
-/

namespace MailHub.Offline

open Relational Interleaving MailHub OfflineStore

variable {fails : Bool} {i : ℕ} {K : World offlineSignature Journal → Prop} {α : Type}

/-! ## Requests outside a pass -/

/-- An editor's request to save touches no pass. -/
theorem preserves_apiPatchDraft (hK : Lasting i K) {editor : Uuid} {generation : Option Uuid}
    {draftId : Uuid} {input : UpdateDraftInput} :
    Preserves (offlineDiscipline fails) i K
      (apiPatchDraft (some editor) generation draftId input) := by
  refine hK.request (fun _ => trivial) fun k r o o' hresp => ?_
  have hanswer : o.answerPatch k (some editor) draftId input r = some o' := hresp
  obtain ⟨-, hpass⟩ | ⟨hnone, -⟩ := Journal.answerPatch_pass hanswer
  · exact hpass
  · cases hnone

theorem preserves_apiPostSend (hK : Lasting i K) {generation : Option Uuid} {draftId : Uuid}
    {key : String} {base : ℕ} :
    Preserves (offlineDiscipline fails) i K (apiPostSend true generation draftId key base) :=
  hK.request (fun _ => trivial) fun _ _ _ _ hresp => Journal.answerSend_pass hresp

theorem preserves_apiPostAttachment (hK : Lasting i K) {generation : Option Uuid}
    {draftId uploadId : Uuid} :
    Preserves (offlineDiscipline fails) i K
      (apiPostAttachment true generation draftId uploadId) :=
  hK.request (fun _ => trivial) fun _ _ _ _ hresp => Journal.plain_pass hresp

theorem preserves_readDraft (hK : Lasting i K) {draftId : Uuid} :
    Preserves (offlineDiscipline fails) i K
      (Program.request (S := offlineSignature) (.readDraft draftId)) := by
  refine hK.request (fun _ => trivial) fun k r o o' hresp => ?_
  cases r with
  | ok record =>
      obtain rfl := Option.some.inj (Option.ite_none_right_eq_some.mp hresp).2
      rfl
  | error e =>
      obtain rfl := Option.some.inj (Option.ite_none_right_eq_some.mp hresp).2
      rfl

theorem preserves_offline (hK : Lasting i K) :
    Preserves (offlineDiscipline fails) i K (Program.request (S := offlineSignature) .offline) :=
  hK.total (fun _ => trivial) fun _ _ _ => rfl

theorem preserves_sessionGeneration (hK : Lasting i K) :
    Preserves (offlineDiscipline fails) i K
      (Program.request (S := offlineSignature) .sessionGeneration) :=
  hK.total (fun _ => trivial) fun _ _ _ => rfl

/-! ## Editors -/

theorem preserves_writeLocalDraft (hK : Lasting i K) {draft : DraftRecord} {dirty : Bool} :
    Preserves (offlineDiscipline fails) i K (writeLocalDraft draft dirty) := by
  have hput : ∀ local' : LocalDraft, Preserves (offlineDiscipline fails) i K (do
      let _ ← (putLocalDraft local').attempt : OfflineProgram Unit) := fun _ =>
    .bind (.attempt hK.stable (hK.putLocalDraft _)) fun _ => .pure hK.stable _
  refine .bind (.attempt hK.stable (hK.read _)) fun existing => ?_
  simp only
  split
  · exact hput _
  · exact .bind (.attempt hK.stable (hK.read _)) fun _ => hput _

theorem preserves_writeLocalDraftFor (hK : Lasting i K) {draftId : Uuid}
    {patch : DraftEditPatch} {base : ℕ} :
    Preserves (offlineDiscipline fails) i K (writeLocalDraftFor draftId patch base) := by
  refine .bind (.attempt hK.stable (hK.read _)) fun existing => ?_
  split
  · exact .pure hK.stable _
  · refine .ite (fun _ => .pure hK.stable _) fun _ => ?_
    exact .bind (.attempt hK.stable (hK.putLocalDraft _)) fun _ => .pure hK.stable _

theorem preserves_queueDraftSave (hK : Lasting i K) {draftId : Uuid} {base : ℕ}
    {patch : DraftEditPatch} :
    Preserves (offlineDiscipline fails) i K (queueDraftSave draftId base patch) := by
  refine .bind (.attempt hK.stable (preserves_enqueuePayload hK (by simp))) fun r => ?_
  split
  · exact .pure hK.stable _
  · exact .pure hK.stable _
  · exact (preserves_writeLocalDraftFor hK).bind fun _ => .pure hK.stable _

theorem preserves_draftSaveRunner (hK : Lasting i K) {instanceId draftId : Uuid} {base : ℕ}
    {patch : DraftEditPatch} :
    Preserves (offlineDiscipline fails) i K (draftSaveRunner instanceId draftId base patch) := by
  refine (preserves_sessionGeneration hK).bind fun generation =>
    (preserves_offline hK).bind fun offline => ?_
  split
  · refine .bind (.attempt hK.stable (preserves_apiPatchDraft hK)) fun r => ?_
    split
    · exact (preserves_writeLocalDraft hK).bind fun _ => .pure hK.stable _
    · split
      · exact .pure hK.stable _
      · exact preserves_queueDraftSave hK
  · exact preserves_queueDraftSave hK

theorem preserves_stretch (hK : Lasting i K) {tag : EditTag} {instanceId : Uuid} {live : Bool}
    {f : DraftAutosaver → α × DraftAutosaver} :
    Preserves (offlineDiscipline fails) i K (stretch tag instanceId live f) := hK.edit

theorem preserves_openEditor (hK : Lasting i K) {draftId : Uuid} :
    Preserves (offlineDiscipline fails) i K (openEditor draftId) :=
  (preserves_readDraft hK).bind fun _ => hK.generateId.bind fun _ => hK.edit

/-- However often a save goes round. -/
theorem preserves_runSave (hK : Lasting i K) {instanceId draftId : Uuid} {rounds : ℕ} :
    Preserves (offlineDiscipline fails) i K (runSave instanceId draftId rounds) := by
  induction rounds with
  | zero => exact ⟨fun _ _ => trivial⟩
  | succ rounds ih =>
      have hflush : Preserves (offlineDiscipline fails) i K (do
          if ← stretch .other instanceId false DraftAutosaver.takeFlush then
            runSave instanceId draftId rounds) :=
        (preserves_stretch hK).bind fun _ => .ite (fun _ => ih) fun _ => .pure hK.stable _
      refine (preserves_stretch hK).bind fun save => ?_
      cases save with
      | none => exact .pure hK.stable _
      | some save =>
          refine (preserves_draftSaveRunner hK).bind fun outcome =>
            (preserves_stretch hK).bind fun continuation => ?_
          refine .ite (fun _ => .pure hK.stable _) fun _ => ?_
          exact .ite (fun _ => ih.bind fun _ => hflush) fun _ => hflush

theorem preserves_flushEditor (hK : Lasting i K) {instanceId draftId : Uuid} {rounds : ℕ} :
    Preserves (offlineDiscipline fails) i K (flushEditor instanceId draftId rounds) := by
  refine (preserves_stretch hK).bind fun starts => .ite (fun _ => ?_) fun _ => .pure hK.stable _
  exact ⟨fun w hw =>
    .cleanup hK.stable ((preserves_runSave hK).safe w hw) (preserves_stretch hK)⟩

theorem preserves_timerFired (hK : Lasting i K) {instanceId draftId : Uuid} {rounds : ℕ} :
    Preserves (offlineDiscipline fails) i K (timerFired instanceId draftId rounds) :=
  (preserves_stretch hK).bind fun _ =>
    .ite (fun _ => preserves_flushEditor hK) fun _ => .pure hK.stable _

theorem preserves_retryEditor (hK : Lasting i K) {instanceId draftId : Uuid} {rounds : ℕ} :
    Preserves (offlineDiscipline fails) i K (retryEditor instanceId draftId rounds) :=
  (preserves_stretch hK).bind fun _ =>
    .ite (fun _ => preserves_flushEditor hK) fun _ => .pure hK.stable _

theorem preserves_requestDraftSend (hK : Lasting i K) {draftId : Uuid} {base : ℕ}
    {key : String} :
    Preserves (offlineDiscipline fails) i K (requestDraftSend draftId base key) := by
  refine (preserves_offline hK).bind fun offline =>
    (preserves_sessionGeneration hK).bind fun generation => ?_
  split
  · exact .bind (.attempt hK.stable (preserves_enqueueSend hK)) fun _ => .pure hK.stable _
  · exact .pure hK.stable _
  · exact .bind (.attempt hK.stable (preserves_apiPostSend hK)) fun _ => .pure hK.stable _

theorem preserves_submitSend (hK : Lasting i K) {instanceId draftId : Uuid} {key : String}
    {rounds : ℕ} :
    Preserves (offlineDiscipline fails) i K (submitSend instanceId draftId key rounds) := by
  refine (preserves_stretch hK).bind fun unsaved => ?_
  refine .ite (fun _ => (preserves_flushEditor hK).bind fun _ => ?_) fun _ => ?_
  -- the send follows the flush, or comes at once
  all_goals
    refine (preserves_stretch hK).bind fun base => ?_
    cases base with
    | none => exact .pure hK.stable _
    | some base => exact preserves_requestDraftSend hK

/-! ## Attaching -/

theorem preserves_attachEach (hK : Lasting i K) {draftId : Uuid} {attached : List Uuid}
    {all uploads : List LocalUpload} (hall : uploads ⊆ all) :
    Preserves (offlineDiscipline fails) i (fun w => K w ∧ Acknowledged all w)
      (attachEach draftId attached uploads) := by
  have hboth : Lasting i fun w => K w ∧ Acknowledged all w :=
    hK.and Acknowledged.durable.lasting
  induction uploads with
  | nil => exact .pure hboth.stable _
  | cons upload uploads ih =>
      have hrest := ih fun u hu => hall (List.mem_cons_of_mem _ hu)
      unfold attachEach
      cases hid : upload.serverId with
      | none => exact hrest
      | some serverId =>
          have hmark : Preserves (offlineDiscipline fails) i
              (fun w => K w ∧ Acknowledged all w) (markUploadAttached upload.localId) :=
            hboth.markUploadAttached fun w hw =>
              hw.2 upload (hall List.mem_cons_self) (.inl (by simp [hid]))
          refine .ite (fun _ => hmark.bind fun _ => hrest) fun _ => ?_
          refine .bind (.attempt hboth.stable ?_) fun _ => hrest
          exact (preserves_sessionGeneration hboth).bind fun _ =>
            (preserves_apiPostAttachment hboth).bind fun _ => hmark

theorem preserves_attachAcknowledgedUploads (hK : Lasting i K) {draftId : Uuid}
    {attached : List Uuid} :
    Preserves (offlineDiscipline fails) i K (attachAcknowledgedUploads draftId attached) := by
  refine .bind (.attempt hK.stable ?_) fun _ => .pure hK.stable _
  refine hK.read_bind (L := Acknowledged) (fun _ => Acknowledged.durable.lasting)
    (fun w hw u hu hdone => ?_) fun uploads => preserves_attachEach hK fun u hu => hu
  have hselected : u ∈ w.store.uploads ∧ u.draftId = draftId := by simpa [uploadsOf] using hu
  exact hw.acknowledged u hselected.1 hdone

/-! ## Runs -/

/-- Every operation of the device keeps the discipline from any world on. -/
theorem OfflineOp.safe (op : OfflineOp) (i : ℕ) (w : World offlineSignature Journal) :
    Safe (offlineDiscipline fails) i (OfflineOp.run op) w (fun _ _ => True) fun _ _ => True := by
  have hK : Lasting i fun _ => True := Lasting.nothing
  have hvoid : ∀ {β : Type} {p : OfflineProgram β},
      Preserves (offlineDiscipline fails) i (fun _ => True) p →
        Preserves (offlineDiscipline fails) i (fun _ => True) (do let _ ← p) :=
    fun hp => hp.bind fun _ => .pure hK.stable _
  cases op with
  | observeGeneration current => exact (hK.observeGeneration current).safe w trivial
  | sync => exact .bind (safe_sync.mono (fun _ _ _ _ => .pure fun _ _ _ => trivial) fun _ _ _ => id)
  | resolveReview localId choice => exact safe_resolveReview
  | retryFailure localId =>
      have hplain : (Write.updateAction localId
          { state := some .pending, failure := some none }).Plain := ⟨rfl, by simp⟩
      exact (hK.write hplain).safe w trivial
  | discardFailure localId => exact (preserves_discardFailure hK).safe w trivial
  | enqueueDraftSave draftId base patch =>
      exact (hvoid (preserves_enqueuePayload hK (by simp))).safe w trivial
  | enqueueUpload upload =>
      exact (hvoid (preserves_withGeneration hK fun g =>
        hK.putPendingUploadWithAction upload g)).safe w trivial
  | enqueueSend draftId key base => exact (hvoid (preserves_enqueueSend hK)).safe w trivial
  | enqueueMailAction payload =>
      refine (hvoid (preserves_enqueuePayload hK fun x => ?_)).safe w trivial
      cases payload <;> simp [MailActionPayload.toPayload]
  | noteComparedServerCopy draftId server =>
      exact (preserves_noteComparedServerCopy hK).safe w trivial
  | putLocalDraft draft => exact (hK.putLocalDraft draft).safe w trivial
  | openEditor draftId => exact (preserves_openEditor hK).safe w trivial
  | pushEdit instanceId patch => exact (preserves_stretch hK).safe w trivial
  | timerFired instanceId draftId rounds => exact (preserves_timerFired hK).safe w trivial
  | flushEditor instanceId draftId rounds => exact (preserves_flushEditor hK).safe w trivial
  | retryEditor instanceId draftId rounds => exact (preserves_retryEditor hK).safe w trivial
  | disposeEditor instanceId => exact (preserves_stretch hK).safe w trivial
  | submitSend instanceId draftId key rounds => exact (preserves_submitSend hK).safe w trivial
  | attachAcknowledgedUploads draftId attached =>
      exact (preserves_attachAcknowledgedUploads hK).safe w trivial

/-- An empty device keeps the discipline. -/
theorem OfflineStart.sound {c : Config offlineSignature Journal} (hc : OfflineStart c) :
    c.Sound (offlineDiscipline fails) where
  inv := by
    refine ⟨⟨?_, ?_⟩, ⟨?_, ?_, ?_⟩, ?_, ?_⟩ <;> rw [hc.store] <;>
      simp [Device.empty, Table.mem_iff, Table.empty]
  safe j p hp := by simp [hc.workers] at hp

/-- What every described commit and every described request keeps holds in every run. -/
theorem OfflineStart.kept {P : Policy offlineSignature Journal}
    {I : World offlineSignature Journal → Prop} {c₀ c : Config offlineSignature Journal}
    (hc₀ : OfflineStart c₀) (hI : Kept (offlineDiscipline fails) P I) (hw : I c₀.world)
    (h : Reaches (offlineSystem fails) P c₀ c) : I c.world :=
  h.kept hI hc₀.sound OfflineOp.safe (fun _ _ _ _ _ => trivial) (fun _ _ _ _ _ => trivial) hw

/-! ## Samples -/

/-- The record of draft 10 after an edit of its subject. -/
def sampleRecord (input : UpdateDraftInput) (now : Time) : DraftRecord :=
  ⟨10, 1, ⟨"a@b.cc", none⟩, ⟨[], [], []⟩, input.subject.join, "", input.baseRevision + 1, none, none, none,
    none, [], now⟩

theorem sampleDrafts_nodup : ([(⟨10, 1, ⟨"a@b.cc", none⟩, none, none, none, [], ⟨[], [], []⟩, none,
    "", 1, none, 0, none⟩ : Draft)].map Keyed.key).Nodup := by decide

/-- A service that holds draft 10 at revision 1. -/
def sampleServer : Database :=
  { Database.empty with
    drafts := ⟨[⟨10, 1, ⟨"a@b.cc", none⟩, none, none, none, [], ⟨[], [], []⟩, none, "", 1, none, 0, none⟩],
      sampleDrafts_nodup⟩ }

/-- The sample before anything happens. -/
def sampleOffline : Config offlineSignature Journal :=
  ⟨⟨Device.empty, Journal.start sampleServer⟩, []⟩

theorem sampleOffline_start : OfflineStart sampleOffline := ⟨rfl, ⟨sampleServer, rfl⟩, rfl⟩

/-- Answers in which everything works: the clock and the identifiers give `n`. -/
def sampleAnswer (n : ℕ) : (c : OfflineCall) → Except OfflineFailure c.Answer
  | .now | .generateId | .postUpload .. | .postSend .. => .ok n
  | .acquirePass | .releasePass | .postAttachment .. | .postAction .. => .ok ()
  | .patchDraft _ _ _ input => .ok (sampleRecord input n)
  | .getAttachments _ => .ok []
  | .readDraft _ => .ok (sampleRecord ⟨n, none, none, none, none⟩ 0)
  | .offline => .ok false
  | .sessionGeneration => .ok (some 1)

/-- The service is busy. -/
def sampleBusy : (c : OfflineCall) → Except OfflineFailure c.Answer :=
  fun _ => .error (.api ⟨503, "busy", "The service is busy.", none⟩)

/-- Worker `i` learns a generation on a device that knew none. -/
def sampleGeneration (i : ℕ) (g : Uuid) : List (Event (offlineSystem false)) :=
  [.spawn (.observeGeneration (some g)), .commit i, .commit i]

/-- Worker `i` queues an edit of the subject of draft 10 under an identifier, at a time. -/
def sampleSave (i : ℕ) (localId : Uuid) (now : Time) (base : ℕ) (subject : String) :
    List (Event (offlineSystem false)) :=
  [.spawn (.enqueueDraftSave 10 base { subject := some (some subject) }), .commit i,
    .answer i (sampleAnswer localId), .answer i (sampleAnswer now), .commit i]

/-- Worker `i` begins a pass and lists what is pending. -/
def samplePass (i : ℕ) : List (Event (offlineSystem false)) :=
  [.spawn .sync, .answer i (sampleAnswer 0), .commit i, .commit i, .commit i, .commit i, .commit i]

/-- Worker `i` comes to its next action and asks the service. -/
def sampleReplay (i : ℕ) (r : (c : OfflineCall) → Except OfflineFailure c.Answer) :
    List (Event (offlineSystem false)) := [.commit i, .commit i, .commit i, .answer i r]

/-- Worker `i` settles a synced save and chains some other actions to it. -/
def sampleSettle (i chained : ℕ) : List (Event (offlineSystem false)) :=
  [.answer i (sampleAnswer 9), .commit i, .commit i] ++
    List.replicate chained (.commit i) ++ [.commit i]

/-- Worker `i` ends a pass that synced something. -/
def sampleEnd (i : ℕ) : List (Event (offlineSystem false)) :=
  [.answer i (sampleAnswer 9), .commit i, .commit i, .answer i (sampleAnswer 9), .commit i,
    .commit i, .answer i (sampleAnswer 0)]

end MailHub.Offline
