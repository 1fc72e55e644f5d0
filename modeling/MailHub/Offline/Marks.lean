import MailHub.Interleaving.Tracking
import MailHub.Offline.Order
import MailHub.Offline.Reviews

/-!
# The marks of local copies

The mark of a local copy says that some edit of it has no acknowledgement. It is set after the edit
was queued, taken over by whoever carries the copy from one statement to the next, and computed
again by a settlement, which looks at the pending saves only: a save in review or failed does not
count.
-/

namespace MailHub.Offline

open Relational Interleaving MailHub OfflineStore

variable {fails : Bool} {op : OfflineOp} {ops : ℕ → OfflineOp} {i : ℕ} {d x y : Uuid}
  {s s' : Device} {wr : Write}

/-! ## Marks -/

/-- The device holds no copy of a draft, or one that is marked. -/
def Marked (d : Uuid) (s : Device) : Prop :=
  ∀ copy, s.drafts.find? d = some copy → copy.dirty = true

/-- Some save of a draft is queued and has not synced: it is pending, in review, or failed. -/
def Unsynced (d : Uuid) (s : Device) : Prop :=
  ∃ a ∈ s.queue, a.payload.saves d = true ∧ a.state ≠ .synced

/-- Every held draft with a save that has not synced is marked. -/
def SavesMarked (s : Device) : Prop := ∀ d, Unsynced d s → Marked d s

/-! ## What a settlement overlooks -/

/-- The actions that became pending since a worker last marked one as synced. -/
abbrev Joined := ℕ → List Uuid

/-- Everyone notes what becomes pending; who marks an action as synced starts anew. -/
def joinTracker : Tracker offlineSignature Joined where
  commit i tag _ _ joined :=
    match tag with
    | some (.write (.enqueue a)) | some (.write (.putPendingUploadWithAction _ a)) =>
        fun j => a.localId :: joined j
    | some (.write (.updateAction x patch)) =>
        if patch.state = some .synced then Function.update joined i []
        else if patch.state = some .pending then fun j => x :: joined j
        else joined
    | _ => joined
  commit_read _ _ _ := rfl

/-- The world of a tracked device. -/
abbrev MarkWorld := World offlineSignature (Journal × Joined)

/-- The runs of a device in which joins are noted. -/
abbrev markSystem (fails : Bool) : System offlineSignature (Journal × Joined) :=
  (offlineSystem fails).track joinTracker

/-! ## The condition -/

/-- A save of the draft has been pending ever since the worker marked its action as synced, or none
has not synced. -/
def Settles (d : Uuid) (joined : List Uuid) (s : Device) : Prop :=
  (∃ a ∈ s.queue, a.payload.saves d = true ∧ a.state = .pending ∧ a.localId ∉ joined) ∨
    ¬ Unsynced d s

/-- When an operation may write a local copy. -/
def MayCopy (op : OfflineOp) (draft : LocalDraft) (joined : List Uuid) (s : Device) : Prop :=
  match op with
  | .sync => Settles draft.draftId joined s
  -- A copy that is carried over without a mark has had none ever since it was read.
  | .resolveReview .. | .noteComparedServerCopy .. => draft.dirty = false →
      ∃ copy, s.drafts.find? draft.draftId = some copy ∧ copy.dirty = false
  -- An acknowledged copy is written without a mark.
  | _ => draft.dirty = true ∨ ¬ Unsynced draft.draftId s

/-- When an operation may run a statement: a save is queued after its draft was marked, a synced
save stays synced, and a copy is written as `MayCopy` says. -/
def Marking (op : OfflineOp) (wr : Write) (joined : List Uuid) (s : Device) : Prop :=
  match wr with
  | .enqueue a => ∀ d, a.payload.saves d = true → Marked d s
  | .updateAction x patch => ∀ a d, s.queue.find? x = some a → a.state = .synced →
      a.payload.saves d = true → patch.state.getD .synced ≠ .synced → Marked d s
  | .putLocalDraft draft => MayCopy op draft joined s
  | _ => True

/-- The statement that a name stands for. -/
def StoreTag.runs : StoreTag → Write → Prop
  | .write wr, wr' => wr' = wr
  | .stop x, wr' => wr' = .updateAction x restoredPatch
  | _, _ => False

/-- The runs in which the marks come in time. -/
def marking (ops : ℕ → OfflineOp) : Policy offlineSignature (Journal × Joined) where
  commit i tag w _ := ∀ t wr, tag = some t → t.runs wr →
    Marking (ops i) wr (w.outside.2 i) w.store
  call _ _ _ _ := True

/-! ## Statements -/

theorem Unsynced.congr (h : s'.queue = s.queue) : Unsynced d s' ↔ Unsynced d s := by
  unfold Unsynced
  rw [h]

/-- Leaving the drafts alone and adding no save that has not synced keeps the marks. -/
theorem SavesMarked.of_unsynced (hs : SavesMarked s) (hdrafts : s'.drafts = s.drafts)
    (h : ∀ d, Unsynced d s' → Unsynced d s ∨ Marked d s) : SavesMarked s' := by
  intro d hd
  unfold Marked
  rw [hdrafts]
  rcases h d hd with hold | hmarked
  · exact hs d hold
  · exact hmarked

/-- Writing a copy keeps the marks when it is marked, or no save of the draft waits. -/
theorem SavesMarked.put {draft : LocalDraft} (hs : SavesMarked s)
    (h : draft.dirty = true ∨ ¬ Unsynced draft.draftId s) :
    SavesMarked { s with drafts := s.drafts.put draft } := by
  intro d hd copy hcopy
  have hold : Unsynced d s := hd
  have hput : (s.drafts.put draft).find? d =
      if draft.draftId = d then some draft else s.drafts.find? d := Table.find?_put
  rw [hput] at hcopy
  split at hcopy
  next heq =>
    obtain rfl := Option.some.inj hcopy
    subst heq
    exact h.resolve_right fun hnone => hnone hold
  next => exact hs d hold copy hcopy

/-- An update that keeps the work of the queue leaves the draft of an action. -/
theorem saves_of_update {patch : ActionPatch} {a : QueuedAction} (hfrozen : Frozen s)
    (hwork : KeepsWork (.updateAction x patch) s) (ha : s.queue.find? x = some a) :
    (patch.apply a).payload.saves d = a.payload.saves d := by
  cases hpayload : patch.payload with
  | none => simp [ActionPatch.apply, hpayload]
  | some payload =>
      obtain ⟨e, he, hid, hkeeps⟩ := hwork payload hpayload
      obtain ⟨e', he', hsame⟩ := hfrozen.queued a (Table.mem_of_find? ha)
      have hkey : a.localId = x := Table.key_of_find? ha
      obtain rfl := hfrozen.unique he he' (by rw [hid, hsame.localId, hkey])
      have hnew : (patch.apply a).payload = payload := by simp [ActionPatch.apply, hpayload]
      rw [hnew, ← QueuedPayload.saves_work, ← hkeeps, hsame.work, QueuedPayload.saves_work]

/-- An update that revives no synced save keeps the marks. -/
theorem SavesMarked.updateAction {patch : ActionPatch} (hs : SavesMarked s) (hfrozen : Frozen s)
    (hwork : KeepsWork (.updateAction x patch) s) {joined : List Uuid}
    (hmay : Marking op (.updateAction x patch) joined s)
    (h : (Write.updateAction x patch).exec s = .ok s') : SavesMarked s' := by
  have hrows := find?_updateAction h
  obtain rfl := Except.ok.inj h
  refine hs.of_unsynced rfl fun d ⟨a', ha', hsaves, hstate⟩ => ?_
  have hfind := (hrows a'.localId).symm.trans (Table.mem_iff_find?.mp ha')
  obtain ⟨a, ha, hrow⟩ := Option.map_eq_some_iff.mp hfind
  have hmem : a ∈ s.queue := Table.mem_of_find? ha
  by_cases hx : (a.localId == x) = true
  · rw [if_pos hx] at hrow
    have hx' : s.queue.find? x = some a := by
      rw [← beq_iff_eq.mp hx]
      exact Table.mem_iff_find?.mp hmem
    have hsame : a.payload.saves d = true := by
      rw [← saves_of_update hfrozen hwork hx', hrow]
      exact hsaves
    by_cases hsynced : a.state = .synced
    · refine .inr (hmay a d hx' hsynced hsame fun hnone => hstate ?_)
      rw [← hrow]
      simpa [ActionPatch.apply, hsynced] using hnone
    · exact .inl ⟨a, hmem, hsame, hsynced⟩
  · rw [if_neg hx] at hrow
    exact .inl ⟨a, hmem, hrow ▸ hsaves, hrow ▸ hstate⟩

/-- A new action keeps the marks when its draft is marked. -/
theorem SavesMarked.addAction {a : QueuedAction} (hs : SavesMarked s)
    (hmarked : ∀ d, a.payload.saves d = true → Marked d s) (h : s.addAction a = .ok s') :
    SavesMarked s' := by
  unfold Device.addAction at h
  split at h
  · cases h
  · obtain rfl := Except.ok.inj h
    refine hs.of_unsynced rfl fun d ⟨b, hb, hsaves, hstate⟩ => ?_
    rcases Table.mem_put.mp hb with ⟨hold, -⟩ | rfl
    · exact .inl ⟨b, hold, hsaves, hstate⟩
    · exact .inr (hmarked d hsaves)

/-- Dropping actions keeps the marks. -/
theorem SavesMarked.delete {p : QueuedAction → Bool} (hs : SavesMarked s) :
    SavesMarked { s with queue := s.queue.delete p } :=
  hs.of_unsynced rfl fun _ ⟨a, ha, hsaves, hstate⟩ =>
    .inl ⟨a, (Table.mem_delete.mp ha).1, hsaves, hstate⟩

/-- A statement that comes in time keeps the marks, when a copy that it writes is marked or no save
of its draft waits. -/
theorem SavesMarked.exec {joined : List Uuid} (hs : SavesMarked s) (hfrozen : Frozen s)
    (hwork : KeepsWork wr s) (hw : op.Writes wr) (hmay : Marking op wr joined s)
    (hput : ∀ draft, wr = .putLocalDraft draft →
      draft.dirty = true ∨ ¬ Unsynced draft.draftId s) (h : wr.exec s = .ok s') :
    SavesMarked s' := by
  cases wr with
  | enqueue a => exact hs.addAction hmay h
  | updateAction x patch => exact hs.updateAction hfrozen hwork hmay h
  | putLocalDraft draft =>
      obtain rfl := Except.ok.inj h
      exact hs.put (hput draft rfl)
  | deleteAction x =>
      obtain rfl := Except.ok.inj h
      exact hs.delete
  | pruneActions xs =>
      obtain rfl := Except.ok.inj h
      exact hs.delete
  | putPendingUploadWithAction u a =>
      simp only [Write.exec, bind_eq_ok] at h
      obtain ⟨s₁, hup, hadd⟩ := h
      unfold Device.addUpload at hup
      split at hup
      · cases hup
      · obtain rfl := Except.ok.inj hup
        have hfile : SavesMarked { s with uploads := s.uploads.put u, filed := s.filed ++ [u] } := hs
        refine hfile.addAction (fun d hd => ?_) hadd
        cases hw with
        | queuedUpload henters => simp [henters.payload, QueuedPayload.saves] at hd
  | pruneDrafts ds =>
      obtain rfl := Except.ok.inj h
      intro d hd copy hcopy
      have hkept : (s.drafts.delete fun copy => ds.contains copy.draftId).find? d = some copy := hcopy
      rw [Table.find?_delete] at hkept
      exact hs d hd copy (Option.filter_eq_some_iff.mp hkept).1
  | updateUpload | deleteUpload | pruneUploads | serverGeneration | restore | lastSyncedAt
  | signInRequired =>
      obtain rfl := Except.ok.inj h
      exact hs

/-! ## What is pending -/

/-- Between two moments, worker `i` loses no note, and a pending action that it has no note of was
pending before. -/
structure Waits (i : ℕ) (w w' : MarkWorld) : Prop where
  noted : w.outside.2 i ⊆ w'.outside.2 i
  before : ∀ y a', w'.store.queue.find? y = some a' → a'.state = .pending →
    y ∉ w'.outside.2 i → ∃ a, w.store.queue.find? y = some a ∧ a.state = .pending ∧
      ∀ d, a.payload.saves d = a'.payload.saves d

theorem Waits.of_rows {w w' : MarkWorld} (hnoted : w'.outside.2 = w.outside.2)
    (hrows : ∀ y a, w'.store.queue.find? y = some a → w.store.queue.find? y = some a) :
    Waits i w w' :=
  ⟨hnoted ▸ List.Subset.refl _, fun y a ha hstate _ => ⟨a, hrows y a ha, hstate, fun _ => rfl⟩⟩

theorem Waits.trans {w₁ w₂ w₃ : MarkWorld} (h : Waits i w₁ w₂) (h' : Waits i w₂ w₃) :
    Waits i w₁ w₃ := by
  refine ⟨List.Subset.trans h.noted h'.noted, fun y a ha hstate hnot => ?_⟩
  obtain ⟨a₂, ha₂, hstate₂, hsaves₂⟩ := h'.before y a ha hstate hnot
  obtain ⟨a₁, ha₁, hstate₁, hsaves₁⟩ := h.before y a₂ ha₂ hstate₂ fun hmem => hnot (h'.noted hmem)
  exact ⟨a₁, ha₁, hstate₁, fun d => (hsaves₁ d).trans (hsaves₂ d)⟩

/-- A new action is noted. -/
theorem waits_addAction {a : QueuedAction} {w w' : MarkWorld} {s₁ : Device}
    (hqueue : s₁.queue = w.store.queue) (h : s₁.addAction a = .ok w'.store)
    (hnoted : w'.outside.2 i = a.localId :: w.outside.2 i) : Waits i w w' := by
  refine ⟨hnoted ▸ List.subset_cons_self _ _, fun y b hb hstate hnot => ?_⟩
  unfold Device.addAction at h
  split at h
  · cases h
  · have hrow : (s₁.queue.put a).find? y = some b := by
      rw [← hb, ← Except.ok.inj h]
    have hput : (s₁.queue.put a).find? y = if a.localId = y then some a else s₁.queue.find? y :=
      Table.find?_put
    rw [hput, if_neg fun heq => hnot (by rw [hnoted, heq]; exact List.mem_cons_self), hqueue] at hrow
    exact ⟨b, hrow, hstate, fun _ => rfl⟩

/-- An update that makes an action pending is noted, and one that marks it as synced by another
worker loses no note. -/
theorem waits_updateAction {patch : ActionPatch} {w w' : MarkWorld}
    (hfrozen : Frozen w.store) (hwork : KeepsWork (.updateAction x patch) w.store)
    (h : (Write.updateAction x patch).exec w.store = .ok w'.store)
    (hnoted : patch.state ≠ some .pending → w'.outside.2 i = w.outside.2 i)
    (hjoins : patch.state = some .pending → w'.outside.2 i = x :: w.outside.2 i) :
    Waits i w w' := by
  refine ⟨?_, fun y b hb hstate hnot => ?_⟩
  · by_cases hp : patch.state = some .pending
    · exact hjoins hp ▸ List.subset_cons_self _ _
    · exact hnoted hp ▸ List.Subset.refl _
  · rw [find?_updateAction h y] at hb
    obtain ⟨a, ha, hrow⟩ := Option.map_eq_some_iff.mp hb
    have hkey : a.localId = y := Table.key_of_find? ha
    by_cases hx : y = x
    · subst hx
      have happly : patch.apply a = b := by simpa [hkey] using hrow
      by_cases hp : patch.state = some .pending
      · exact absurd (by rw [hjoins hp]; exact List.mem_cons_self) hnot
      · refine ⟨a, ha, ?_, fun d => ?_⟩
        · rw [← happly] at hstate
          cases hpatch : patch.state with
          | none => simpa [ActionPatch.apply, hpatch] using hstate
          | some state =>
              obtain rfl : state = .pending := by simpa [ActionPatch.apply, hpatch] using hstate
              exact absurd hpatch hp
        · rw [← happly, saves_of_update hfrozen hwork ha]
    · have hsame : a = b := by simpa [hkey, hx] using hrow
      subst hsame
      exact ⟨a, ha, hstate, fun _ => rfl⟩

/-- A statement of worker `j` keeps what worker `i` waits on, unless `i` marks its own action as
synced. -/
theorem waits_write {j : ℕ} {w : MarkWorld} (hfrozen : Frozen w.store)
    (hwork : KeepsWork wr w.store)
    (hown : j = i → ∀ x patch, wr = .updateAction x patch → patch.state ≠ some .synced)
    (h : wr.exec w.store = .ok s) :
    Waits i w (Config.committed (markSystem fails) w j (some (.write wr)) s) := by
  cases wr with
  | enqueue a => exact waits_addAction rfl h rfl
  | putPendingUploadWithAction u a =>
      simp only [Write.exec, bind_eq_ok] at h
      obtain ⟨s₁, hup, hadd⟩ := h
      unfold Device.addUpload at hup
      split at hup
      · cases hup
      · obtain rfl := Except.ok.inj hup
        exact waits_addAction (by rfl) hadd rfl
  | updateAction x patch =>
      refine waits_updateAction hfrozen hwork h (fun hp => ?_) fun hp => ?_
      · show (if patch.state = some .synced then Function.update w.outside.2 j []
          else if patch.state = some .pending then fun k => x :: w.outside.2 k
          else w.outside.2) i = w.outside.2 i
        rw [if_neg hp]
        split
        next hsynced =>
          have hne : i ≠ j := fun heq => hown heq.symm x patch rfl hsynced
          exact Function.update_of_ne hne _ _
        next => rfl
      · show (if patch.state = some .synced then Function.update w.outside.2 j []
          else if patch.state = some .pending then fun k => x :: w.outside.2 k
          else w.outside.2) i = x :: w.outside.2 i
        rw [if_neg (by rw [hp]; simp), if_pos hp]
  | deleteAction x =>
      obtain rfl := Except.ok.inj h
      refine .of_rows rfl fun y a ha => ?_
      have hkept : (w.store.queue.delete (·.localId == x)).find? y = some a := ha
      rw [Table.find?_delete] at hkept
      exact (Option.filter_eq_some_iff.mp hkept).1
  | pruneActions xs =>
      obtain rfl := Except.ok.inj h
      refine .of_rows rfl fun y a ha => ?_
      have hkept : (w.store.queue.delete fun a => xs.contains a.localId).find? y = some a := ha
      rw [Table.find?_delete] at hkept
      exact (Option.filter_eq_some_iff.mp hkept).1
  | putLocalDraft | pruneDrafts | updateUpload | deleteUpload | pruneUploads | serverGeneration
  | restore | lastSyncedAt | signInRequired =>
      obtain rfl := Except.ok.inj h
      exact .of_rows rfl fun _ _ ha => ha

/-- A stop keeps what every worker waits on. -/
theorem waits_stop {j : ℕ} {w : MarkWorld} (hfrozen : Frozen w.store)
    (h : (Write.updateAction x restoredPatch).exec w.store = .ok s) :
    Waits i w (Config.committed (markSystem fails) w j (some (.stop x)) s) :=
  waits_updateAction hfrozen (by simp [KeepsWork, restoredPatch]) h (fun _ => rfl)
    (by simp [restoredPatch])

/-! ## The discipline -/

/-- What the workers of a device rely on while the marks come in time. -/
def markDiscipline (fails : Bool) (ops : ℕ → OfflineOp) : Discipline (markSystem fails) where
  inv w := Frozen w.store ∧ SavesMarked w.store
  rely i w w' := Waits i w w'
  assumes := (marking ops).and ((offlineDiscipline fails).ensures.lift Joined)
  ensures := .free
  rely_refl _ _ := .of_rows rfl fun _ _ ha => ha
  rely_trans _ _ _ _ h h' := h.trans h'
  ensures_read _ _ _ := trivial
  inv_tick _ _ _ hw _ := hw
  rely_tick i w t o _ h := by
    obtain ⟨o', -, rfl⟩ := Option.map_eq_some_iff.mp h
    exact .of_rows rfl fun _ _ ha => ha
  inv_retire _ _ hw := hw
  rely_retire _ _ _ _ _ := .of_rows rfl fun _ _ ha => ha

/-- Whatever other operations than a pass write keeps the marks. -/
theorem MayCopy.marked {draft : LocalDraft} {joined : List Uuid} (h : MayCopy op draft joined s)
    (hop : op ≠ .sync) (hs : SavesMarked s) :
    draft.dirty = true ∨ ¬ Unsynced draft.draftId s := by
  have hcarried : (draft.dirty = false →
      ∃ copy, s.drafts.find? draft.draftId = some copy ∧ copy.dirty = false) →
      draft.dirty = true ∨ ¬ Unsynced draft.draftId s := by
    intro hkept
    cases hdirty : draft.dirty with
    | true => exact .inl rfl
    | false =>
        obtain ⟨copy, hcopy, hclean⟩ := hkept hdirty
        refine .inr fun hwaits => ?_
        have hmark : copy.dirty = true := hs _ hwaits copy hcopy
        rw [hclean] at hmark
        cases hmark
  cases op with
  | sync => exact absurd rfl hop
  | resolveReview z choice => exact hcarried h
  | noteComparedServerCopy z server => exact hcarried h
  | _ => exact h

variable {K : MarkWorld → Prop} {ok : Write → Prop}

/-- A worker that knows that the copies it writes are marked may run its statements. -/
theorem marks_admit (hK : ∀ w w', Waits i w w' → K w → K w')
    (hsynced : ∀ x patch, ok (.updateAction x patch) → patch.state = some .synced → ∀ w, K w)
    (hknown : ∀ w wr, SavesMarked w.store → K w → ok wr → (ops i).Writes wr ∧
      ∀ draft, wr = .putLocalDraft draft → MayCopy (ops i) draft (w.outside.2 i) w.store →
        draft.dirty = true ∨ ¬ Unsynced draft.draftId w.store) :
    Admits (markDiscipline fails ops) i (deviceVocabulary ok) K where
  stable w w' hr _ hw := hK w w' hr hw
  commit tag w s hs hw hV ha := by
    obtain ⟨hfrozen, hmarked⟩ := hs
    have hsame : ∀ w' : MarkWorld, w'.store.queue = w.store.queue →
        w'.store.enqueued = w.store.enqueued → w'.store.drafts = w.store.drafts →
        w'.outside.2 = w.outside.2 →
        (markDiscipline fails ops).Keeps i w w' ∧ True ∧ K w' := by
      intro w' hqueue henqueued hdrafts hjoined
      have hwaits : ∀ j, Waits j w w' := fun j => .of_rows hjoined fun y a ha => hqueue ▸ ha
      refine ⟨⟨⟨⟨henqueued ▸ hfrozen.nodup, fun a ha => ?_⟩, ?_⟩, fun j _ => hwaits j⟩, trivial,
        hK w w' (hwaits i) hw⟩
      · obtain ⟨e, he, hwork⟩ := hfrozen.queued a (hqueue ▸ ha)
        exact ⟨e, henqueued ▸ he, hwork⟩
      · exact hmarked.of_unsynced hdrafts fun d hd => .inl ((Unsynced.congr hqueue).mp hd)
    cases tag with
    | none =>
        obtain rfl : s = w.store := hV
        exact hsame _ rfl rfl rfl rfl
    | some tag =>
        cases tag with
        | write wr =>
            obtain ⟨hexec, hok⟩ : wr.exec w.store = .ok s ∧ ok wr := hV
            obtain ⟨hwrites, hput⟩ := hknown w wr hmarked hw hok
            have hwarrant : Warranted i wr w.untrack := ha.2.2
            have hmay : Marking (ops i) wr (w.outside.2 i) w.store := ha.1 _ wr rfl rfl
            obtain ⟨hfrozen', -⟩ := Write.exec_frozen hfrozen hwarrant.work hexec
            have hmarked' : SavesMarked s := by
              refine hmarked.exec hfrozen hwarrant.work hwrites hmay (fun draft hdraft => ?_) hexec
              subst hdraft
              exact hput draft rfl hmay
            refine ⟨⟨⟨hfrozen', hmarked'⟩, fun j hj => waits_write hfrozen hwarrant.work
              (fun heq => absurd heq.symm hj) hexec⟩, trivial, ?_⟩
            by_cases hmark : ∃ x patch, wr = .updateAction x patch ∧ patch.state = some .synced
            · obtain ⟨x, patch, rfl, hstate⟩ := hmark
              exact hsynced x patch hok hstate _
            · exact hK w _ (waits_write hfrozen hwarrant.work
                (fun _ x patch hwr hstate => hmark ⟨x, patch, hwr, hstate⟩) hexec) hw
        | stop x =>
            obtain ⟨hexec, hok⟩ : (Write.updateAction x restoredPatch).exec w.store = .ok s ∧
              ok (.updateAction x restoredPatch) := hV
            have hwork : KeepsWork (.updateAction x restoredPatch) w.store := by
              simp [KeepsWork, restoredPatch]
            have hmay : Marking (ops i) (.updateAction x restoredPatch) (w.outside.2 i) w.store :=
              ha.1 _ _ rfl rfl
            obtain ⟨hfrozen', -⟩ := Write.exec_frozen hfrozen hwork hexec
            exact ⟨⟨⟨hfrozen', hmarked.updateAction hfrozen hwork hmay hexec⟩,
              fun j _ => waits_stop hfrozen hexec⟩, trivial, hK w _ (waits_stop hfrozen hexec) hw⟩
        | edit e =>
            obtain ⟨editors, rfl⟩ := hV
            exact hsame _ rfl rfl rfl rfl
        | passGeneration | listPending | recheck _ | generationHeaders | files _ | listChained =>
            obtain rfl : s = w.store := hV
            exact hsame _ rfl rfl rfl rfl
  call c w r o hs hw _ hresp _ := by
    obtain ⟨o', -, rfl⟩ := Option.map_eq_some_iff.mp hresp
    have hwaits : ∀ j, Waits j w ⟨w.store, (o', w.outside.2)⟩ :=
      fun j => .of_rows rfl fun _ _ ha => ha
    exact ⟨⟨hs, fun j _ => hwaits j⟩, trivial, hK w _ (hwaits i) hw⟩

/-! ## Settlements -/

/-- A list of pending actions holds a save of the draft, unless every pending save is noted. -/
def Listed (i : ℕ) (L : List QueuedAction) (d : Uuid) (w : MarkWorld) : Prop :=
  ∀ y a, w.store.queue.find? y = some a → a.state = .pending → a.payload.saves d = true →
    y ∉ w.outside.2 i → hasQueuedDraftSave L d = true

theorem Listed.waits {L : List QueuedAction} {w w' : MarkWorld} (h : Listed i L d w)
    (hwaits : Waits i w w') : Listed i L d w' := by
  intro y a' ha' hstate hsaves hnot
  obtain ⟨a, ha, hpending, hsame⟩ := hwaits.before y a' ha' hstate hnot
  exact h y a ha hpending ((hsame d).trans hsaves) fun hmem => hnot (hwaits.noted hmem)

theorem hasQueuedDraftSave_of_mem {L : List QueuedAction} {a : QueuedAction} (ha : a ∈ L)
    (hsaves : a.payload.saves d = true) : hasQueuedDraftSave L d = true := by
  refine List.any_eq_true.mpr ⟨a, ha, ?_⟩
  cases hpayload : a.payload with
  | draftSave draft base patch => simpa [hpayload, QueuedPayload.saves] using hsaves
  | upload u | send d' key base | flag targets f value key | move targets f key =>
      simp [hpayload, QueuedPayload.saves] at hsaves

/-- What is listed as pending is listed. -/
theorem listed_pendingOf (w : MarkWorld) : Listed i (pendingOf w.store) d w := by
  intro y a ha hstate hsaves _
  refine hasQueuedDraftSave_of_mem ?_ hsaves
  have hmem : a ∈ w.store.queue := Table.mem_of_find? ha
  simp [pendingOf, hmem, hstate]

/-- A pass may run every statement of its own but the copies. -/
theorem passing (fails : Bool) (hop : ops i = .sync) : Admits (markDiscipline fails ops) i
    (deviceVocabulary fun wr => OfflineOp.Writes .sync wr ∧ ∀ draft, wr ≠ .putLocalDraft draft)
    fun _ => True :=
  marks_admit (fun _ _ _ _ => trivial) (fun _ _ _ _ _ => trivial)
    fun _ _ _ _ hok => ⟨hop ▸ hok.1, fun draft hput => absurd hput (hok.2 draft)⟩

/-- A pass that listed what is pending chains it and writes the copy with the mark it computed. -/
theorem settling (fails : Bool) (hop : ops i = .sync) (L : List QueuedAction) (d : Uuid) :
    Admits (markDiscipline fails ops) i
      (deviceVocabulary fun wr => OfflineOp.Writes .sync wr ∧
        ((∃ x payload, wr = .updateAction x { payload := some payload }) ∨
          ∃ draft : LocalDraft, wr = .putLocalDraft draft ∧ draft.draftId = d ∧
            draft.dirty = hasQueuedDraftSave L d))
      (Listed i L d) := by
  refine marks_admit (fun w w' hwaits hlisted => hlisted.waits hwaits) ?_ ?_
  · rintro x patch ⟨-, ⟨y, payload, hwr⟩ | ⟨draft, hwr, -⟩⟩ hstate
    · obtain ⟨-, rfl⟩ := Write.updateAction.inj hwr
      simp at hstate
    · cases hwr
  · rintro w wr hmarked hlisted ⟨hwrites, hok⟩
    refine ⟨hop ▸ hwrites, fun draft hdraft hmay => ?_⟩
    rcases hok with ⟨y, payload, hwr⟩ | ⟨draft', hwr, hid, hdirty⟩
    · rw [hwr] at hdraft
      cases hdraft
    · rw [hwr] at hdraft
      obtain rfl := Write.putLocalDraft.inj hdraft
      rw [hop] at hmay
      rcases hmay with ⟨a, ha, hsaves, hstate, hnot⟩ | hnone
      · refine .inl (hdirty.trans ?_)
        rw [hid] at hsaves
        exact hlisted a.localId a (Table.mem_iff_find?.mp ha) hstate hsaves hnot
      · exact .inr hnone

theorem preserves_settledCopy (hop : ops i = .sync) {L : List QueuedAction} {copy : LocalDraft}
    (hid : copy.draftId = d) (hdirty : copy.dirty = hasQueuedDraftSave L d) :
    Preserves (markDiscipline fails ops) i (Listed i L d) (putLocalDraft copy) :=
  (settling fails hop L d).preserves (.bind within_timestamp fun _ =>
    within_write ⟨.settled, .inr ⟨_, rfl, hid, hdirty⟩⟩)

/-- The copy that a settlement goes on with is the one of its draft. -/
theorem preserves_copying (hop : ops i = .sync) {L : List QueuedAction}
    {f : LocalDraft → OfflineProgram Unit}
    (hf : ∀ copy : LocalDraft, copy.draftId = d →
      Preserves (markDiscipline fails ops) i (Listed i L d) (f copy)) :
    Preserves (markDiscipline fails ops) i (Listed i L d) (do
      match ← getLocalDraft d with
      | none => return
      | some copy => f copy : OfflineProgram Unit) := by
  have hstable := (settling fails hop L d).stable
  refine .read_bind hstable fun s => ?_
  cases hcopy : s.drafts.find? d with
  | none => exact .pure hstable _
  | some copy => exact hf copy (Table.key_of_find? hcopy)

/-- Looking at the pending actions lists them. -/
theorem safe_listing {w : MarkWorld} {β : Type} {f : List QueuedAction → OfflineProgram β}
    {tag : Option StoreTag} (htag : tag = none ∨ tag = some .listChained)
    (hf : ∀ L, Preserves (markDiscipline fails ops) i (Listed i L d) (f L)) :
    Safe (markDiscipline fails ops) i
      (Program.bind (.atomic tag (fun s => .ok (pendingOf s, s)) .ofExcept) f) w
      (fun _ _ => True) fun _ _ => True := by
  refine .bind fun w' _ hs => ⟨fun e _ => .throw fun _ _ _ => trivial, fun e he => by simp at he,
    fun L s hok _ => ?_⟩
  obtain ⟨rfl, rfl⟩ : pendingOf w'.store = L ∧ w'.store = s := by simpa using hok
  have hnoted : (Config.committed (markSystem fails) w' i tag w'.store).outside.2 =
      w'.outside.2 := by
    rcases htag with rfl | rfl <;> rfl
  have hwaits : ∀ j, Waits j w' (Config.committed (markSystem fails) w' i tag w'.store) :=
    fun j => .of_rows hnoted fun _ _ ha => ha
  refine ⟨⟨hs, fun j _ => hwaits j⟩, trivial, .pure fun w₂ hr _ => ?_⟩
  have hlisted : Listed i (pendingOf w'.store) d w₂ :=
    ((listed_pendingOf w').waits (hwaits i)).waits hr
  exact ((hf _).safe w₂ hlisted).mono (fun _ _ _ _ => trivial) fun _ _ _ _ => trivial

/-- A settlement keeps the marks. -/
theorem preserves_settleSynced (hop : ops i = .sync) {action : QueuedAction}
    {revision : Option ℕ} {serverUploadId : Option Uuid} :
    Preserves (markDiscipline fails ops) i (fun _ => True)
      (settleSynced action revision serverUploadId) := by
  have hplain := passing fails hop
  refine .bind (hplain.preserves within_timestamp) fun syncedAt =>
    .bind (hplain.preserves (within_updateAction ⟨.synced, by simp⟩)) fun _ => ?_
  split
  next draftId _ _ revision _ =>
    refine ⟨fun w _ => safe_listing (d := draftId) (.inr rfl) fun L => ?_⟩
    have hadmits := settling fails hop L draftId
    refine .bind (hadmits.preserves (within_chainForward fun x payload =>
      ⟨.chained, .inl ⟨x, _, rfl⟩⟩)) fun _ => ?_
    exact preserves_copying hop fun copy hid => .ite
      (fun _ => preserves_settledCopy hop hid rfl) fun _ => .pure hadmits.stable _
  next draftId _ _ _ =>
    refine ⟨fun w _ => safe_listing (d := draftId) (.inl rfl) fun L => ?_⟩
    have hadmits := settling fails hop L draftId
    exact preserves_copying hop fun copy hid => .ite
      (fun _ => preserves_settledCopy hop hid rfl) fun _ => .pure hadmits.stable _
  · exact hplain.preserves (within_write ⟨.uploaded, by simp⟩)
  · exact .pure Stable.trivial _

/-! ## Passes -/

theorem preserves_settleOutcome (hop : ops i = .sync) {queued : QueuedAction}
    {outcome : ReplayOutcome} {report : SyncReport} :
    Preserves (markDiscipline fails ops) i (fun _ => True)
      (settleOutcome queued outcome report) := by
  have hplain := passing fails hop
  cases outcome with
  | synced revision serverUploadId =>
      exact .bind (preserves_settleSynced hop) fun _ => .pure Stable.trivial _
  | failed reason =>
      exact .bind (hplain.preserves (within_updateAction ⟨.failed, by simp⟩)) fun _ =>
        .pure Stable.trivial _
  | review reason =>
      exact .bind (hplain.preserves (within_updateAction ⟨.parked, by simp⟩)) fun _ =>
        .pure Stable.trivial _
  | retry reason signInRequired =>
      refine .ite (fun _ => ?_) fun _ => .pure Stable.trivial _
      exact .bind (hplain.preserves (within_write ⟨.signIn, by simp⟩)) fun _ =>
        .pure Stable.trivial _

/-- The actions of a pass are settled one after the other. -/
theorem preserves_replayActions (hop : ops i = .sync) {g : Uuid} {actions : List QueuedAction}
    {report : SyncReport} :
    Preserves (markDiscipline fails ops) i (fun _ => True)
      (replayActions webOfflinePort g actions report) := by
  have hplain := passing fails hop
  induction actions generalizing report with
  | nil => exact .pure Stable.trivial _
  | cons action actions ih =>
      refine .ite (fun _ => ?_) fun _ => ?_
      · exact .bind (hplain.preserves (within_run fun _ _ hexec => ⟨hexec, .stopped, by simp⟩))
          fun _ => .pure Stable.trivial _
      · refine .bind (hplain.preserves (within_look fun _ => rfl)) fun found => ?_
        cases found with
        | none => exact ih
        | some queued =>
            refine .ite (fun _ => ih) fun _ => ?_
            split
            · exact ih
            next run hrun =>
              have hhandler : Preserves (markDiscipline fails ops) i (fun _ => True) run :=
                hplain.preserves (within_handlerFor (fun _ _ => ⟨.uploaded, by simp⟩) hrun)
              refine .bind (hplain.preserves (within_updateAction ⟨.attempted, by simp⟩)) fun _ =>
                .bind hhandler fun outcome => .bind (preserves_settleOutcome hop) fun r => ?_
              exact .ite (fun _ => ih) fun _ => .pure Stable.trivial _

theorem preserves_sync (hop : ops i = .sync) :
    Preserves (markDiscipline fails ops) i (fun _ => True) (sync webOfflinePort) := by
  have hplain := passing fails hop
  have hend : ∀ report : SyncReport, Preserves (markDiscipline fails ops) i (fun _ => True) (do
      pruneSyncedActions
      pruneSettledLocalRecords
      return report : OfflineProgram SyncReport) := by
    intro report
    refine .bind (hplain.preserves (within_pruneSyncedActions fun _ => ⟨.prunedActions, by simp⟩))
      fun _ => .bind (hplain.preserves ?_) fun _ => .pure Stable.trivial _
    exact within_pruneSettledLocalRecords (fun _ => ⟨.prunedDrafts, by simp⟩)
      fun _ => ⟨.prunedUploads, by simp⟩
  have hpass : Preserves (markDiscipline fails ops) i (fun _ => True) (runPass webOfflinePort) := by
    refine .bind (hplain.preserves (within_look fun _ => rfl)) fun g => ?_
    cases g with
    | none => exact .pure Stable.trivial _
    | some g =>
        refine .bind (hplain.preserves (within_write ⟨.signIn, by simp⟩)) fun _ =>
          .bind (hplain.preserves (within_reconcileOrphanedUploads
            fun _ _ h => ⟨.orphan h, by simp⟩)) fun _ =>
            .bind (hplain.preserves (within_look fun _ => rfl)) fun actions =>
              .bind (preserves_replayActions hop) fun report => ?_
        refine .ite (fun _ => ?_) fun _ => hend report
        exact .bind (hplain.preserves within_timestamp) fun _ =>
          .bind (hplain.preserves (within_write ⟨.syncedAt, by simp⟩)) fun _ => hend report
  refine .bind (hplain.preserves within_request) fun _ => ⟨fun w hw => ?_⟩
  exact .cleanup Stable.trivial (hpass.safe w hw) (hplain.preserves within_request)

/-- Every operation keeps the marks in its own role. -/
theorem OfflineOp.marking_safe (i : ℕ) (w : MarkWorld) :
    Safe (markDiscipline fails ops) i (OfflineOp.run (ops i)) w (fun _ _ => True)
      fun _ _ => True := by
  by_cases hop : ops i = .sync
  · rw [hop]
    exact (Preserves.bind (preserves_sync hop) fun _ => .pure Stable.trivial _).safe w trivial
  · have hadmits : Admits (markDiscipline fails ops) i (deviceVocabulary (ops i).Writes)
        fun _ => True := by
      refine marks_admit (fun _ _ _ _ => trivial) (fun _ _ _ _ _ => trivial) ?_
      exact fun w wr hmarked _ hwr => ⟨hwr, fun draft _ hmay => hmay.marked hop hmarked⟩
    exact (hadmits.preserves (OfflineOp.within (ops i))).safe w trivial

/-! ## Runs -/

/-- In every run in which the marks come in time, a held draft with a save that has not synced is
marked. -/
theorem saves_marked {c₀ c : Config offlineSignature (Journal × Joined)}
    (h₀ : OfflineStart c₀.untrack)
    (h : ReachesAs (markSystem fails) ops (marking ops) c₀ c) : SavesMarked c.world.store := by
  have hstart : c₀.Sound (markDiscipline fails ops) := by
    have hworkers : c₀.workers = [] := h₀.workers
    have hstore : c₀.world.store = Device.empty := h₀.store
    refine ⟨⟨⟨?_, ?_⟩, ?_⟩, fun j p hp => by simp [hworkers] at hp⟩ <;> rw [hstore]
    · simp [Device.empty]
    · simp [Device.empty]
    · rintro d ⟨a, ha, -⟩
      simp [Device.empty] at ha
  have hensures := h.and_ensures_lift h₀.sound OfflineOp.safe (fun _ _ _ _ _ => trivial)
    fun _ _ _ _ _ => trivial
  exact (hensures.sound hstart OfflineOp.marking_safe).inv.2

/-! ## Samples -/

/-- A copy of draft 10 with edits that no server acknowledged. -/
def sampleCopy : LocalDraft :=
  ⟨10, 1, none, none, none, some "a", none, 1, true, 1, 0⟩

/-- Worker `i` stores the sample copy. -/
def sampleCopied (i : ℕ) : List (Event (offlineSystem false)) :=
  [.spawn (.putLocalDraft sampleCopy), .answer i (sampleAnswer 2), .commit i]

/-- Worker `i` writes the copy that its settlement found. -/
def sampleCopying (i : ℕ) : List (Event (offlineSystem false)) :=
  [.answer i (sampleAnswer 9), .commit i]

/-- Of two queued saves, the first goes to review and the second one is accepted. -/
def sampleOverlooked : List (Event (offlineSystem false)) :=
  sampleGeneration 0 1 ++ sampleCopied 1 ++ sampleSave 2 3 5 1 "a" ++ sampleSave 3 4 6 1 "b" ++
    samplePass 4 ++ sampleReplay 4 sampleRecovery ++ [.commit 4] ++
    sampleReplay 4 (sampleAnswer 7) ++ sampleSettle 4 0 ++ sampleCopying 4

/-- The state of action 3 and the mark of the copy of draft 10. -/
def markView (s : Device) : Option QueuedState × Option Bool :=
  ((s.queue.find? 3).map (·.state), (s.drafts.find? 10).map (·.dirty))

/-- A settlement takes the mark from a draft with a save in review. -/
theorem mark_lost : ∃ ops c, ReachesAs (offlineSystem false) ops Policy.free sampleOffline c ∧
    ¬ SavesMarked c.world.store := by
  have hrun : (sampleOffline.runChecked (offlineSystem false) (fun _ _ => true)
      sampleOverlooked).map (fun c => (markView c.world.store,
        (c.world.store.queue.find? 3).map (·.payload.saves 10))) =
        some ((some .review, some false), some true) := by
    decide +kernel
  obtain ⟨c, hc, hview⟩ := Option.map_eq_some_iff.mp hrun
  obtain ⟨hmarks, hsaves⟩ := Prod.mk.inj hview
  obtain ⟨hstate, hdirty⟩ := Prod.mk.inj hmarks
  refine ⟨rolesOf OfflineOp.sync sampleOverlooked, c,
    .of_events (fun c e _ => Policy.free_meets _ c e) rfl OfflineOp.sync hc, fun hmarked => ?_⟩
  obtain ⟨a, ha, hreview⟩ := Option.map_eq_some_iff.mp hstate
  obtain ⟨a', ha', hsave⟩ := Option.map_eq_some_iff.mp hsaves
  obtain ⟨copy, hcopy, hclean⟩ := Option.map_eq_some_iff.mp hdirty
  obtain rfl : a = a' := Option.some.inj (ha.symm.trans ha')
  have hwaits : Unsynced 10 c.world.store :=
    ⟨a, Table.mem_of_find? ha, hsave, by rw [hreview]; simp⟩
  have hmark : copy.dirty = true := hmarked 10 hwaits copy hcopy
  rw [hclean] at hmark
  cases hmark

/-- Whether a commit is one in which the marks come in time, as far as a look at the store tells. -/
def marksInTime (ops : ℕ → OfflineOp) (c : Config offlineSignature (Journal × Joined)) :
    Event (markSystem false) → Bool
  | .commit i =>
      match c.standsAt i with
      | some (.write (.enqueue a)) =>
          match a.payload with
          | .draftSave d _ _ => (c.world.store.drafts.find? d).all (·.dirty)
          | _ => true
      | some (.write (.updateAction _ patch)) => patch.state.getD .synced == .synced
      | some (.write (.putLocalDraft draft)) =>
          draft.dirty && match ops i with
            | .sync => c.world.store.queue.rows.any fun a =>
                a.payload.saves draft.draftId && a.state == .pending &&
                  !(c.world.outside.2 i).contains a.localId
            | _ => true
      | some (.stop _) => false
      | _ => true
  | _ => true

theorem marking_of_marksInTime {c : Config offlineSignature (Journal × Joined)}
    {e : Event (markSystem false)} (h : marksInTime ops c e = true) :
    (marking ops).Meets (markSystem false) c e := by
  cases e with
  | commit i =>
      intro β tag f k b s hp _ t wr htag hruns
      have hat : c.standsAt i = some t := by simp [Config.standsAt, hp, htag]
      simp only [marksInTime, hat] at h
      cases t with
      | write wr' =>
          obtain rfl : wr = wr' := hruns
          cases wr with
          | enqueue a =>
              intro d hsaves copy hcopy
              cases hpayload : a.payload with
              | draftSave d' base patch =>
                  obtain rfl : d' = d := by simpa [hpayload, QueuedPayload.saves] using hsaves
                  simpa [hpayload, hcopy] using h
              | upload u | send d' key base | flag targets f value key | move targets f key =>
                  simp [hpayload, QueuedPayload.saves] at hsaves
          | updateAction x patch =>
              exact fun a d _ _ _ hrevived => absurd (beq_iff_eq.mp h) hrevived
          | putLocalDraft draft =>
              obtain ⟨hdirty, hrole⟩ := Bool.and_eq_true_iff.mp h
              show MayCopy (ops i) draft (c.world.outside.2 i) c.world.store
              cases hop : ops i with
              | sync =>
                  refine .inl ?_
                  have hfound : ∃ a ∈ c.world.store.queue.rows,
                      (a.payload.saves draft.draftId = true ∧ a.state = .pending) ∧
                        a.localId ∉ c.world.outside.2 i := by
                    simpa [hop] using hrole
                  obtain ⟨a, ha, ⟨hsaves, hpending⟩, hnot⟩ := hfound
                  exact ⟨a, ha, hsaves, hpending, hnot⟩
              | resolveReview x choice => exact fun hclean => by simp [hdirty] at hclean
              | noteComparedServerCopy x server => exact fun hclean => by simp [hdirty] at hclean
              | _ => exact .inl hdirty
          | _ => trivial
      | stop x => simp at h
      | _ => exact hruns.elim
  | answer i r => exact fun _ _ _ _ _ => trivial
  | spawn op | abort i e | stop i | tick t => trivial

/-- The sample device, tracked. -/
def sampleMarks : Config offlineSignature (Journal × Joined) :=
  ⟨⟨Device.empty, (Journal.start sampleServer, fun _ => [])⟩, []⟩

/-- A second edit is queued while the first one is replayed and settled. -/
def sampleMarked : List (Event (offlineSystem false)) :=
  sampleGeneration 0 1 ++ sampleCopied 1 ++ sampleSave 2 3 5 1 "a" ++ samplePass 3 ++
    [.commit 3, .commit 3, .commit 3] ++ sampleSave 4 4 6 1 "b" ++ [.answer 3 (sampleAnswer 7)] ++
    sampleSettle 3 1 ++ sampleCopying 3

/-- The settlement leaves the mark, since the second edit waits. -/
theorem saves_marked_sample : ∃ ops c,
    ReachesAs (markSystem false) ops (marking ops) sampleMarks c ∧
      markView c.world.store = (some .synced, some true) ∧
        (c.world.store.drafts.find? 10).map (·.baseRevision) = some 2 ∧
          SavesMarked c.world.store := by
  have hrun : (sampleMarks.runChecked (markSystem false)
      (marksInTime (rolesOf OfflineOp.sync sampleMarked)) (sampleMarked.map Event.track)).map (fun c =>
        (markView c.world.store, (c.world.store.drafts.find? 10).map (·.baseRevision))) =
        some ((some .synced, some true), some 2) := by
    decide +kernel
  obtain ⟨c, hc, hview⟩ := Option.map_eq_some_iff.mp hrun
  obtain ⟨hmarks, hbase⟩ := Prod.mk.inj hview
  have hreach := ReachesAs.of_events (fun _ _ => marking_of_marksInTime) rfl OfflineOp.sync hc
  have h₀ : OfflineStart sampleMarks.untrack := sampleOffline_start
  exact ⟨_, c, hreach, hmarks, hbase, saves_marked h₀ hreach⟩

end MailHub.Offline
