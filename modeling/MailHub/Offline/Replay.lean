import MailHub.Offline.Passes

/-!
# The programs of the device keep to their description

Walking along each program once shows that every statement and every request of it is what
`Described` and `Asked` say, whatever runs in between.
-/

namespace MailHub.Offline

open Relational Interleaving MailHub OfflineStore

variable {fails : Bool} {i j : ℕ} {α β : Type} {o o' : Journal}
  {w w' : World offlineSignature Journal}

/-! ## What a worker knows -/

/-- Knowledge that depends on the worker's own pass and on what is on record. -/
def Lasting (i : ℕ) (K : World offlineSignature Journal → Prop) : Prop :=
  ∀ w w', w'.outside.passOf i = w.outside.passOf i → Grows w w' → K w → K w'

/-- The actions of a list were enqueued and still ask for the same work. -/
def Known (l : List QueuedAction) (w : World offlineSignature Journal) : Prop :=
  ∀ a ∈ l, ∃ e ∈ w.store.enqueued, SameWork e a

/-- The acknowledged files of a list are on record. -/
def Acknowledged (l : List LocalUpload) (w : World offlineSignature Journal) : Prop :=
  ∀ u ∈ l, u.serverId ≠ none ∨ u.attachedAt ≠ none → u.localId ∈ w.outside.acknowledged

variable {K L : World offlineSignature Journal → Prop}

theorem Lasting.stable (hK : Lasting i K) : Stable (offlineDiscipline fails) i K :=
  fun w w' hr _ hk => hK w w' hr.1 hr.2 hk

theorem Lasting.and (hK : Lasting i K) (hL : Lasting i L) : Lasting i fun w => K w ∧ L w :=
  fun w w' hp he hk => ⟨hK w w' hp he hk.1, hL w w' hp he hk.2⟩

theorem Lasting.nothing : Lasting i fun _ => True := fun _ _ _ _ _ => True.intro

theorem Known.grow {l : List QueuedAction} (hk : Known l w) (h : Grows w w') : Known l w' := by
  intro a ha
  obtain ⟨e, hmem, hsame⟩ := hk a ha
  exact ⟨e, h.enqueued.subset hmem, hsame⟩

theorem Known.lasting {l : List QueuedAction} : Lasting i (Known l) := fun _ _ _ he hk => hk.grow he

/-- Knowledge that depends on what is on record only. -/
def Durable (K : World offlineSignature Journal → Prop) : Prop := ∀ w w', Grows w w' → K w → K w'

theorem Durable.lasting (hK : Durable K) : Lasting i K := fun w w' _ he hk => hK w w' he hk

theorem Acknowledged.grow {l : List LocalUpload} (hk : Acknowledged l w) (h : Grows w w') :
    Acknowledged l w' := fun u hu hdone => h.acknowledged.subset (hk u hu hdone)

theorem Acknowledged.durable {l : List LocalUpload} : Durable (Acknowledged l) :=
  fun _ _ he hk => hk.grow he

/-- What the store holds is known. -/
theorem Frozen.known {l : List QueuedAction} (hs : Frozen w.store)
    (hl : ∀ a ∈ l, a ∈ w.store.queue) : Known l w :=
  fun a ha => hs.queued a (hl a ha)

theorem mem_pendingOf {s : Device} {a : QueuedAction} :
    a ∈ pendingOf s ↔ a ∈ s.queue ∧ a.state = .pending := by
  simp [pendingOf]

theorem mem_allOf {s : Device} {a : QueuedAction} : a ∈ allOf s ↔ a ∈ s.queue := by
  simp [allOf, Table.mem_iff]

/-! ## Statements -/

/-- A commit of worker `i` that the others can rely on. -/
theorem keeps_commit {tag : Option StoreTag} {s : Device}
    (hs : Recorded (Config.committed (offlineSystem fails) w i tag s))
    (hgrow : Grows w (Config.committed (offlineSystem fails) w i tag s)) :
    (offlineDiscipline fails).Keeps i w (Config.committed (offlineSystem fails) w i tag s) :=
  ⟨hs, fun _ hj => ⟨Journal.passOf_observe hj, hgrow⟩⟩

/-- A commit that changes no row and settles nothing. -/
theorem keeps_quiet {tag : Option StoreTag} {s : Device} (hw : Recorded w)
    (hqueue : s.queue = w.store.queue) (huploads : s.uploads = w.store.uploads)
    (henqueued : s.enqueued = w.store.enqueued) (hfiled : s.filed = w.store.filed) :
    (offlineDiscipline fails).Keeps i w (Config.committed (offlineSystem fails) w i tag s) := by
  obtain ⟨hsynced, hacknowledged, hconflicts⟩ := Journal.observe_grows i tag w.store w.outside
  refine keeps_commit ⟨⟨?_, fun a ha => ?_⟩, ⟨?_, ?_, ?_⟩, fun a ha hstate => ?_,
    fun u hu hdone => ?_⟩ ⟨?_, ?_, hsynced, hacknowledged, ?_⟩
  · show (s.enqueued.map (·.localId)).Nodup
    rw [henqueued]
    exact hw.frozen.nodup
  · show ∃ e ∈ s.enqueued, SameWork e a
    rw [henqueued]
    exact hw.frozen.queued a (hqueue ▸ ha)
  · show (s.filed.map (·.localId)).Nodup
    rw [hfiled]
    exact hw.filing.nodup
  · show ∀ u ∈ s.uploads, ∃ f ∈ s.filed, _
    rw [hfiled, huploads]
    exact hw.filing.uploads
  · show ∀ e ∈ s.enqueued, ∀ x, e.payload = .upload x → x ∈ s.filed.map (·.localId)
    rw [hfiled, henqueued]
    exact hw.filing.named
  · exact hsynced.subset (hw.synced a (hqueue ▸ ha) hstate)
  · exact hacknowledged.subset (hw.acknowledged u (huploads ▸ hu) hdone)
  · show w.store.enqueued <+: s.enqueued
    exact henqueued ▸ List.prefix_refl _
  · show w.store.filed <+: s.filed
    exact hfiled ▸ List.prefix_refl _
  · show w.outside.conflicts <+: (w.outside.observe i tag w.store).conflicts
    exact hconflicts ▸ List.prefix_refl _

/-- A failure that is no answer of the service. -/
def OfflineFailure.Inner (e : OfflineFailure) : Prop := ∀ error, e ≠ .api error

/-- A statement fails only because an identifier came twice. -/
theorem Write.exec_error {wr : Write} {s : Device} {e : OfflineFailure}
    (h : wr.exec s = .error e) : e.Inner := by
  have hadd : ∀ {s₁ : Device} {a : QueuedAction}, s₁.addAction a = .error e → e.Inner := by
    intro s₁ a ha
    unfold Device.addAction at ha
    split at ha
    · obtain rfl := Except.error.inj ha
      exact fun error => by simp
    · cases ha
  cases wr with
  | enqueue action => exact hadd h
  | putPendingUploadWithAction upload action =>
      simp only [Write.exec] at h
      cases hup : s.addUpload upload with
      | error e' =>
          unfold Device.addUpload at hup
          split at hup
          · obtain rfl := Except.error.inj hup
            rw [show s.addUpload upload = .error .identifierTaken from
              if_pos ‹_›] at h
            obtain rfl := Except.error.inj h
            exact fun error => by simp
          · cases hup
      | ok s₁ =>
          rw [hup] at h
          exact hadd h
  | _ => cases h

/-- Storage fails with no answer of the service. -/
theorem offlineSystem_fault {e : OfflineFailure} (h : (offlineSystem fails).fault e = true) :
    e.Inner := by
  intro error he
  subst he
  simp [offlineSystem] at h

/-- A warranted statement is safe; what it leads to holds for good. -/
theorem safe_write {wr : Write} {Q : Unit → World offlineSignature Journal → Prop}
    {E : OfflineFailure → World offlineSignature Journal → Prop} (hK : Lasting i K) (hw : K w)
    (hwarrant : ∀ w, Recorded w → K w → Warranted i wr w)
    (hQ : ∀ w w', K w → w'.outside.passOf i = (w.outside.afterWrite i wr).passOf i →
      Grows w w' → Q ⟨⟩ w')
    (hE : ∀ e w, e.Inner → K w → E e w) :
    Safe (offlineDiscipline fails) i (write wr) w Q E := by
  intro w' hr hi
  have hw' : K w' := hK.stable w w' hr hi hw
  refine ⟨fun e he => ?_, fun e he => ?_, fun b s hf _ => ?_⟩
  · exact .throw fun w₂ hr₂ hi₂ => hE e w₂ (offlineSystem_fault he)
      (hK.stable w' w₂ hr₂ hi₂ hw')
  · have hinner : e.Inner := by
      have hmap : (wr.exec w'.store).map (fun s' => ((), s')) = .error e := he
      cases hexec : wr.exec w'.store with
      | error e' =>
          rw [hexec] at hmap
          obtain rfl := Except.error.inj hmap
          exact Write.exec_error hexec
      | ok s =>
          rw [hexec] at hmap
          cases hmap
    exact .throw fun w₂ hr₂ hi₂ => hE e w₂ hinner (hK.stable w' w₂ hr₂ hi₂ hw')
  · obtain ⟨s₁, hexec, heq⟩ := except_map_eq_ok.mp hf
    obtain ⟨rfl, rfl⟩ := Prod.mk.inj heq
    obtain ⟨hrecorded, hgrow⟩ := Recorded.write fails hi (hwarrant w' hi hw') hexec
    refine ⟨keeps_commit hrecorded hgrow, ⟨hexec, hwarrant w' hi hw'⟩, ?_⟩
    exact .pure fun w₂ hr₂ _ => hQ w' w₂ hw' hr₂.1 (hgrow.trans hr₂.2)

/-- Statements that any program may run at any time. -/
def Write.Plain : Write → Prop
  | enqueue action => action.state = .pending ∧ action.reviewReason = none ∧
      ∀ x, action.payload ≠ .upload x
  | putPendingUploadWithAction upload action =>
      action.state = .pending ∧ action.reviewReason = none ∧
        action.payload = .upload upload.localId
  | updateAction _ patch =>
      patch.payload = none ∧ patch.state ≠ some .synced ∧
        patch.reviewReason ≠ some (some .draftConflict)
  | updateUpload _ patch => patch.attachedAt = none
  | pruneActions _ | pruneUploads _ => False
  | _ => True

theorem Write.Plain.work {wr : Write} (h : wr.Plain) (s : Device) : KeepsWork wr s := by
  cases wr with
  | updateAction localId patch =>
      intro payload hp
      rw [h.1] at hp
      cases hp
  | _ => trivial

theorem Write.Plain.warranted {wr : Write} (h : wr.Plain) (w : World offlineSignature Journal) :
    Warranted i wr w := by
  cases wr with
  | enqueue action => exact ⟨h.1, h.2.1, fun x hx => absurd hx (h.2.2 x)⟩
  | putPendingUploadWithAction upload action => exact h
  | updateAction localId patch =>
      refine ⟨h.work w.store, fun hs => absurd hs h.2.1, fun payload hp => ?_,
        fun hreason => absurd hreason h.2.2⟩
      rw [h.1] at hp
      cases hp
  | updateUpload localId patch => exact fun _ hattached => absurd h hattached
  | pruneActions localIds | pruneUploads localIds => exact h.elim
  | _ => trivial

theorem Write.Plain.pass {wr : Write} (h : wr.Plain) (o : Journal) :
    (o.afterWrite i wr).pass = o.pass := by
  cases wr with
  | updateAction localId patch => simp [Journal.afterWrite, h.1, h.2.1]
  | putPendingUploadWithAction upload action =>
      simp only [Journal.afterWrite]
      split <;> rfl
  | updateUpload localId patch =>
      simp only [Journal.afterWrite]
      split <;> rfl
  | _ => rfl

namespace Lasting

theorem write {wr : Write} (hK : Lasting i K) (h : wr.Plain) :
    Preserves (offlineDiscipline fails) i K (OfflineStore.write wr) :=
  ⟨fun _ hw => safe_write hK hw (fun w _ _ => h.warranted w)
    (fun w w' hk hpass hgrow =>
      hK w w' (hpass.trans (Journal.passOf_congr (h.pass w.outside))) hgrow hk)
    fun _ _ _ hk => hk⟩

theorem read (hK : Lasting i K) (f : Device → α) :
    Preserves (offlineDiscipline fails) i K (OfflineStore.read f) := .read hK.stable f

/-- What is on record when the store is read stays known. -/
theorem read_bind {f : Device → α} {g : α → OfflineProgram β}
    {L : α → World offlineSignature Journal → Prop} (hK : Lasting i K)
    (hL : ∀ a, Lasting i (L a)) (hread : ∀ w, Recorded w → L (f w.store) w)
    (hg : ∀ a, Preserves (offlineDiscipline fails) i (fun w => K w ∧ L a w) (g a)) :
    Preserves (offlineDiscipline fails) i K (OfflineStore.read f >>= g) := by
  refine ⟨fun w hw => .bind (.read (fun w₁ hr₁ hi₁ w₂ hr₂ hi₂ => ?_)
    fun e w₁ _ hr₁ hi₁ => hK.stable w w₁ hr₁ hi₁ hw)⟩
  have hw₁ : K w₁ := hK.stable w w₁ hr₁ hi₁ hw
  have hknown : K w₂ ∧ L (f w₁.store) w₂ :=
    ⟨hK.stable w₁ w₂ hr₂ hi₂ hw₁, (hL _).stable w₁ w₂ hr₂ hi₂ (hread w₁ hi₁)⟩
  exact ((hg _).safe w₂ hknown).mono (fun _ _ _ h => h.1) fun _ _ _ h => h.1

/-- A request that touches no pass and of which nothing has to be known. -/
theorem request (hK : Lasting i K) {c : OfflineCall}
    (hc : ∀ w, Asked i c w)
    (hpass : ∀ k r o o', Journal.respond k c r o = some o' → o'.pass = o.pass) :
    Preserves (offlineDiscipline fails) i K (Program.request (S := offlineSignature) c) := by
  refine ⟨fun w hw => .request fun w' hr hi r o hresp _ => ?_⟩
  have hpassed : ∀ j, o.passOf j = w'.outside.passOf j := fun j =>
    Journal.passOf_congr (hpass i r w'.outside o hresp)
  have hsettled := Journal.respond_settled hresp
  have hw' : K ⟨w'.store, o⟩ :=
    hK w' _ (hpassed i) hsettled.grows (hK.stable w w' hr hi hw)
  exact ⟨⟨hi.settled hsettled, fun j _ => ⟨hpassed j, hsettled.grows⟩⟩, hc w',
    (Preserves.ofExcept hK.stable r).safe _ hw'⟩

theorem total (hK : Lasting i K) {c : OfflineCall} (hc : ∀ w, Asked i c w)
    (htotal : ∀ k r o, Journal.respond k c r o = o.total r) :
    Preserves (offlineDiscipline fails) i K (Program.request (S := offlineSignature) c) :=
  hK.request hc fun k r o o' h => by
    rw [htotal] at h
    rw [(Journal.total_eq h).1]

theorem timestamp (hK : Lasting i K) :
    Preserves (offlineDiscipline fails) i K OfflineStore.timestamp :=
  hK.total (fun _ => True.intro) fun _ _ _ => rfl

theorem generateId (hK : Lasting i K) :
    Preserves (offlineDiscipline fails) i K OfflineStore.generateId :=
  hK.total (fun _ => True.intro) fun _ _ _ => rfl

theorem edit (hK : Lasting i K) {tag : EditTag}
    {f : Table DraftAutosaver → Except OfflineFailure (α × Table DraftAutosaver)} :
    Preserves (offlineDiscipline fails) i K (OfflineStore.edit tag f) := by
  refine ⟨fun w hw w' hr hi => ⟨fun e _ => ?_, fun e _ => ?_, fun b s hf _ => ?_⟩⟩
  · exact (Preserves.throw hK.stable e).safe w' (hK.stable w w' hr hi hw)
  · exact (Preserves.throw hK.stable e).safe w' (hK.stable w w' hr hi hw)
  · obtain ⟨r, -, heq⟩ := except_map_eq_ok.mp hf
    obtain ⟨rfl, rfl⟩ := Prod.mk.inj heq
    have hkeeps : (offlineDiscipline fails).Keeps i w' (Config.committed (offlineSystem fails) w'
        i (some (.edit tag)) { w'.store with editors := r.2 }) := keeps_quiet hi rfl rfl rfl rfl
    have hpass : ((w'.outside.observe i (some (.edit tag)) w'.store).passOf i) =
        w'.outside.passOf i := by
      obtain ⟨learnt, hlearnt⟩ := Journal.afterEdit_eq i w'.store w'.outside tag
      simp only [Journal.observe]
      rw [hlearnt]
      rfl
    refine ⟨hkeeps, ⟨r.2, rfl⟩, ?_⟩
    exact (Preserves.pure hK.stable r.1).safe _
      (hK w' _ hpass (hkeeps.rely (i + 1) (Nat.succ_ne_self i)).2 (hK.stable w w' hr hi hw))

/-! ### Programs that any worker may run -/

theorem putLocalDraft (hK : Lasting i K) (draft : LocalDraft) :
    Preserves (offlineDiscipline fails) i K (OfflineStore.putLocalDraft draft) :=
  hK.timestamp.bind fun _ => hK.write True.intro

/-- Marking an acknowledged file as attached. -/
theorem markUploadAttached (hK : Lasting i K) {localId : Uuid}
    (hknown : ∀ w, K w → localId ∈ w.outside.acknowledged) :
    Preserves (offlineDiscipline fails) i K (OfflineStore.markUploadAttached localId) := by
  refine hK.timestamp.bind fun now => ⟨fun w hw => ?_⟩
  refine safe_write hK hw (fun w _ hw _ _ => hknown w hw) (fun w w' hw hpass hgrow => ?_)
    fun _ _ _ hw => hw
  exact hK w w' hpass hgrow hw

theorem deleteAction (hK : Lasting i K) (localId : Uuid) :
    Preserves (offlineDiscipline fails) i K (OfflineStore.deleteAction localId) :=
  hK.write True.intro

theorem markUploadAcknowledged (hK : Lasting i K) (localId serverId : Uuid) :
    Preserves (offlineDiscipline fails) i K
      (OfflineStore.markUploadAcknowledged localId serverId) :=
  hK.write rfl

theorem buildAction (hK : Lasting i K) (payload : QueuedPayload) (generation : Uuid)
    {f : QueuedAction → OfflineProgram β}
    (hf : ∀ a, a.state = .pending → a.reviewReason = none → a.payload = payload →
      Preserves (offlineDiscipline fails) i K (f a)) :
    Preserves (offlineDiscipline fails) i K (OfflineStore.buildAction payload generation >>= f) := by
  unfold OfflineStore.buildAction
  simp only [Program.bind_eq, Program.bind_assoc]
  exact hK.generateId.bind fun localId => hK.timestamp.bind fun queuedAt =>
    hf _ rfl rfl rfl

theorem enqueue (hK : Lasting i K) {payload : QueuedPayload} (generation : Uuid)
    (hpayload : ∀ w, K w → ∀ x, payload = .upload x → x ∈ w.store.filed.map (·.localId)) :
    Preserves (offlineDiscipline fails) i K (OfflineStore.enqueue payload generation) :=
  hK.buildAction payload generation fun a hpending hreason hsame => by
    refine .bind ⟨fun w hw => safe_write hK hw (fun w _ hw => ⟨hpending, hreason, fun x hx => ?_⟩)
      (fun w w' hw hpass hgrow => hK w w' hpass hgrow hw) fun _ _ _ hw => hw⟩
      fun _ => .pure hK.stable _
    exact hpayload w hw x (hsame.symm.trans hx)

theorem putPendingUploadWithAction (hK : Lasting i K) (upload : NewUpload) (generation : Uuid) :
    Preserves (offlineDiscipline fails) i K
      (OfflineStore.putPendingUploadWithAction upload generation) :=
  hK.generateId.bind fun _ => hK.timestamp.bind fun _ =>
    hK.buildAction _ generation fun _ hpending hreason hpayload =>
      .bind (hK.write ⟨hpending, hreason, hpayload⟩) fun _ => .pure hK.stable _

/-- The history only loses what is synced. -/
theorem pruneSyncedActions (hK : Lasting i K) :
    Preserves (offlineDiscipline fails) i K OfflineStore.pruneSyncedActions := by
  have hlasting : ∀ l : List QueuedAction,
      Lasting i fun w => ∀ a ∈ l, a.localId ∈ w.outside.synced :=
    fun l w w' _ hgrow h a ha => hgrow.synced.subset (h a ha)
  refine hK.read_bind (L := fun l w => ∀ a ∈ l, a.localId ∈ w.outside.synced) hlasting
    (fun w hw a ha => ?_) fun synced => ?_
  · have hmem : a ∈ w.store.queue ∧ a.state = .synced := by
      simpa [OfflineStore.syncedOf] using ha
    exact hw.synced a hmem.1 hmem.2
  · have hboth := hK.and (hlasting synced)
    refine .ite (fun _ => ⟨fun w hw => ?_⟩) fun _ => .pure hboth.stable _
    refine safe_write hboth hw (fun w _ hw x hx => ?_)
      (fun w w' hw hpass hgrow => hboth w w' hpass hgrow hw) fun _ _ _ hw => hw
    obtain ⟨a, ha, rfl⟩ := List.mem_map.mp hx
    exact hw.2 a (List.mem_of_mem_drop ha)

theorem pruneSettledLocalRecords (hK : Lasting i K) :
    Preserves (offlineDiscipline fails) i K OfflineStore.pruneSettledLocalRecords := by
  refine hK.timestamp.bind fun now => (hK.read _).bind fun drafts => ?_
  have huploads : Preserves (offlineDiscipline fails) i K (do
      let uploads ← OfflineStore.read fun s => s.uploads.rows
      let staleUploads := (uploads.filter fun u =>
        u.attachedAt.any (· < now - settledRecordRetentionMs)).map (·.localId)
      if staleUploads ≠ [] then
        OfflineStore.write (.pruneUploads staleUploads)) := by
    refine hK.read_bind (L := Acknowledged) (fun _ => Acknowledged.durable.lasting)
      (fun w hw u hu hdone => hw.acknowledged u (Table.mem_iff.mpr hu) hdone) fun uploads => ?_
    have hboth := hK.and (Acknowledged.durable (l := uploads)).lasting
    refine .ite (fun _ => ⟨fun w hw => ?_⟩) fun _ => .pure hboth.stable _
    refine safe_write hboth hw (fun w _ hw x hx => ?_)
      (fun w w' hw hpass hgrow => hboth w w' hpass hgrow hw) fun _ _ _ hw => hw
    obtain ⟨u, hu, rfl⟩ := List.mem_map.mp hx
    obtain ⟨hmem, hattached⟩ := List.mem_filter.mp hu
    refine hw.2 u hmem (.inr fun hnone => ?_)
    simp [hnone] at hattached
  exact .ite (fun _ => .bind (hK.write True.intro) fun _ => huploads) fun _ => huploads

theorem observeGeneration (hK : Lasting i K) (current : Option Uuid) :
    Preserves (offlineDiscipline fails) i K (Offline.observeGeneration current) := by
  cases current with
  | none => exact .pure hK.stable _
  | some generation =>
      refine (hK.read _).bind fun previous => .bind (hK.write True.intro) fun _ => ?_
      cases previous with
      | none => exact .pure hK.stable _
      | some previous =>
          refine .ite (fun _ => .pure hK.stable _) fun _ => hK.timestamp.bind fun _ =>
            .bind (hK.write True.intro) fun _ => (hK.read _).bind fun actions => ?_
          refine Preserves.bind (.forIn hK.stable fun action _ _ => ?_) fun _ => .pure hK.stable _
          exact .ite (fun _ => .bind (hK.write ⟨rfl, by simp [restoredPatch]⟩)
            fun _ => .pure hK.stable _) fun _ => .pure hK.stable _

theorem reconcileOrphanedUploads (hK : Lasting i K) :
    Preserves (offlineDiscipline fails) i K Offline.reconcileOrphanedUploads := by
  have hdurable : ∀ l : List LocalUpload, Durable fun w =>
      ∀ u ∈ l, u.localId ∈ w.store.filed.map (·.localId) :=
    fun l w w' hgrow h u hu => (hgrow.filed.map _).subset (h u hu)
  refine (hK.read _).bind fun actions => ?_
  refine hK.read_bind (L := fun l w => ∀ u ∈ l, u.localId ∈ w.store.filed.map (·.localId))
    (fun l => (hdurable l).lasting) (fun w hw u hu => ?_) fun uploads => ?_
  · have hmem : u ∈ w.store.uploads ∧ u.serverId = none := by simpa using hu
    obtain ⟨f, hf, hid, -⟩ := hw.filing.uploads u hmem.1
    exact List.mem_map.mpr ⟨f, hf, hid⟩
  have hboth := hK.and (hdurable uploads).lasting
  refine Preserves.bind (.forIn hboth.stable fun upload hupload _ => ?_)
    fun _ => .pure hboth.stable _
  refine .ite (fun _ => (hboth.enqueue _ fun w hw x hx => ?_).bind fun _ => .pure hboth.stable _)
    fun _ => .pure hboth.stable _
  obtain rfl := QueuedPayload.upload.inj hx
  exact hw.2 upload hupload

end Lasting

/-! ## Replaying one action -/

/-- Worker `i` has a pass that satisfies a condition. -/
def Passing (i : ℕ) (P : Pass → Prop) (w : World offlineSignature Journal) : Prop :=
  ∃ p, w.outside.passOf i = some p ∧ P p

/-- The pass replays `q` and has otherwise come as far as `p₀`. -/
def Replaying (p₀ : Pass) (q : QueuedAction) (P : Attempt → Prop) (p : Pass) : Prop :=
  p.todo = p₀.todo ∧ p.generation = p₀.generation ∧ ∃ a, p.attempt = some a ∧ a.queued = q ∧ P a

/-- Nothing was accepted yet; the last header and the files are known when they were read. -/
structure Trying (ready : Bool) (header : Option (Option Uuid)) (a : Attempt) : Prop where
  chain : a.chain = none
  accepted : a.accepted = false
  files : ready = true → a.filesReady = true
  headers : ∀ g, header = some g → a.header = some g

/-- How the replay ended: a save is accepted exactly when its outcome is synced. -/
structure Ended (q : QueuedAction) (outcome : ReplayOutcome) (a : Attempt) : Prop where
  chain : a.chain = none
  synced : a.accepted = true → ∃ revision serverId,
    outcome = .synced (some revision) serverId ∧ a.revision = some revision
  accepted : q.payload.isSave = true → ∀ revision serverId,
    outcome = .synced revision serverId → a.accepted = true

theorem Passing.lasting {P : Pass → Prop} : Lasting i (Passing i P) :=
  fun _ _ hp _ ⟨p, hw, hP⟩ => ⟨p, hp.trans hw, hP⟩

theorem Passing.mono {P Q : Pass → Prop} (h : ∀ p, P p → Q p) (hw : Passing i P w) :
    Passing i Q w := by
  obtain ⟨p, hp, hP⟩ := hw
  exact ⟨p, hp, h p hP⟩

theorem Replaying.mono {p₀ p : Pass} {q : QueuedAction} {P Q : Attempt → Prop}
    (h : ∀ a, P a → Q a) (hp : Replaying p₀ q P p) : Replaying p₀ q Q p := by
  obtain ⟨htodo, hgen, a, ha, hq, hP⟩ := hp
  exact ⟨htodo, hgen, a, ha, hq, h a hP⟩

theorem Passing.attempt {p₀ : Pass} {q : QueuedAction} {P : Attempt → Prop}
    (h : Passing i (Replaying p₀ q P) w) :
    ∃ a, w.outside.attemptOf i = some a ∧ a.queued = q ∧ P a := by
  obtain ⟨p, hp, -, -, a, ha, hq, hP⟩ := h
  exact ⟨a, by simp [Journal.attemptOf, hp, ha], hq, hP⟩

/-- What a worker does to its pass. -/
theorem Passing.onPass {P Q : Pass → Prop} {f : Pass → Pass} (hw : Passing i P w)
    (hf : ∀ p, (f p).worker = p.worker) (h : ∀ p, P p → Q (f p))
    (hw' : w'.outside.passOf i = (w.outside.onPass i f).passOf i) : Passing i Q w' := by
  obtain ⟨p, hp, hP⟩ := hw
  refine ⟨f p, ?_, h p hP⟩
  rw [hw', Journal.passOf_onPass hf, hp, Option.map_some]

/-- What a worker does to its attempt leaves the rest of its pass alone. -/
theorem Passing.onAttempt {p₀ : Pass} {q : QueuedAction} {P Q : Attempt → Prop}
    {f : Attempt → Attempt} (hw : Passing i (Replaying p₀ q P) w)
    (hf : ∀ a, (f a).queued = a.queued) (h : ∀ a, P a → Q (f a))
    (hw' : w'.outside.passOf i = (w.outside.onAttempt i f).passOf i) :
    Passing i (Replaying p₀ q Q) w' := by
  refine hw.onPass (f := fun p => { p with attempt := p.attempt.map f }) (fun _ => rfl)
    (fun p hp => ?_) hw'
  obtain ⟨htodo, hgen, a, ha, hq, hP⟩ := hp
  exact ⟨htodo, hgen, f a, by simp [ha], (hf a).trans hq, h a hP⟩

/-- Reading the store under a name is safe; what it leads to holds for good. -/
theorem safe_look {tag : StoreTag} {f : Device → α}
    {Q : α → World offlineSignature Journal → Prop}
    {E : OfflineFailure → World offlineSignature Journal → Prop} (hK : Lasting i K) (hw : K w)
    (hdescribed : ∀ w, K w → Described i (some tag) w
      (Config.committed (offlineSystem fails) w i (some tag) w.store))
    (hQ : ∀ w, K w → Recorded w → ∀ w', w'.outside.passOf i =
      (w.outside.observe i (some tag) w.store).passOf i → Grows w w' → Q (f w.store) w')
    (hE : ∀ e w, e.Inner → K w → E e w) :
    Safe (offlineDiscipline fails) i (look tag f) w Q E := by
  intro w' hr hi
  have hw' : K w' := hK.stable w w' hr hi hw
  refine ⟨fun e he => ?_, fun e he => by simp at he, fun b s hf _ => ?_⟩
  · exact .throw fun w₂ hr₂ hi₂ => hE e w₂ (offlineSystem_fault he)
      (hK.stable w' w₂ hr₂ hi₂ hw')
  · obtain ⟨rfl, rfl⟩ : f w'.store = b ∧ w'.store = s := by simpa using hf
    have hkeeps : (offlineDiscipline fails).Keeps i w' (Config.committed (offlineSystem fails) w'
        i (some tag) w'.store) := keeps_quiet hi rfl rfl rfl rfl
    refine ⟨hkeeps, hdescribed w' hw', ?_⟩
    have hgrow := (hkeeps.rely (i + 1) (Nat.succ_ne_self i)).2
    exact .pure fun w₂ hr₂ _ => hQ w' hw' hi w₂ hr₂.1 (hgrow.trans hr₂.2)

/-- A request that touches no pass. -/
theorem safe_ask {c : OfflineCall} {Q : c.Answer → World offlineSignature Journal → Prop}
    {E : OfflineFailure → World offlineSignature Journal → Prop} (hK : Lasting i K) (hw : K w)
    (hc : ∀ w, K w → Asked i c w)
    (hpass : ∀ k r o o', Journal.respond k c r o = some o' → o'.pass = o.pass)
    (hQ : ∀ a w, K w → Q a w)
    (hE : ∀ e w o, K w → Journal.respond i c (.error e) w.outside = some o → ∀ w',
      Grows ⟨w.store, o⟩ w' → K w' → E e w') :
    Safe (offlineDiscipline fails) i (Program.request (S := offlineSignature) c) w Q E := by
  refine .request fun w' hr hi r o hresp _ => ?_
  have hpassed : ∀ j, o.passOf j = w'.outside.passOf j := fun j =>
    Journal.passOf_congr (hpass i r w'.outside o hresp)
  have hsettled := Journal.respond_settled hresp
  have hw' : K w' := hK.stable w w' hr hi hw
  have ho : K ⟨w'.store, o⟩ := hK w' _ (hpassed i) hsettled.grows hw'
  refine ⟨⟨hi.settled hsettled, fun j _ => ⟨hpassed j, hsettled.grows⟩⟩, hc w' hw', ?_⟩
  cases r with
  | ok a => exact .pure fun w₂ hr₂ hi₂ => hQ a w₂ (hK.stable _ w₂ hr₂ hi₂ ho)
  | error e =>
      exact .throw fun w₂ hr₂ hi₂ => hE e w' o hw' hresp w₂ hr₂.2 (hK.stable _ w₂ hr₂ hi₂ ho)

/-! ### Handlers -/

/-- Whether a failure says that the base revision is stale. -/
def OfflineFailure.Stale (e : OfflineFailure) : Prop := (toApiError e).code = "draft_stale"

/-- A stale base of an action is on record. -/
def OnRecord (q : QueuedAction) (e : OfflineFailure) (w : World offlineSignature Journal) : Prop :=
  e.Stale → q.localId ∈ w.outside.conflicts

theorem OfflineFailure.Inner.not_stale {e : OfflineFailure} (he : e.Inner) : ¬ e.Stale := by
  cases e with
  | api error => exact absurd rfl (he error)
  | _ => simp [Stale, toApiError]

theorem not_stale_of_mayFail {e : OfflineFailure} (he : Journal.mayFail e = true) :
    ¬ e.Stale := by
  cases e with
  | api error => simpa [OfflineFailure.Stale, toApiError, Journal.mayFail] using he
  | lost taken => simp [OfflineFailure.Stale, toApiError]
  | _ => simp [Journal.mayFail] at he

theorem OnRecord.of_not {q : QueuedAction} {e : OfflineFailure} (he : ¬ e.Stale) : OnRecord q e w :=
  fun hstale => absurd hstale he

theorem classifyReplayFailure_ne_synced {e : OfflineFailure} {b : Bool} {revision : Option ℕ}
    {serverId : Option Uuid} : classifyReplayFailure e b ≠ .synced revision serverId := by
  unfold classifyReplayFailure
  simp only
  split
  · split <;> simp
  split
  · simp
  split
  · simp
  split
  · simp
  split <;> simp

/-- Only a stale base is parked as a conflict. -/
theorem stale_of_classify {e : OfflineFailure} {b : Bool}
    (h : classifyReplayFailure e b = .review .draftConflict) : e.Stale := by
  unfold classifyReplayFailure at h
  simp only at h
  split at h
  · split at h <;> simp at h
  split at h
  · simp at h
  split at h
  next hcode => exact hcode
  split at h
  · simp at h
  split at h <;> simp at h

/-- A replay without an accepted request ends so, unless it reports a save as synced. -/
theorem Trying.ended {q : QueuedAction} {outcome : ReplayOutcome} {ready : Bool}
    {header : Option (Option Uuid)} {a : Attempt} (h : Trying ready header a)
    (hno : q.payload.isSave = true → ∀ revision serverId,
      outcome ≠ .synced revision serverId) : Ended q outcome a where
  chain := h.chain
  synced hacc := by simp [h.accepted] at hacc
  accepted hsave revision serverId he := absurd he (hno hsave revision serverId)

theorem Trying.weaken {ready : Bool} {header : Option (Option Uuid)} {a : Attempt}
    (h : Trying ready header a) : Trying ready none a :=
  ⟨h.chain, h.accepted, h.files, by simp⟩

section

variable {p₀ : Pass} {q : QueuedAction} {ready : Bool} {header : Option (Option Uuid)}

/-- What is known of a replay between its requests. -/
def Replays (i : ℕ) (p₀ : Pass) (q : QueuedAction) (ready : Bool)
    (header : Option (Option Uuid)) : World offlineSignature Journal → Prop :=
  Passing i (Replaying p₀ q (Trying ready header))

/-- What is known of a replay that ended: a conflict is on record. -/
def Replayed (i : ℕ) (p₀ : Pass) (q : QueuedAction) (outcome : ReplayOutcome)
    (w : World offlineSignature Journal) : Prop :=
  Passing i (Replaying p₀ q (Ended q outcome)) w ∧
    (outcome = .review .draftConflict → q.localId ∈ w.outside.conflicts)

/-- What is known of a replay whose request failed. -/
def Broken (i : ℕ) (p₀ : Pass) (q : QueuedAction) (ready : Bool) (e : OfflineFailure)
    (w : World offlineSignature Journal) : Prop := Replays i p₀ q ready none w ∧ OnRecord q e w

theorem Replays.lasting : Lasting i (Replays i p₀ q ready header) := Passing.lasting

theorem Replayed.lasting {outcome : ReplayOutcome} : Lasting i (Replayed i p₀ q outcome) :=
  fun w w' hp he hw =>
    ⟨Passing.lasting w w' hp he hw.1, fun h => he.conflicts.subset (hw.2 h)⟩

theorem Broken.lasting {e : OfflineFailure} : Lasting i (Broken i p₀ q ready e) :=
  fun w w' hp he hw =>
    ⟨Replays.lasting w w' hp he hw.1, fun h => he.conflicts.subset (hw.2 h)⟩

theorem Replays.weaken (h : Replays i p₀ q ready header w) : Replays i p₀ q ready none w :=
  h.mono fun _ => .mono fun _ => .weaken

theorem Replays.inner {e : OfflineFailure} (h : Replays i p₀ q ready header w) (he : e.Inner) :
    Broken i p₀ q ready e w := ⟨h.weaken, .of_not he.not_stale⟩

theorem Replays.replayed {outcome : ReplayOutcome} (h : Replays i p₀ q ready header w)
    (hno : q.payload.isSave = true → ∀ revision serverId,
      outcome ≠ .synced revision serverId) (hconflict : outcome ≠ .review .draftConflict) :
    Replayed i p₀ q outcome w :=
  ⟨h.mono fun _ => .mono fun _ ha => ha.ended hno, fun h => absurd h hconflict⟩

theorem Broken.replayed {e : OfflineFailure} {b : Bool} (h : Broken i p₀ q ready e w) :
    Replayed i p₀ q (classifyReplayFailure e b) w :=
  ⟨h.1.mono fun _ => .mono fun _ ha => ha.ended fun _ _ _ => classifyReplayFailure_ne_synced,
    fun hconflict => h.2 (stale_of_classify hconflict)⟩

/-- Returning an outcome. -/
theorem safe_outcome {outcome : ReplayOutcome}
    {E : OfflineFailure → World offlineSignature Journal → Prop}
    (h : Replayed i p₀ q outcome w) :
    Safe (offlineDiscipline fails) i (Pure.pure outcome : OfflineProgram ReplayOutcome) w
      (fun outcome => Replayed i p₀ q outcome) E :=
  .pure fun w' hr hi => Replayed.lasting.stable w w' hr hi h

/-- A classified failure ends a replay without acceptance. -/
theorem safe_replaying {request : OfflineProgram ReplayOutcome} {b : Bool}
    {E : OfflineFailure → World offlineSignature Journal → Prop}
    (h : Safe (offlineDiscipline fails) i request w (fun outcome => Replayed i p₀ q outcome)
      (Broken i p₀ q ready)) :
    Safe (offlineDiscipline fails) i (replaying request b) w
      (fun outcome => Replayed i p₀ q outcome) E :=
  .handle (h.mono (fun _ _ _ => id) fun _ _ _ hw => safe_outcome hw.replayed)

/-- Reading the header generation, for a request that comes next. -/
theorem safe_headers {Q : β → World offlineSignature Journal → Prop}
    {f : Option Uuid → OfflineProgram β} (hw : Replays i p₀ q ready none w)
    (hf : ∀ g w', Replays i p₀ q ready (some g) w' →
      Safe (offlineDiscipline fails) i (f g) w' Q (Broken i p₀ q ready)) :
    Safe (offlineDiscipline fails) i (generationHeaders >>= f) w Q (Broken i p₀ q ready) := by
  refine .bind (safe_look Replays.lasting hw (fun _ _ => rfl) (fun w₁ hw₁ _ w₂ hw₂ _ => ?_)
    fun e w₁ he hw₁ => hw₁.inner he)
  refine hf _ w₂ (hw₁.onAttempt (f := fun a => { a with header := some w₁.store.serverGeneration })
    (fun _ => rfl) (fun a ha => ?_) hw₂)
  exact ⟨ha.chain, ha.accepted, ha.files, fun g hg => hg⟩

/-- A replayed request that is not a save is safe, and its outcome ends the replay. -/
theorem safe_gated {c : OfflineCall} {g : Option Uuid} {f : c.Answer → ReplayOutcome}
    (hw : Replays i p₀ q ready (some g) w) (hsave : q.payload.isSave = false)
    (hc : ∀ w, Replays i p₀ q ready (some g) w → Asked i c w)
    (hpass : ∀ k r o o', Journal.respond k c r o = some o' → o'.pass = o.pass)
    (hf : ∀ a, f a ≠ .review .draftConflict)
    (hE : ∀ e w o, Replays i p₀ q ready (some g) w →
      Journal.respond i c (.error e) w.outside = some o → OnRecord q e ⟨w.store, o⟩) :
    Safe (offlineDiscipline fails) i
      ((Program.request (S := offlineSignature) c : OfflineProgram c.Answer) >>=
        fun a => pure (f a)) w
      (fun outcome => Replayed i p₀ q outcome) (Broken i p₀ q ready) := by
  refine .bind (safe_ask Replays.lasting hw hc hpass (fun a w hw => ?_)
    fun e w o hw hresp w' hgrow hw' => ⟨hw'.weaken, fun hstale => ?_⟩)
  · exact safe_outcome (hw.replayed (fun h => by simp [hsave] at h) (hf a))
  · exact hgrow.conflicts.subset (hE e w o hw hresp hstale)

/-- A request without a base revision does not fail as stale. -/
theorem onRecord_of_plain {A : Type} {e : OfflineFailure}
    (h : o.plain (.error e : Except OfflineFailure A) = some o') : OnRecord q e w :=
  .of_not (not_stale_of_mayFail (Option.ite_none_right_eq_some.mp h).1)

theorem Replays.asked {g : Option Uuid} (hw : Replays i p₀ q ready (some g) w) :
    ∃ a, w.outside.attemptOf i = some a ∧ a.header = some g := by
  obtain ⟨a, ha, -, htry⟩ := hw.attempt
  exact ⟨a, ha, htry.headers g rfl⟩

/-- A refusal as stale is recorded with the action under replay. -/
theorem onRecord_of_refused {d : Uuid} {g : Option Uuid} {e : OfflineFailure} {a : Attempt}
    (ha : o.attemptOf i = some a) (haq : a.queued = q) :
    OnRecord q e ⟨w.store, (o.requested i g).refused i none d⟩ := by
  intro _
  have hattempt : Journal.attemptOf i { o.requested i g with
      stale := (o.requested i g).stale ++ [d] } = some a := by
    rw [Journal.attemptOf_congr (o := o) (by simp)]
    exact ha
  show q.localId ∈ ((o.requested i g).refused i none d).conflicts
  simp only [Journal.refused, if_true, Journal.conflicted, hattempt, haq, Option.map_some,
    Option.toList_some]
  exact List.mem_append_right _ (List.mem_singleton_self _)

/-- The same holds of a send. -/
theorem onRecord_of_answerSend {d : Uuid} {g : Option Uuid} {base : ℕ} {e : OfflineFailure}
    {a : Attempt} (ha : o.attemptOf i = some a) (haq : a.queued = q)
    (h : ((o.requested i g).sent i d).answerSend i false d base (.error e) = some o') :
    OnRecord q e ⟨w.store, o'⟩ := by
  intro hstale
  have hattempt : ((o.requested i g).sent i d).attemptOf i = some a := by
    rw [Journal.attemptOf_congr (o := o) (by simp)]
    exact ha
  cases e with
  | api error =>
      have hcode : error.code = "draft_stale" := hstale
      unfold Journal.answerSend at h
      simp only [hcode, if_true] at h
      obtain ⟨-, h⟩ := Option.ite_none_left_eq_some.mp h
      obtain rfl := Option.some.inj h
      show q.localId ∈ (((o.requested i g).sent i d).conflicted i).conflicts
      simp only [Journal.conflicted, hattempt, haq, Option.map_some, Option.toList_some]
      exact List.mem_append_right _ (List.mem_singleton_self _)
  | _ => simp [OfflineFailure.Stale, toApiError] at hstale

/-- The request of a replayed save; an acceptance is recorded with it. -/
theorem safe_patchDraft {g : Option Uuid} {d : Uuid} {base : ℕ} {patch : DraftEditPatch}
    (hw : Replays i p₀ q ready (some g) w) (hq : q.payload = .draftSave d base patch) :
    Safe (offlineDiscipline fails) i (apiPatchDraft none g d (editBody patch base)) w
      (fun draft => Passing i (Replaying p₀ q fun a => a.chain = none ∧ a.accepted = true ∧
        a.revision = some draft.revision))
      (Broken i p₀ q ready) := by
  refine .request fun w' hr hi r o hresp _ => ?_
  have hw' : Replays i p₀ q ready (some g) w' := Replays.lasting.stable w w' hr hi hw
  obtain ⟨a, ha, haq, htry⟩ := hw'.attempt
  have hasked : Asked i (.patchDraft none g d (editBody patch base)) w' :=
    ⟨a, base, patch, ha, htry.headers g rfl, haq ▸ hq, rfl⟩
  have hsettled : w'.outside.SameSettled o :=
    Journal.respond_settled (c := .patchDraft none g d (editBody patch base)) hresp
  have hresp' : (w'.outside.requested i g).answerPatch i none d (editBody patch base) r =
      some o := hresp
  have hfail : ∀ e, r = .error e → o.pass = w'.outside.pass → OnRecord q e ⟨w'.store, o⟩ →
      (offlineDiscipline fails).Keeps i w' ⟨w'.store, o⟩ ∧
        Asked i (.patchDraft none g d (editBody patch base)) w' ∧
          Safe (offlineDiscipline fails) i (Program.ofExcept r) ⟨w'.store, o⟩ (fun draft =>
            Passing i (Replaying p₀ q fun a => a.chain = none ∧ a.accepted = true ∧
              a.revision = some draft.revision)) (Broken i p₀ q ready) := by
    rintro e rfl hpass hrecord
    have hpassed : ∀ j, o.passOf j = w'.outside.passOf j := fun j => Journal.passOf_congr hpass
    have ho : Replays i p₀ q ready (some g) ⟨w'.store, o⟩ :=
      Replays.lasting w' _ (hpassed i) hsettled.grows hw'
    refine ⟨⟨hi.settled hsettled, fun j _ => ⟨hpassed j, hsettled.grows⟩⟩, hasked, ?_⟩
    exact .throw fun w₂ hr₂ hi₂ => Broken.lasting.stable _ w₂ hr₂ hi₂ ⟨ho.weaken, hrecord⟩
  cases Journal.answerPatch_answered hresp' with
  | taken record server hr' hnone hrun =>
      subst hr'
      refine ⟨⟨hi.settled hsettled, fun j hj => ⟨?_, hsettled.grows⟩⟩, hasked, ?_⟩
      · exact (Journal.passOf_onAttempt_ne hj).trans
          (Journal.passOf_congr (Journal.edited_pass.trans Journal.requested_pass))
      · refine .pure fun w₂ hr₂ _ => ?_
        refine Passing.onAttempt (f := fun a =>
          { a with accepted := true, revision := some record.revision }) hw' (fun _ => rfl)
            (fun a ha => ⟨ha.chain, rfl, rfl⟩) (hr₂.1.trans (Journal.passOf_congr ?_))
        simp only [Journal.onAttempt, Journal.onPass, Journal.edited_pass, Journal.requested_pass]
  | saved record server hr' hsome hrun => exact absurd rfl hsome
  | refused e message revision hr' hrun =>
      exact hfail _ hr' (Journal.refused_pass.trans Journal.requested_pass)
        (onRecord_of_refused ha haq)
  | unheard time record server hr' hrun =>
      have hpass : (Journal.edited i none d (editBody patch base) server
          (w'.outside.requested i g)).pass = w'.outside.pass :=
        Journal.edited_pass.trans Journal.requested_pass
      exact hfail _ hr' hpass (.of_not (by simp [OfflineFailure.Stale, toApiError]))
  | failed e hr' he =>
      exact hfail e hr' Journal.requested_pass (.of_not (not_stale_of_mayFail he))

theorem safe_saveDraft {E : OfflineFailure → World offlineSignature Journal → Prop} {d : Uuid}
    {base : ℕ} {patch : DraftEditPatch} (hw : Replays i p₀ q ready none w)
    (hq : q.payload = .draftSave d base patch) :
    Safe (offlineDiscipline fails) i (Offline.saveDraft d base patch) w
      (fun outcome => Replayed i p₀ q outcome) E := by
  refine safe_replaying (safe_headers hw fun g w' hw' => ?_)
  refine .bind ((safe_patchDraft hw' hq).mono (fun draft w₂ _ hw₂ => ?_) fun _ _ _ => id)
  refine safe_outcome ⟨hw₂.mono fun _ => .mono fun a ha => ⟨ha.1, fun _ => ?_, fun _ _ _ _ => ?_⟩,
    by simp⟩
  · exact ⟨draft.revision, none, rfl, ha.2.2⟩
  · exact ha.2.1

theorem safe_uploadBytes {E : OfflineFailure → World offlineSignature Journal → Prop}
    {upload : LocalUpload} (hw : Replays i p₀ q ready none w) (hsave : q.payload.isSave = false) :
    Safe (offlineDiscipline fails) i (Offline.uploadBytes upload) w
      (fun outcome => Replayed i p₀ q outcome) E :=
  safe_replaying (safe_headers hw fun _ _ hw' => safe_gated hw' hsave (fun _ hw => hw.asked)
    (fun _ _ _ _ h => (Journal.plain_pass h).trans Journal.requested_pass) (by simp)
    fun _ _ _ _ h => onRecord_of_plain (A := Uuid) h)

theorem safe_runMailAction {E : OfflineFailure → World offlineSignature Journal → Prop}
    {kind : ActionKind} {targets : List FrozenTarget} {destination : Option Uuid} {key : String}
    (hw : Replays i p₀ q ready none w) (hsave : q.payload.isSave = false) :
    Safe (offlineDiscipline fails) i (Offline.runMailAction kind targets destination key) w
      (fun outcome => Replayed i p₀ q outcome) E := by
  unfold Offline.runMailAction
  split
  · exact safe_outcome (hw.replayed (fun h => by simp [hsave] at h) (by simp))
  · exact safe_replaying (safe_headers hw fun _ _ hw' => safe_gated hw' hsave
      (fun _ hw => hw.asked) (fun _ _ _ _ h => (Journal.plain_pass h).trans Journal.requested_pass)
      (by simp) fun _ _ _ _ h => onRecord_of_plain (A := Unit) h)

/-- Marking a file as attached fails with no answer of the service. -/
theorem safe_markUploadAttached (hL : Durable L) {localId : Uuid} {ids : List Uuid}
    (hknown : ∀ w, L w → localId ∈ w.outside.acknowledged)
    (hw : Replays i p₀ q ready none w ∧ L w) :
    Safe (offlineDiscipline fails) i (do
      OfflineStore.markUploadAttached localId
      return ids : OfflineProgram (List Uuid)) w
      (fun _ w => Replays i p₀ q ready none w ∧ L w) (Broken i p₀ q ready) := by
  have hboth : Lasting i fun w => Replays i p₀ q ready none w ∧ L w :=
    Replays.lasting.and hL.lasting
  unfold OfflineStore.markUploadAttached
  simp only [Program.bind_eq, Program.bind_assoc]
  refine .bind (safe_ask hboth hw (fun _ _ => True.intro)
    (fun k r o o' h => by rw [(Journal.total_eq h).1]) (fun now w hw => ?_)
    fun e w o _ hresp _ _ _ => ?_)
  · refine .bind (safe_write hboth hw (fun w _ hw _ _ => hknown w hw.2)
      (fun w w' hw hpass hgrow => ?_) fun e w he hw => hw.1.inner he)
    have hw' := hboth w w' hpass hgrow hw
    exact .pure fun w₂ hr hi => hboth.stable w' w₂ hr hi hw'
  · have htotal : w.outside.total (.error e : Except OfflineFailure Time) = some o := hresp
    obtain ⟨-, a, ha⟩ := Journal.total_eq htotal
    cases ha

theorem safe_attachUpload (hL : Durable L) {d : Uuid} {upload : LocalUpload} {serverId : Uuid}
    {known : Option (List Uuid)} (hknown : ∀ w, L w → upload.localId ∈ w.outside.acknowledged)
    (hw : Replays i p₀ q ready none w ∧ L w) :
    Safe (offlineDiscipline fails) i (Offline.attachUpload d upload serverId known) w
      (fun _ w => Replays i p₀ q ready none w ∧ L w) (Broken i p₀ q ready) := by
  have hlasting : ∀ header, Lasting i fun w => Replays i p₀ q ready header w ∧ L w :=
    fun _ => Replays.lasting.and hL.lasting
  have hlink : ∀ ids w, Replays i p₀ q ready none w ∧ L w →
      Safe (offlineDiscipline fails) i (do
        if !ids.contains serverId then
          let generation ← generationHeaders
          apiPostAttachment false generation d serverId
        OfflineStore.markUploadAttached upload.localId
        return ids : OfflineProgram (List Uuid)) w
        (fun _ w => Replays i p₀ q ready none w ∧ L w) (Broken i p₀ q ready) := by
    intro ids w hw
    split
    · refine .bind (safe_look (hlasting none) hw (fun _ _ => rfl)
        (fun w₁ hw₁ _ w₂ hw₂ hgrow => ?_) fun e w₁ he hw₁ => hw₁.1.inner he)
      have hheader : Replays i p₀ q ready (some w₁.store.serverGeneration) w₂ :=
        hw₁.1.onAttempt (f := fun a => { a with header := some w₁.store.serverGeneration })
          (fun _ => rfl) (fun a ha => ⟨ha.chain, ha.accepted, ha.files, fun g hg => hg⟩) hw₂
      refine .bind (safe_ask (hlasting _) ⟨hheader, hL w₁ w₂ hgrow hw₁.2⟩ (fun _ hw => hw.1.asked)
        (fun _ _ _ _ h => (Journal.plain_pass h).trans Journal.requested_pass)
        (fun _ w hw => safe_markUploadAttached hL hknown ⟨hw.1.weaken, hw.2⟩)
        fun e w o _ hresp w' _ hw' => ⟨hw'.1.weaken, onRecord_of_plain (A := Unit) hresp⟩)
    · exact safe_markUploadAttached hL hknown hw
  unfold Offline.attachUpload
  cases known with
  | some ids => exact hlink ids w hw
  | none =>
      refine .bind (safe_ask (hlasting none) hw
        (fun _ _ => True.intro) (fun _ _ _ _ h => Journal.plain_pass h)
        (fun ids w hw => hlink ids w hw)
        fun e w o _ hresp w' _ hw' => ⟨hw'.1, onRecord_of_plain (A := List Uuid) hresp⟩)

theorem safe_attachUploads {E : OfflineFailure → World offlineSignature Journal → Prop} {d : Uuid}
    {uploads : List LocalUpload} {known : Option (List Uuid)}
    (hw : Replays i p₀ q ready none w) (hknown : Acknowledged uploads w) :
    Safe (offlineDiscipline fails) i (Offline.attachUploads d uploads known) w
      (fun r w => (∀ outcome, r = some outcome → q.payload.isSave = false →
        Replayed i p₀ q outcome w) ∧ (r = none → Replays i p₀ q ready none w ∧
          uploads.all (·.serverId.isSome) = true)) E := by
  induction uploads generalizing known w with
  | nil =>
      exact .pure fun w' hr hi => ⟨by simp, fun _ =>
        ⟨Replays.lasting.stable w w' hr hi hw, by simp⟩⟩
  | cons upload uploads ih =>
      unfold Offline.attachUploads
      cases hid : upload.serverId with
      | none =>
          refine .pure fun w' hr hi => ⟨fun outcome he hsave => ?_, by simp⟩
          obtain rfl := Option.some.inj he
          exact (Replays.lasting.stable w w' hr hi hw).replayed (fun h => by simp [hsave] at h)
            (by simp)
      | some serverId =>
          have hrest : ∀ known w, Replays i p₀ q ready none w → Acknowledged uploads w →
              Safe (offlineDiscipline fails) i (Offline.attachUploads d uploads known) w
                (fun r w => (∀ outcome, r = some outcome → q.payload.isSave = false →
                  Replayed i p₀ q outcome w) ∧ (r = none → Replays i p₀ q ready none w ∧
                    (upload :: uploads).all (·.serverId.isSome) = true)) E := by
            intro known w hw hknown
            refine (ih hw hknown).mono (fun r w' _ hr => ⟨hr.1, fun hnone => ?_⟩) fun _ _ _ => id
            exact ⟨(hr.2 hnone).1, by simp [hid, (hr.2 hnone).2]⟩
          have htail : Acknowledged uploads w := fun u hu => hknown u (List.mem_cons_of_mem _ hu)
          simp only
          split
          · exact hrest known w hw htail
          · refine .bind (.attempt ((safe_attachUpload Acknowledged.durable
              (fun w hw => hw upload List.mem_cons_self (.inl (by simp [hid]))) ⟨hw, hknown⟩).mono
              (fun ids w' _ hw' w₂ hr hi => ?_) fun e w' _ hw' w₂ hr hi => ?_))
            · have hw₂ := (Replays.lasting.and Acknowledged.durable.lasting).stable w' w₂ hr hi hw'
              exact hrest (some ids) w₂ hw₂.1 fun u hu => hw₂.2 u (List.mem_cons_of_mem _ hu)
            · refine .pure fun w₃ hr₃ hi₃ => ⟨fun outcome he hsave => ?_, by simp⟩
              obtain rfl := Option.some.inj he
              exact (Broken.lasting.stable w₂ w₃ hr₃ hi₃
                (Broken.lasting.stable w' w₂ hr hi hw')).replayed

theorem safe_queueSend {E : OfflineFailure → World offlineSignature Journal → Prop} {d : Uuid}
    {key : String} {base : ℕ} (hw : Replays i p₀ q false none w)
    (hq : q.payload = .send d key base) (hE : ∀ e w, E e w) :
    Safe (offlineDiscipline fails) i (Offline.queueSend d key base) w
      (fun outcome => Replayed i p₀ q outcome) E := by
  have hsave : q.payload.isSave = false := by rw [hq]; rfl
  refine .bind (safe_look Replays.lasting hw (fun w hw => ?_) (fun w₁ hw₁ hrec w₂ hw₂ hgrow => ?_)
    fun e w _ _ => hE e w)
  · obtain ⟨a, ha, haq, -⟩ := hw.attempt
    exact ⟨rfl, a, key, base, ha, haq ▸ hq⟩
  have hfiles : Replays i p₀ q ((uploadsOf d w₁.store).all (·.serverId.isSome)) none w₂ := by
    refine Passing.onAttempt (f := fun a =>
      { a with filesReady := (uploadsOf d w₁.store).all (·.serverId.isSome) }) hw₁ (fun _ => rfl)
        (fun a ha => ?_) hw₂
    exact ⟨ha.chain, ha.accepted, fun h => h, by simp⟩
  have hknown : Acknowledged (uploadsOf d w₁.store) w₂ := by
    intro u hu hdone
    have hmem : u ∈ w₁.store.uploads := by
      have hselected : u ∈ w₁.store.uploads ∧ u.draftId = d := by simpa [uploadsOf] using hu
      exact hselected.1
    exact hgrow.acknowledged.subset (hrec.acknowledged u hmem hdone)
  refine .bind ((safe_attachUploads hfiles hknown).mono (fun r w₃ _ hw₃ => ?_) fun _ _ _ => id)
  cases r with
  | some outcome => exact safe_outcome (hw₃.1 outcome rfl hsave)
  | none =>
      have hready : Replays i p₀ q true none w₃ := by
        obtain ⟨hreplays, hall⟩ := hw₃.2 rfl
        rwa [hall] at hreplays
      refine safe_replaying (safe_headers hready fun g w' hw' => ?_)
      refine safe_gated hw' hsave (fun w hw => ?_) (fun k r o o' h =>
        (Journal.answerSend_pass h).trans (Journal.sent_pass.trans Journal.requested_pass))
        (by simp) fun e w o hw h => ?_
      · obtain ⟨a, ha, haq, htry⟩ := hw.attempt
        exact ⟨a, ha, htry.headers g rfl, haq ▸ hq, htry.files rfl⟩
      · obtain ⟨a, ha, haq, -⟩ := hw.attempt
        exact onRecord_of_answerSend ha haq h

/-! ### Settlement -/

/-- The replay is over and its pass can go on. -/
def Concluding (i : ℕ) (p₀ : Pass) : World offlineSignature Journal → Prop :=
  Passing i fun p => p.todo = p₀.todo ∧ p.generation = p₀.generation ∧ p.Concluded

theorem Concluding.lasting : Lasting i (Concluding i p₀) := Passing.lasting

/-- A replay that was not accepted, or replays no save, has nothing to chain. -/
theorem Replayed.concluding {outcome : ReplayOutcome} (h : Replayed i p₀ q outcome w)
    (hno : q.payload.isSave = true → ∀ revision serverId,
      outcome ≠ .synced (some revision) serverId) : Concluding i p₀ w := by
  refine h.1.mono fun p hp => ?_
  obtain ⟨htodo, hgen, a, ha, rfl, hended⟩ := hp
  refine ⟨htodo, hgen, fun a' ha' hacc d base patch hpayload => ?_⟩
  obtain rfl : a = a' := by simpa [ha] using ha'
  obtain ⟨revision, serverId, he, -⟩ := hended.synced hacc
  exact absurd he (hno (by rw [hpayload]; rfl) revision serverId)

/-- Marking an action synced. -/
theorem safe_markSynced {revision : Option ℕ} {serverId : Option Uuid} {time : Time}
    (hw : Replayed i p₀ q (.synced revision serverId) w) :
    Safe (offlineDiscipline fails) i (updateAction q.localId (syncedPatch time)) w
      (fun _ => Replayed i p₀ q (.synced revision serverId)) fun _ _ => True := by
  have hnone : (syncedPatch time).payload = none := rfl
  refine safe_write Replayed.lasting hw (fun w _ hw => ?_)
    (fun w w' hw hpass hgrow => Replayed.lasting w w' hpass hgrow hw) fun _ _ _ _ => trivial
  refine ⟨fun payload hp => by simp [hnone] at hp, fun _ => ?_,
    fun payload hp => by simp [hnone] at hp, fun hreason => by simp [syncedPatch] at hreason⟩
  obtain ⟨a, ha, rfl, hended⟩ := hw.1.attempt
  exact ⟨a, ha, rfl, fun hsave => hended.accepted hsave revision serverId rfl⟩

/-- What is left to chain, of the actions that the settlement listed. -/
def Chaining (i : ℕ) (p₀ : Pass) (q : QueuedAction) (d : Uuid) (revision : ℕ)
    (rest : List QueuedAction) (w : World offlineSignature Journal) : Prop :=
  Passing i (Replaying p₀ q fun a => ∃ c, a.chain = some c ∧ a.revision = some revision ∧
    (∀ e ∈ rest, e ∈ c) ∧ ∀ e ∈ c, e.payload.chains d revision = true → e ∈ rest) w ∧
  Known rest w

theorem Chaining.lasting {d : Uuid} {revision : ℕ} {rest : List QueuedAction} :
    Lasting i (Chaining i p₀ q d revision rest) := Passing.lasting.and Known.lasting

/-- An entry that nothing has to be chained for is passed over. -/
theorem Chaining.skip {d : Uuid} {revision : ℕ} {e : QueuedAction} {rest : List QueuedAction}
    (hw : Chaining i p₀ q d revision (e :: rest) w)
    (he : e.payload.chains d revision = false) : Chaining i p₀ q d revision rest w := by
  refine ⟨hw.1.mono fun _ => .mono ?_, fun a ha => hw.2 a (List.mem_cons_of_mem _ ha)⟩
  rintro a ⟨c, hc, hrev, hsub, hall⟩
  refine ⟨c, hc, hrev, fun x hx => hsub x (List.mem_cons_of_mem _ hx), fun x hx hchains => ?_⟩
  rcases List.mem_cons.mp (hall x hx hchains) with rfl | hmem
  · simp [he] at hchains
  · exact hmem

/-- Chaining one entry forward. -/
theorem safe_chainEntry {d : Uuid} {revision base : ℕ} {edits : DraftEditPatch} {e : QueuedAction}
    {rest : List QueuedAction} (hw : Chaining i p₀ q d revision (e :: rest) w)
    (hq : q.payload = .draftSave d base edits) (hchains : e.payload.chains d revision = true)
    (hnodup : ((e :: rest).map (·.localId)).Nodup) :
    Safe (offlineDiscipline fails) i
      (updateAction e.localId { payload := some (e.payload.rebased revision) }) w
      (fun _ => Chaining i p₀ q d revision rest) fun _ _ => True := by
  refine safe_write Chaining.lasting hw (fun w _ hw => ⟨?_, by simp, fun payload hp => ?_, by simp⟩)
    (fun w w' hw hpass hgrow => ?_) fun _ _ _ _ => trivial
  · rintro payload hp
    obtain rfl : e.payload.rebased revision = payload := by simpa using hp
    obtain ⟨e', he', hsame⟩ := hw.2 e (by simp)
    exact ⟨e', he', hsame.localId, by rw [hsame.work, QueuedPayload.work_rebased]⟩
  · obtain rfl : e.payload.rebased revision = payload := by simpa using hp
    obtain ⟨a, ha, haq, c, hc, hrev, hsub, -⟩ := hw.1.attempt
    exact .inr ⟨a, c, revision, d, base, edits, ha, hc, hrev, haq ▸ hq, e, hsub e (by simp), rfl,
      hchains, rfl⟩
  · have hne : ∀ x ∈ rest, x.localId ≠ e.localId := by
      intro x hx heq
      exact (List.nodup_cons.mp hnodup).1 (List.mem_map.mpr ⟨x, hx, heq⟩)
    refine ⟨hw.1.onAttempt (f := Journal.unchain e.localId) (fun _ => rfl) ?_ hpass, ?_⟩
    · rintro a ⟨c, hc, hrev, hsub, hall⟩
      refine ⟨c.filter (·.localId != e.localId), by simp [Journal.unchain, hc], hrev, fun x hx => ?_,
        fun x hx hchains => ?_⟩
      · exact List.mem_filter.mpr ⟨hsub x (List.mem_cons_of_mem _ hx), by simpa using hne x hx⟩
      · obtain ⟨hmem, hid⟩ := List.mem_filter.mp hx
        rcases List.mem_cons.mp (hall x hmem hchains) with rfl | hrest
        · simp at hid
        · exact hrest
    · have hknown : Known rest w := fun a ha => hw.2 a (List.mem_cons_of_mem _ ha)
      exact hknown.grow hgrow

/-- Chaining all entries forward leaves nothing to chain. -/
theorem safe_chainForward {d : Uuid} {revision base : ℕ} {edits : DraftEditPatch}
    {rest : List QueuedAction} (hw : Chaining i p₀ q d revision rest w)
    (hq : q.payload = .draftSave d base edits) (hnodup : (rest.map (·.localId)).Nodup) :
    Safe (offlineDiscipline fails) i (chainForward d revision rest) w
      (fun _ => Chaining i p₀ q d revision []) fun _ _ => True := by
  induction rest generalizing w with
  | nil => exact .pure fun w' hr hi => Chaining.lasting.stable w w' hr hi hw
  | cons e rest ih =>
      have hrest : (rest.map (·.localId)).Nodup := (List.nodup_cons.mp hnodup).2
      unfold chainForward
      split
      next hchains =>
        exact .bind ((safe_chainEntry hw hq hchains hnodup).mono (fun _ w' _ hw' => ih hw' hrest)
          fun _ _ _ => id)
      next hchains => exact ih (hw.skip (by simpa using hchains)) hrest

theorem Chaining.concluding {d : Uuid} {revision base : ℕ} {patch : DraftEditPatch}
    (hw : Chaining i p₀ q d revision [] w) (hq : q.payload = .draftSave d base patch) :
    Concluding i p₀ w := by
  refine hw.1.mono fun p hp => ?_
  obtain ⟨htodo, hgen, a, ha, rfl, c, hc, hrev, -, hall⟩ := hp
  refine ⟨htodo, hgen, fun a' ha' _ d' base' patch' hpayload => ?_⟩
  obtain rfl : a = a' := by simpa [ha] using ha'
  obtain ⟨rfl, -, -⟩ : d = d' ∧ base = base' ∧ patch = patch' := by simpa [hq] using hpayload
  refine ⟨c, revision, hc, hrev, fun e he => ?_⟩
  by_contra hchains
  exact absurd (hall e he (by simpa using hchains)) (by simp)

theorem nodup_pendingOf (s : Device) : ((pendingOf s).map (·.localId)).Nodup := by
  have hperm := List.perm_insertionSort (replaysBefore · ·) (s.queue.select (·.state == .pending))
  refine ((hperm.map (·.localId)).nodup_iff).mpr ?_
  exact s.queue.nodup.sublist (List.filter_sublist.map _)

/-- Settling a synced action leaves nothing to chain. -/
theorem safe_settleSynced {revision : Option ℕ} {serverId : Option Uuid}
    (hw : Replayed i p₀ q (.synced revision serverId) w) :
    Safe (offlineDiscipline fails) i (settleSynced q revision serverId) w
      (fun _ => Concluding i p₀) fun _ _ => True := by
  have hdone : ∀ w, Concluding i p₀ w → Safe (offlineDiscipline fails) i
      (Pure.pure ⟨⟩ : OfflineProgram Unit) w (fun _ => Concluding i p₀) fun _ _ => True :=
    fun w hw => .pure fun w' hr hi => Concluding.lasting.stable w w' hr hi hw
  have hlocal : ∀ w draft, Concluding i p₀ w → Safe (offlineDiscipline fails) i
      (putLocalDraft draft) w (fun _ => Concluding i p₀) fun _ _ => True := fun w draft hw =>
    ((Concluding.lasting.putLocalDraft draft).safe w hw).mono (fun _ _ _ => id)
      fun _ _ _ _ => trivial
  unfold settleSynced
  refine Replayed.lasting.timestamp.andThen hw (fun time w₁ hw₁ => .bind ?_) fun _ _ _ => trivial
  refine (safe_markSynced hw₁).mono (fun _ w₂ _ hw₂ => ?_) fun _ _ _ => id
  have hconcluding : (q.payload.isSave = true → revision = none) → Concluding i p₀ w₂ :=
    fun hno => hw₂.concluding fun hsave revision' serverId' he => by
      simp [hno hsave] at he
  cases hq : q.payload with
  | draftSave d base patch =>
      cases revision with
      | none => exact hdone w₂ (hconcluding fun _ => rfl)
      | some revision =>
          refine .bind (safe_look Replayed.lasting hw₂ (fun _ _ => rfl)
            (fun w₃ hw₃ hrecorded w₄ hw₄ hgrow => ?_) fun _ _ _ _ => trivial)
          have hchaining : Chaining i p₀ q d revision (pendingOf w₃.store) w₄ := by
            have hknown : Known (pendingOf w₃.store) w₃ :=
              hrecorded.frozen.known fun a ha => (mem_pendingOf.mp ha).1
            refine ⟨Passing.onAttempt (f := fun a =>
              { a with chain := some (pendingOf w₃.store) }) hw₃.1 (fun _ => rfl) (fun a ha => ?_) hw₄,
              hknown.grow hgrow⟩
            refine ⟨pendingOf w₃.store, rfl, ?_, fun e he => he, fun e he _ => he⟩
            have hacc := ha.accepted (by rw [hq]; rfl) _ _ rfl
            obtain ⟨revision', serverId', he, hrev⟩ := ha.synced hacc
            obtain ⟨hrevision, -⟩ : revision = revision' ∧ serverId = serverId' := by simpa using he
            rw [hrevision]
            exact hrev
          refine .bind ((safe_chainForward hchaining hq (nodup_pendingOf _)).mono
            (fun _ w₅ _ hw₅ => ?_) fun _ _ _ => id)
          refine (Concluding.lasting.read _).andThen (hw₅.concluding hq) (fun local' w₆ hw₆ => ?_)
            fun _ _ _ => trivial
          cases local' with
          | none => exact hdone w₆ hw₆
          | some draft =>
              simp only
              split
              · exact hlocal w₆ _ hw₆
              · exact hdone w₆ hw₆
  | send d key base =>
      refine (Concluding.lasting.read _).andThen (hconcluding fun h => by simp [hq, QueuedPayload.isSave] at h)
        (fun pending w₃ hw₃ => ?_) fun _ _ _ => trivial
      refine (Concluding.lasting.read _).andThen hw₃ (fun local' w₄ hw₄ => ?_) fun _ _ _ => trivial
      cases local' with
      | none => exact hdone w₄ hw₄
      | some draft =>
          simp only
          split
          · exact hlocal w₄ _ hw₄
          · exact hdone w₄ hw₄
  | upload localUploadId =>
      have hw₃ := hconcluding fun h => by simp [hq, QueuedPayload.isSave] at h
      cases serverId with
      | none => exact hdone w₂ hw₃
      | some serverId =>
          exact ((Concluding.lasting.markUploadAcknowledged _ serverId).safe w₂ hw₃).mono
            (fun _ _ _ => id) fun _ _ _ _ => trivial
  | flag targets flag value key => exact hdone w₂ (hconcluding fun h => by simp [hq, QueuedPayload.isSave] at h)
  | move targets destination key => exact hdone w₂ (hconcluding fun h => by simp [hq, QueuedPayload.isSave] at h)

/-- Recording an outcome lets the pass go on. -/
theorem safe_settleOutcome {outcome : ReplayOutcome} {report : SyncReport}
    (hw : Replayed i p₀ q outcome w) :
    Safe (offlineDiscipline fails) i (settleOutcome q outcome report) w
      (fun _ => Concluding i p₀) fun _ _ => True := by
  have hdone : ∀ w (r : Bool × SyncReport), Concluding i p₀ w → Safe (offlineDiscipline fails) i
      (Pure.pure r : OfflineProgram (Bool × SyncReport)) w (fun _ => Concluding i p₀)
        fun _ _ => True :=
    fun w _ hw => .pure fun w' hr hi => Concluding.lasting.stable w w' hr hi hw
  unfold settleOutcome
  cases outcome with
  | synced revision serverId =>
      exact .bind ((safe_settleSynced hw).mono (fun _ w' _ hw' => hdone w' _ hw') fun _ _ _ => id)
  | failed reason =>
      refine Preserves.andThen (Concluding.lasting.write ⟨rfl, by simp⟩) (hw.concluding (by simp))
        (fun _ w' hw' => hdone w' _ hw') fun _ _ _ => trivial
  | review reason =>
      refine .bind (safe_write Replayed.lasting hw (fun w _ hw => ⟨by simp [KeepsWork], by simp,
        by simp, fun hreason => hw.2 (by simpa using hreason)⟩)
        (fun w w' hw hpass hgrow => ?_) fun _ _ _ _ => trivial)
      have hended : Replayed i p₀ q (.review reason) w' := Replayed.lasting w w' hpass hgrow hw
      exact hdone w' _ (hended.concluding (by simp))
  | retry reason signInRequired =>
      have hw' : Concluding i p₀ w := hw.concluding (by simp)
      simp only
      split
      · exact Preserves.andThen (Concluding.lasting.write True.intro) hw'
          (fun _ w' hw' => hdone w' _ hw') fun _ _ _ => trivial
      · exact hdone w _ hw'

end

/-! ## Passes -/

/-- A pass that speaks for a generation is about to come to the actions of a list. -/
def Coming (i : ℕ) (generation : Uuid) (actions : List QueuedAction) :
    World offlineSignature Journal → Prop :=
  Passing i fun p => p.todo = actions ∧ p.generation = some generation ∧ p.Concluded

theorem Coming.lasting {generation : Uuid} {actions : List QueuedAction} :
    Lasting i (Coming i generation actions) := Passing.lasting

/-- The handler of an action, when the port has one. -/
theorem safe_handler {p₀ : Pass} {q : QueuedAction} {run : OfflineProgram ReplayOutcome}
    (hw : Replays i p₀ q false none w) (hrun : handlerFor webOfflinePort q.payload = some run) :
    Safe (offlineDiscipline fails) i run w (fun outcome => Replayed i p₀ q outcome)
      fun _ _ => True := by
  cases hq : q.payload with
  | draftSave d base patch =>
      obtain rfl : Offline.saveDraft d base patch = run := by
        simpa [handlerFor, webOfflinePort, hq] using hrun
      exact safe_saveDraft hw hq
  | upload localUploadId =>
      obtain rfl : replayUpload localUploadId Offline.uploadBytes = run := by
        simpa [handlerFor, webOfflinePort, hq] using hrun
      have hsave : q.payload.isSave = false := by rw [hq]; rfl
      refine (Replays.lasting.read _).andThen hw (fun r w₁ hw₁ => ?_) fun _ _ _ => trivial
      cases r with
      | none => exact safe_outcome (hw₁.replayed (fun h => by simp [hsave] at h) (by simp))
      | some upload =>
          simp only
          cases upload.serverId with
          | some serverId =>
              exact safe_outcome (hw₁.replayed (fun h => by simp [hsave] at h) (by simp))
          | none => exact safe_uploadBytes hw₁ hsave
  | send d key base =>
      obtain rfl : Offline.queueSend d key base = run := by
        simpa [handlerFor, webOfflinePort, hq] using hrun
      exact safe_queueSend hw hq fun _ _ => trivial
  | flag targets flag value key =>
      obtain rfl : Offline.runMailAction (flagKind flag value) targets none key = run := by
        simpa [handlerFor, webOfflinePort, hq] using hrun
      exact safe_runMailAction hw (by rw [hq]; rfl)
  | move targets destination key =>
      obtain rfl : Offline.runMailAction .move targets (some destination) key = run := by
        simpa [handlerFor, webOfflinePort, hq] using hrun
      exact safe_runMailAction hw (by rw [hq]; rfl)

/-- A pass that meets an action of another generation parks it. -/
theorem safe_stop {generation : Uuid} {actions : List QueuedAction} {localId : Uuid}
    (hw : Coming i generation actions w) :
    Safe (offlineDiscipline fails) i
      (OfflineStore.run (.stop localId) (.updateAction localId restoredPatch)) w
      (fun _ _ => True) fun _ _ => True := by
  intro w' hr hi
  refine ⟨fun e _ => ?_, fun e _ => ?_, fun b s hf _ => ?_⟩
  · exact .throw fun _ _ _ => trivial
  · exact .throw fun _ _ _ => trivial
  · obtain ⟨s₁, hexec, heq⟩ := except_map_eq_ok.mp hf
    obtain ⟨rfl, rfl⟩ := Prod.mk.inj heq
    have hplain : (Write.updateAction localId restoredPatch).Plain :=
      ⟨rfl, by simp [restoredPatch], by simp [restoredPatch]⟩
    obtain ⟨hrecorded, hgrow⟩ :=
      Recorded.write fails hi (hplain.warranted (i := i) w') hexec
    obtain ⟨p, hp, -, -, hconcluded⟩ := Coming.lasting.stable w w' hr hi hw
    have hunsettled : w'.outside.afterWrite i (.updateAction localId restoredPatch) = w'.outside := by
      simp [Journal.afterWrite, restoredPatch]
    have hrow : Recorded ⟨s₁, w'.outside⟩ := by
      have hcommitted : Recorded ⟨s₁, w'.outside.afterWrite i (.updateAction localId restoredPatch)⟩ :=
        hrecorded
      rwa [hunsettled] at hcommitted
    have hstopped : w'.outside.SameSettled (w'.outside.observe i (some (.stop localId)) w'.store) :=
      ⟨rfl, rfl, rfl, rfl, List.prefix_refl _⟩
    refine ⟨keeps_commit (hrow.settled hstopped) ⟨hgrow.enqueued, hgrow.filed, ?_, ?_, ?_⟩,
      ⟨hexec, p, hp, hconcluded⟩, .pure fun _ _ _ => trivial⟩ <;> exact List.prefix_refl _

/-- A pass that read an action again goes on with the rest of its list. -/
theorem Coming.recheck {generation : Uuid} {action : QueuedAction} {actions : List QueuedAction}
    (hw : Coming i generation (action :: actions) w)
    (hw' : w'.outside.passOf i =
      (w.outside.observe i (some (.recheck action.localId)) w.store).passOf i) :
    Coming i generation actions w' ∧ ∀ q, w.store.queue.find? action.localId = some q →
      q.state = .pending → ∃ p₀, p₀.todo = actions ∧ p₀.generation = some generation ∧ Replays i p₀ q false none w' := by
  obtain ⟨p, hp, htodo, hgeneration, -⟩ := hw
  have hpass : w'.outside.passOf i = some (p.recheck action.localId w.store) := by
    have honPass : (w.outside.onPass i (·.recheck action.localId w.store)).passOf i =
        (w.outside.passOf i).map (·.recheck action.localId w.store) :=
      Journal.passOf_onPass fun _ => rfl
    exact hw'.trans (honPass.trans (by rw [hp]; rfl))
  have htail : (p.recheck action.localId w.store).todo = actions := by simp [Pass.recheck, htodo]
  refine ⟨⟨_, hpass, htail, hgeneration, fun a ha hacc => ?_⟩, fun q hq hpending => ?_⟩
  · obtain ⟨q, -, rfl⟩ := Option.map_eq_some_iff.mp ha
    simp [Attempt.fresh] at hacc
  · refine ⟨p.recheck action.localId w.store, htail, hgeneration, _, hpass, rfl, rfl,
      Attempt.fresh w.store q, ?_, rfl, rfl, rfl, by simp, by simp⟩
    simp [Pass.recheck, hq, hpending, Option.filter]

/-- A pass comes to its actions one after the other. -/
theorem safe_replayActions {generation : Uuid} {actions : List QueuedAction} {report : SyncReport}
    (hw : Coming i generation actions w) :
    Safe (offlineDiscipline fails) i (replayActions webOfflinePort generation actions report) w
      (fun _ _ => True) fun _ _ => True := by
  induction actions generalizing w report with
  | nil => exact .pure fun _ _ _ => trivial
  | cons action actions ih =>
      unfold replayActions
      split
      · exact .bind ((safe_stop hw).mono (fun _ _ _ _ => .pure fun _ _ _ => trivial) fun _ _ _ => id)
      next hgen =>
        refine .bind (safe_look Coming.lasting hw (fun w hw => ?_)
          (fun w₁ hw₁ _ w₂ hw₂ _ => ?_) fun _ _ _ _ => trivial)
        · obtain ⟨p, hp, htodo, hgeneration, hconcluded⟩ := hw
          refine ⟨rfl, p, action, actions, hp, htodo, rfl, ?_, hconcluded⟩
          rw [hgeneration, not_not.mp hgen]
        obtain ⟨hcoming, hreplays⟩ := hw₁.recheck hw₂
        cases hq : w₁.store.queue.find? action.localId with
        | none => exact ih hcoming
        | some q =>
            simp only
            split
            · exact ih hcoming
            next hpending =>
              cases hrun : handlerFor webOfflinePort q.payload with
              | none => exact ih hcoming
              | some run =>
                  obtain ⟨p₀, htodo, hgeneration, hw₃⟩ := hreplays q hq (not_not.mp hpending)
                  refine Preserves.andThen (Replays.lasting.write ⟨rfl, by simp⟩) hw₃
                    (fun _ w₄ hw₄ => ?_) fun _ _ _ => trivial
                  refine .bind ((safe_handler hw₄ hrun).mono (fun outcome w₅ _ hw₅ => ?_)
                    fun _ _ _ => id)
                  refine .bind ((safe_settleOutcome hw₅).mono (fun r w₆ _ hw₆ => ?_)
                    fun _ _ _ => id)
                  have hnext : Coming i generation actions w₆ := hw₆.mono fun p hp =>
                    ⟨hp.1.trans htodo, hp.2.1.trans hgeneration, hp.2.2⟩
                  obtain ⟨goesOn, report'⟩ := r
                  cases goesOn with
                  | true => exact ih hnext
                  | false => exact .pure fun _ _ _ => trivial

/-- A pass that just began. -/
def Begun (i : ℕ) : World offlineSignature Journal → Prop := Passing i fun p => p.attempt = none

theorem safe_runPass (hw : Begun i w) :
    Safe (offlineDiscipline fails) i (runPass webOfflinePort) w (fun _ _ => True)
      fun _ _ => True := by
  have hend : ∀ report : SyncReport, Preserves (offlineDiscipline fails) i (fun _ => True) (do
      if report.synced > 0 then
        let now ← timestamp
        write (.lastSyncedAt now)
      pruneSyncedActions
      pruneSettledLocalRecords
      return report) := by
    intro report
    have hprune : Preserves (offlineDiscipline fails) i (fun _ => True) (do
        pruneSyncedActions
        pruneSettledLocalRecords
        return report) :=
      Lasting.nothing.pruneSyncedActions.bind fun _ =>
        Lasting.nothing.pruneSettledLocalRecords.bind fun _ => .pure Lasting.nothing.stable _
    exact .ite (fun _ => Lasting.nothing.timestamp.bind fun _ =>
      .bind (Lasting.nothing.write True.intro) fun _ => hprune) fun _ => hprune
  refine .bind (safe_look (K := Begun i) Passing.lasting hw (fun _ _ => rfl)
    (fun w₁ hw₁ _ w₂ hw₂ _ => ?_) fun _ _ _ _ => trivial)
  have hbegun : Passing i (fun p => p.attempt = none ∧ p.generation = w₁.store.serverGeneration)
      w₂ :=
    hw₁.onPass (f := fun p => { p with generation := w₁.store.serverGeneration })
      (fun _ => rfl) (fun _ hnone => ⟨hnone, rfl⟩) hw₂
  cases hgen : w₁.store.serverGeneration with
  | none => exact .pure fun _ _ _ => trivial
  | some generation =>
      rw [hgen] at hbegun
      refine Preserves.andThen (Passing.lasting.write True.intro) hbegun (fun _ w₃ hw₃ => ?_)
        fun _ _ _ => trivial
      refine Passing.lasting.reconcileOrphanedUploads.andThen hw₃ (fun _ w₄ hw₄ => ?_)
        fun _ _ _ => trivial
      refine .bind (safe_look Passing.lasting hw₄ (fun _ _ => rfl)
        (fun w₅ hw₅ _ w₆ hw₆ _ => ?_) fun _ _ _ _ => trivial)
      have hcoming : Coming i generation (pendingOf w₅.store) w₆ := by
        refine hw₅.onPass (f := fun p => { p with todo := pendingOf w₅.store }) (fun _ => rfl)
          (fun p hp => ⟨rfl, hp.2, fun a ha => ?_⟩) hw₆
        exact absurd (hp.1.symm.trans ha) (by simp)
      refine .bind ((safe_replayActions hcoming).mono (fun report w₇ _ _ => ?_) fun _ _ _ => id)
      exact ((hend report).safe w₇ trivial)

theorem safe_sync :
    Safe (offlineDiscipline fails) i (Offline.sync webOfflinePort) w (fun _ _ => True)
      fun _ _ => True := by
  refine .bind (.request fun w' _ hi r o hresp _ => ?_)
  have hpass : w'.outside.pass = none ∧
      o = { w'.outside with pass := some ⟨i, none, [], none, []⟩ } := by
    have hresp' : (if w'.outside.pass.isNone then
        { w'.outside with pass := some ⟨i, none, [], none, []⟩ }.total r else none) =
          some o := hresp
    split at hresp'
    next hnone => exact ⟨by simpa using hnone, (Journal.total_eq hresp').1⟩
    next => cases hresp'
  obtain ⟨hnone, rfl⟩ := hpass
  have hbegins : w'.outside.SameSettled
      { w'.outside with pass := some ⟨i, none, [], none, []⟩ } :=
    ⟨rfl, rfl, rfl, rfl, List.prefix_refl _⟩
  refine ⟨⟨hi.settled hbegins, fun j hj => ⟨?_, hbegins.grows⟩⟩, trivial, ?_⟩
  · simp [Journal.passOf, hnone, Option.filter, Ne.symm hj]
  · have hbegun : Begun i ⟨w'.store, { w'.outside with pass := some ⟨i, none, [], none, []⟩ }⟩ :=
      ⟨⟨i, none, [], none, []⟩, by simp [Journal.passOf, Option.filter], rfl⟩
    refine .ofExcept (fun _ _ w₁ hr₁ hi₁ => ?_) fun _ _ _ _ _ => trivial
    refine .cleanup (K := fun _ => True) Lasting.nothing.stable
      (safe_runPass (Passing.lasting.stable _ w₁ hr₁ hi₁ hbegun)) ⟨fun w _ => .request ?_⟩
    intro w₂ _ hi₂ r o hresp _
    obtain ⟨rfl, -⟩ := Journal.total_eq hresp
    exact ⟨⟨hi₂.settled Journal.endPass_settled, fun j hj =>
      ⟨Journal.passOf_endPass hj, Journal.endPass_settled.grows⟩⟩, trivial,
      .ofExcept (fun _ _ _ _ _ => trivial) fun _ _ _ _ _ => trivial⟩

/-! ## The owner's decisions -/

/-- An action that was found in the queue is known. -/
theorem safe_findAction {localId : Uuid} :
    Safe (offlineDiscipline fails) i (findAction localId) w
      (fun r w => ∀ action, r = some action → action.localId = localId ∧ Known [action] w)
      fun _ _ => True := by
  refine .bind (.read (fun w' _ hi => .pure fun w₁ hr₁ _ => .pure fun w₂ hr₂ _ => ?_)
    fun _ _ _ _ _ => trivial)
  intro action hfound
  refine ⟨by simpa using List.find?_some hfound, ?_⟩
  have hknown : Known [action] w' := hi.frozen.known fun a ha => by
    obtain rfl := List.mem_singleton.mp ha
    exact mem_allOf.mp (List.mem_of_find?_eq_some hfound)
  exact hknown.grow (hr₁.2.trans hr₂.2)

theorem safe_deleteDiscardedUpload (hK : Lasting i K) {payload : QueuedPayload} :
    Preserves (offlineDiscipline fails) i K (deleteDiscardedUpload payload) := by
  cases payload with
  | upload localUploadId => exact hK.write True.intro
  | draftSave _ _ _ | send _ _ _ | flag _ _ _ _ | move _ _ _ => exact .pure hK.stable _

/-- The payload of a rebase asks for the same work. -/
theorem safe_rebasedPayload (hK : Lasting i K) {payload : QueuedPayload} {compared acked : Bool}
    {serverRevision : Option ℕ} (hw : K w) :
    Safe (offlineDiscipline fails) i (rebasedPayload payload compared acked serverRevision) w
      (fun payload' w => payload'.work = payload.work ∧ K w) fun _ _ => True := by
  have hreturn : ∀ w (payload' : QueuedPayload), payload'.work = payload.work → K w →
      Safe (offlineDiscipline fails) i (Pure.pure payload' : OfflineProgram QueuedPayload) w
        (fun payload' w => payload'.work = payload.work ∧ K w) fun _ _ => True :=
    fun w _ hwork hw => .pure fun w' hr hi => ⟨hwork, hK.stable w w' hr hi hw⟩
  unfold rebasedPayload
  cases payload with
  | send draftId key base =>
      simp only
      split
      · exact .throw fun _ _ _ => trivial
      · refine hK.generateId.andThen hw (fun key' w₁ hw₁ => ?_) fun _ _ _ => trivial
        refine (hK.read _).andThen hw₁ (fun draft w₂ hw₂ => ?_) fun _ _ _ => trivial
        cases draft with
        | none => exact hreturn w₂ _ rfl hw₂
        | some draft => exact hreturn w₂ _ rfl hw₂
  | draftSave draftId base patch =>
      simp only
      split
      · exact hreturn w _ rfl hw
      · exact .throw fun _ _ _ => trivial
  | upload _ | flag _ _ _ _ | move _ _ _ => exact hreturn w _ rfl hw

theorem preserves_restampLocalWork (hK : Lasting i K) {payload : QueuedPayload} {g : Uuid} :
    Preserves (offlineDiscipline fails) i K (restampLocalWork payload g) := by
  cases payload with
  | upload localUploadId =>
      refine (hK.read _).bind fun upload => ?_
      cases upload with
      | none => exact .pure hK.stable _
      | some upload => exact hK.write rfl
  | draftSave draftId base patch =>
      refine (hK.read _).bind fun draft => ?_
      cases draft with
      | none => exact .pure hK.stable _
      | some draft => exact hK.putLocalDraft _
  | send _ _ _ | flag _ _ _ _ | move _ _ _ => exact .pure hK.stable _

theorem safe_resolveReview {localId : Uuid} {choice : ReviewChoice} :
    Safe (offlineDiscipline fails) i (resolveReview localId choice) w (fun _ _ => True)
      fun _ _ => True := by
  refine .bind (safe_findAction.mono (fun r w₁ _ hr => ?_) fun _ _ _ => id)
  cases r with
  | none => exact .throw fun _ _ _ => trivial
  | some action =>
      obtain ⟨rfl, hknown⟩ := hr action rfl
      simp only
      split
      · exact .throw fun _ _ _ => trivial
      cases choice with
      | discard =>
          exact (safe_deleteDiscardedUpload Lasting.nothing).andThen (w := w₁) trivial
            (fun _ w₂ _ => (Lasting.nothing.deleteAction _).safe w₂ trivial)
              fun _ _ _ => trivial
      | rebase compared acked serverRevision =>
          refine (Known.lasting.read _).andThen hknown (fun g w₂ hw₂ => ?_) fun _ _ _ => trivial
          cases g with
          | none => exact .throw fun _ _ _ => trivial
          | some g =>
              refine .bind ((safe_rebasedPayload Known.lasting hw₂).mono
                (fun payload w₃ _ hw₃ => ?_) fun _ _ _ => id)
              obtain ⟨hpayload, hw₃⟩ := hw₃
              have hwork : ∀ w, Known [action] w → ∀ payload', some payload = some payload' →
                  ∃ e ∈ w.store.enqueued, e.localId = action.localId ∧
                    e.payload.work = payload'.work := by
                rintro w hw payload' he
                obtain rfl := Option.some.inj he
                obtain ⟨e, hmem, hsame⟩ := hw action (by simp)
                exact ⟨e, hmem, hsame.localId, hsame.work.trans hpayload.symm⟩
              refine .bind (safe_write (K := Known [action]) Known.lasting hw₃
                (fun w _ hw => ⟨hwork w hw, by simp, fun _ _ => .inl rfl, by simp⟩)
                (fun _ w₄ _ _ _ => ?_) fun _ _ _ _ => trivial)
              exact ((preserves_restampLocalWork Lasting.nothing).safe w₄ trivial)

theorem preserves_discardFailure (hK : Lasting i K) {localId : Uuid} :
    Preserves (offlineDiscipline fails) i K (discardFailure localId) := by
  refine ((hK.read _).bind fun _ => .pure hK.stable _).bind fun action => ?_
  cases action with
  | none => exact hK.deleteAction _
  | some action => exact .bind (safe_deleteDiscardedUpload hK) fun _ => hK.deleteAction _

/-! ## Enqueueing -/

theorem preserves_withGeneration (hK : Lasting i K) {f : Uuid → OfflineProgram α}
    (hf : ∀ g, Preserves (offlineDiscipline fails) i K (f g)) :
    Preserves (offlineDiscipline fails) i K (withGeneration f) := by
  refine (hK.read _).bind fun g => ?_
  cases g with
  | none => exact .throw hK.stable _
  | some g => exact hf g

theorem preserves_enqueuePayload (hK : Lasting i K) {payload : QueuedPayload}
    (hpayload : ∀ x, payload ≠ .upload x) :
    Preserves (offlineDiscipline fails) i K (enqueuePayload payload) :=
  preserves_withGeneration hK fun _ => hK.enqueue _ fun _ _ x hx => absurd hx (hpayload x)

theorem preserves_enqueueSend (hK : Lasting i K) {draftId : Uuid} {key : String} {base : ℕ} :
    Preserves (offlineDiscipline fails) i K (Offline.enqueueSend draftId key base) :=
  (hK.read _).bind fun _ => .ite (fun _ => .throw_bind hK.stable)
    fun _ => preserves_enqueuePayload hK (by simp)

theorem preserves_noteComparedServerCopy (hK : Lasting i K) {draftId : Uuid}
    {server : DraftRecord} :
    Preserves (offlineDiscipline fails) i K (noteComparedServerCopy draftId server) := by
  refine (hK.read _).bind fun draft => ?_
  cases draft with
  | none => exact .pure hK.stable _
  | some draft => exact hK.putLocalDraft _

end MailHub.Offline
