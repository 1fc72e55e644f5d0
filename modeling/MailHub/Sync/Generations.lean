import MailHub.Sync.Passes

/-!
# Folder generations over runs

Three results about every run of synchronization workers, servers and other services. Valid
occurrences carry the current generation of their folder, and as long as no reset follows a refused
first contact late, no folder goes back to a generation it has left. Whatever the server has
between the checkpoints of a folder has an occurrence. Whatever synchronization marks expunged was
gone.
-/

namespace MailHub.FolderSync

open Relational Interleaving Ordering

variable {strict : Uuid → Prop} {s : SyncServices} {c₀ c c₁ c₂ : Config syncSignature MailServers}

/-! ## Runs -/

/-- A start: no folder was contacted and nothing was imported. -/
structure IsStart (c : Config syncSignature MailServers) : Prop where
  workers : c.workers = []
  folders : ∀ f ∈ c.world.store.folders, IsUntouched f
  rows : ∀ o, o ∉ c.world.store.messageOccurrences
  left : ∀ folderId, c.world.outside.left folderId = []

theorem IsStart.coherent (h : IsStart c) : Coherent strict c.world where
  filed := ⟨fun o ho => absurd ho (h.rows o), fun o ho => absurd ho (h.rows o),
    fun o ho => absurd ho (h.rows o)⟩
  folders f hf := by
    obtain ⟨hgen, hbefore, hcomplete, hscanned⟩ := h.folders f hf
    refine ⟨fun g hg => ?_, fun _ _ => ⟨hscanned, hcomplete⟩, fun _ hc => ?_, fun _ g b hg _ => ?_⟩
    · simp [hgen] at hg
    · simp [hcomplete] at hc
    · simp [hgen] at hg
  left folderId _ g hg := by simp [h.left folderId] at hg

theorem IsStart.sound (h : IsStart c) : c.Sound (syncDiscipline s strict) :=
  ⟨h.coherent, fun i p hp => by simp [h.workers] at hp⟩

/-- While no reset of a strict folder is late, the discipline is kept. -/
theorem sound_of_assumes (h₀ : c₀.Sound (syncDiscipline s strict))
    (h : Reaches (syncSystem s) (syncDiscipline s strict).assumes c₀ c) :
    c.Sound (syncDiscipline s strict) := h.sound h₀ fun op _ _ => keeps_program op

/-- In every run the part of the discipline that does not speak of order is kept. -/
theorem sound_of_free (h₀ : IsStart c₀) (h : Reaches (syncSystem s) .free c₀ c) :
    c.Sound (syncDiscipline s fun _ => False) :=
  sound_of_assumes h₀.sound (h.mono (fun _ _ _ _ _ _ _ hs => hs.elim) fun _ _ _ _ h => h)

/-- While no reset is late, all of the discipline is kept. -/
theorem sound_of_timely (h₀ : IsStart c₀) (h : Reaches (syncSystem s) timely c₀ c) :
    c.Sound (syncDiscipline s fun _ => True) :=
  sound_of_assumes h₀.sound (h.mono (fun _ _ _ _ htimely _ _ _ => htimely) fun _ _ _ _ h => h)

/-- Whatever happens next in a pool that keeps the discipline accounts for its rows. -/
theorem accounted_fire (h : c.Sound (syncDiscipline s strict)) {e : Event (syncSystem s)}
    (ha : (syncDiscipline s strict).assumes.Meets (syncSystem s) c e)
    (he : c.fire (syncSystem s) e = some c₂) :
    c₂.world.store = c.world.store ∨ ∃ i, e = .commit i ∧ Accounted s strict i (c.standsAt i)
      c.world (committed i (c.standsAt i) c.world c₂.world.store) := by
  have hens := (h.fire (fun op _ _ => keeps_program op) ha he).2
  refine (Config.fire_store he).imp_right ?_
  rintro ⟨i, rfl, β, tag, f, k, b, hp, hf⟩
  refine ⟨i, rfl, ?_⟩
  have hat : c.standsAt i = tag := by simp [Config.standsAt, hp]
  rw [hat]
  exact hens β tag f k b _ hp hf

/-- Whatever happens next in a run accounts for its rows. -/
theorem accounted_next (h₀ : IsStart c₀) (h : Reaches (syncSystem s) .free c₀ c)
    {e : Event (syncSystem s)} (he : c.fire (syncSystem s) e = some c₂) :
    c₂.world.store = c.world.store ∨ ∃ i, e = .commit i ∧ Accounted s (fun _ => False) i
      (c.standsAt i) c.world (committed i (c.standsAt i) c.world c₂.world.store) :=
  accounted_fire (sound_of_free h₀ h) ((Policy.free_meets (syncSystem s) c e).mono
    (fun _ _ _ _ _ _ _ hs => hs.elim) fun _ _ _ _ h => h) he

/-- What a worker that is not there yet can rely on holds between any two moments of a run. -/
theorem onward_of_timely (h₀ : IsStart c₀) (h₁ : Reaches (syncSystem s) timely c₀ c₁)
    (h₂ : Reaches (syncSystem s) timely c₁ c₂) : Onward (fun _ => True) c₁.world c₂.world := by
  induction h₂ with
  | start => exact .refl _
  | next e hreach hmeets hfire ih =>
      have hsound := sound_of_timely h₀ (h₁.trans hreach)
      have hassumed : (syncDiscipline s fun _ => True).assumes.Meets (syncSystem s) _ e :=
        hmeets.mono (fun _ _ _ _ htimely _ _ _ => htimely) fun _ _ _ _ h => h
      exact ih.trans (Rely.onward (hsound.fire_rely hassumed hfire (Nat.le_refl _)))

/-! ## Generation safety -/

/-- What the server has between the checkpoints of a folder has an occurrence, and within one
generation the checkpoints only advance. -/
theorem checkpoints_cover (h₀ : IsStart c₀) (h₁ : Reaches (syncSystem s) timely c₀ c₁)
    (h₂ : Reaches (syncSystem s) timely c₁ c₂) :
    (∀ f ∈ c₂.world.store.folders, ∀ box, (c₂.world.outside.folders (placeOf f)).box = some box →
      f.uidvalidity = some box.uidValidity → ∀ m ∈ box.messages,
        ((∃ b ≤ m.uid, f.backfillBeforeUid = some b) ∨ f.backfillComplete = true ∧ 1 ≤ m.uid) →
        m.uid ≤ f.arrivalScannedUid → ∃ o ∈ c₂.world.store.messageOccurrences,
          o.folderId = f.id ∧ o.uidvalidity = box.uidValidity ∧ o.uid = m.uid) ∧
    ∀ f ∈ c₁.world.store.folders, ∃ f' ∈ c₂.world.store.folders, f'.id = f.id ∧
      ∀ g, f.uidvalidity = some g → f'.uidvalidity = some g → CheckpointsLater f f' := by
  have hcoherent := (sound_of_timely h₀ (h₁.trans h₂)).inv
  constructor
  · intro f hf box hbox hgen m hm hrange hscanned
    have hsound := hcoherent.folders f hf
    obtain ⟨b, hb, hle⟩ : ∃ b, f.backfillBeforeUid = some b ∧ b ≤ m.uid := by
      rcases hrange with ⟨b, hle, hb⟩ | ⟨hcomplete, hpos⟩
      · exact ⟨b, hb, hle⟩
      · obtain ⟨b, hle, hb⟩ := hsound.complete trivial hcomplete
        exact ⟨b, hb, Nat.le_trans hle hpos⟩
    obtain ⟨-, -, hcovers⟩ := (hsound.covered trivial _ b hgen hb).holds _ (current_of_box hbox)
    exact hcovers m.uid ⟨m, hm, rfl⟩ hle hscanned
  · intro f hf
    obtain ⟨f', hf', hlater⟩ := (onward_of_timely h₀ h₁ h₂).store.folders f hf
    refine ⟨f', hf', hlater.id, fun g hg hg' => ?_⟩
    obtain ⟨g₂, hg₂, hstep⟩ := hlater.later trivial g hg
    obtain rfl : g = g₂ := Option.some.inj (hg'.symm.trans hg₂)
    rcases hstep with ⟨-, hcheckpoints⟩ | hold
    · exact hcheckpoints
    · exact absurd rfl hold.ne

/-! ## Expunges -/

/-- Synchronization marks an occurrence expunged only if the server does not have its message, and
only if the snapshot that misses it was asked for its UID after the UID had been given. -/
theorem expunges_sound {i : ℕ} {tag : SyncTag} {o o' : MessageOccurrence} (h₀ : IsStart c₀)
    (h : Reaches (syncSystem s) .free c₀ c) (hat : c.standsAt i = some tag)
    (he : c.fire (syncSystem s) (.commit i) = some c₂)
    (ho : o ∈ c.world.store.messageOccurrences) (ho' : o' ∈ c₂.world.store.messageOccurrences)
    (hid : o'.id = o.id) (hnone : o.expungedAt = none) (hsome : o'.expungedAt ≠ none) :
    IsGone i c.world o := by
  have hunique := (sound_of_free h₀ h).inv.filed.rows_unique
  have hunique' :=
    (sound_of_free h₀ (.next _ h (Policy.free_meets _ c _) he)).inv.filed.rows_unique
  rcases accounted_next h₀ h he with hsame | ⟨j, hj, haccounted⟩
  · obtain rfl := hunique o' (hsame ▸ ho') o ho hid
    exact absurd hnone hsome
  · obtain rfl : i = j := by simpa using hj
    rw [hat] at haccounted
    have hrely : Rely (fun _ => False) c.workers.length c.world c₂.world :=
      (sound_of_free h₀ h).fire_rely
        ((Policy.free_meets (syncSystem s) c (.commit i)).mono
          (fun _ _ _ _ _ _ _ hs => hs.elim) fun _ _ _ _ h => h) he (Nat.le_refl _)
    obtain ⟨r, hr, hrow⟩ := hrely.store.rows o ho
    obtain rfl := hunique' r hr o' ho' (hrow.id.trans hid.symm)
    exact haccounted.expunged rfl o ho r hr hrow hnone hsome

/-! ## Samples -/

/-- Headers of the samples: the raw bytes tell two messages apart. -/
def plainHeaders (raw : Bytes) : ImportedHeaders where
  messageId := some (if raw = [] then "<first@list.example>" else "<second@list.example>")
  inReplyTo := none
  referenceIds := []
  sender := none
  replyTo := none
  recipients := none
  subject := none
  sentAt := none

/-- Services with small bounds. -/
def sampleSync : SyncServices where
  parseHeaderBlock := plainHeaders
  windowSize := 2
  flagBatch := 10
  arrivalBatch := 10
  repairLimit := 10
  batchesPerFolder := 3
  pages := 3
  windowSize_pos := by decide
  flagBatch_pos := by decide
  arrivalBatch_pos := by decide
  repairLimit_pos := by decide
  batchesPerFolder_pos := by decide

/-- A mailbox with two messages. -/
def sampleBox (g : ℕ) : Mailbox where
  uidValidity := g
  uidNext := 3
  messages := [⟨1, true, false, 0, 0, []⟩, ⟨2, true, false, 0, 0, [1]⟩]
  uidNext_pos := by decide
  uid_lt := by decide

/-- The place of the sample folder. -/
def sampleInbox : Place := (1, "INBOX")

/-- A server whose inbox has the generation 11, and workers without sessions. -/
def sampleServers : MailServers where
  folders place :=
    if place = sampleInbox then
      ⟨[11], some (sampleBox 11), by decide, by simp [sampleBox]⟩
    else ⟨[], none, by decide, by simp⟩
  sessions _ := ⟨none, none, none, []⟩
  left _ := []
  refused _ := none

/-- An inbox that no worker has contacted. -/
def sampleContact : Config syncSignature MailServers :=
  ⟨⟨{ Database.empty with
      folders := ⟨[⟨7, 1, "INBOX", some .inbox, none, 0, none, none, false⟩], by decide⟩ },
    sampleServers⟩, []⟩

theorem sampleContact_start : IsStart sampleContact := by
  refine ⟨rfl, fun f hf => ?_, fun o ho => ?_, fun _ => rfl⟩
  · obtain rfl := List.mem_singleton.mp hf
    exact ⟨rfl, rfl, rfl, rfl⟩
  · exact absurd ho List.not_mem_nil

/-- What a mailbox, the clock and the process answer; new identifiers count from `n`. -/
def sampleAnswer (box : Mailbox) (n : ℕ) : (c : SyncCall) → Except Failure c.Answer
  | .now => .ok (5 : Time)
  | .generateIds => .ok fun k => (⟨n + k, n + k, 0⟩ : ImportIds)
  | .aborted => .ok false
  | .pollDue _ | .inventoryDue _ => .ok true
  | .select .. | .revalidate => .ok box.state
  | .searchUids low high => .ok (box.uidsBetween low high)
  | .fetchHeaders uids => .ok (box.withUids uids)
  | .fetchFlags uids => .ok ((box.withUids uids).map Mailbox.flagsOf)

/-- Worker `i` goes on: it commits where `true` stands and is answered where `false` stands. -/
def sampleSteps (i : ℕ) (box : Mailbox) (steps : List Bool) : List (Event (syncSystem sampleSync)) :=
  steps.map fun commits => if commits then .commit i else .answer i (sampleAnswer box 1)

/-- A first contact, and the batch that imports both messages. -/
def sampleImport : List (Event (syncSystem sampleSync)) :=
  .spawn (.runBatch 1 7) :: sampleSteps 0 (sampleBox 11) [true, false, true] ++
    .spawn (.runBatch 1 7) ::
      sampleSteps 1 (sampleBox 11) [true, false, false, false, false, false, true]

/-- Whether an event is no late reset. -/
def isTimely (c : Config syncSignature MailServers) : Event (syncSystem s) → Bool
  | .commit i => !isLate i c.world (c.standsAt i)
  | _ => true

theorem timely_of_isTimely {e : Event (syncSystem s)} (h : isTimely c e = true) :
    timely.Meets (syncSystem s) c e := by
  cases e with
  | commit i =>
      intro β tag f k b db' hp _
      have htimely : isLate i c.world tag = false := by
        simpa [isTimely, Config.standsAt, hp] using h
      exact htimely
  | answer i r => exact fun _ _ _ _ _ => trivial
  | spawn op | abort i e | stop i | tick t => trivial

/-- After the import another generation takes the place, and the poll of a cycle moves the folder
to it. -/
def sampleMove : List (Event (syncSystem sampleSync)) :=
  sampleImport ++ .tick (sampleInbox, .replace (sampleBox 12)) :: .spawn (.synchronizeFolders 1) ::
    sampleSteps 2 (sampleBox 12) [true, false, true, false, false, true, false, false, true]

/-- The checkpoints of the sample folder and the UIDs of its rows. -/
def checkpointsView (c : Config syncSignature MailServers) : List (Option ℕ × ℕ × Bool) × List ℕ :=
  (c.world.store.folders.rows.map fun f =>
      (f.backfillBeforeUid, f.arrivalScannedUid, f.backfillComplete),
    c.world.store.messageOccurrences.rows.map (·.uid))

/-- The first contact scans the whole range, the batch completes the folder, and what the server
has by then is covered. -/
theorem checkpoints_cover_sample : ∃ c₁ c₂,
    sampleContact.runChecked (syncSystem sampleSync) isTimely (sampleImport.take 4) = some c₁ ∧
      c₁.runChecked (syncSystem sampleSync) isTimely (sampleImport.drop 4) = some c₂ ∧
      checkpointsView c₁ = ([(some 3, 2, false)], []) ∧
      checkpointsView c₂ = ([(some 1, 2, true)], [1, 2]) ∧
      ∀ f ∈ c₁.world.store.folders, ∃ f' ∈ c₂.world.store.folders, f'.id = f.id ∧
        ∀ g, f.uidvalidity = some g → f'.uidvalidity = some g → CheckpointsLater f f' := by
  have h₁ : (sampleContact.runChecked (syncSystem sampleSync) isTimely
      (sampleImport.take 4)).map checkpointsView = some ([(some 3, 2, false)], []) := by
    decide +kernel
  obtain ⟨c₁, hrun₁, hview₁⟩ := Option.map_eq_some_iff.mp h₁
  have h₂ : ((sampleContact.runChecked (syncSystem sampleSync) isTimely
      (sampleImport.take 4)).bind fun c => c.runChecked (syncSystem sampleSync) isTimely
        (sampleImport.drop 4)).map checkpointsView = some ([(some 1, 2, true)], [1, 2]) := by
    decide +kernel
  rw [hrun₁, Option.bind_some] at h₂
  obtain ⟨c₂, hrun₂, hview₂⟩ := Option.map_eq_some_iff.mp h₂
  exact ⟨c₁, c₂, hrun₁, hrun₂, hview₁, hview₂, (checkpoints_cover sampleContact_start
    (.of_runChecked (fun _ _ => timely_of_isTimely) hrun₁)
    (.of_runChecked (fun _ _ => timely_of_isTimely) hrun₂)).2⟩

/-- After the import the server expunges the first message, and a poll runs up to its expunges. -/
def samplePoll : List (Event (syncSystem sampleSync)) :=
  sampleImport ++ .tick (sampleInbox, .expunge 1) :: .spawn (.pollFolder 1 7) ::
    sampleSteps 2 ((sampleBox 11).expunge 1) [true, false, false, false, true, true, false, false]

/-- A row of the samples: its identifier, its UID and its mark. -/
structure RowView where
  id : Uuid
  uid : ℕ
  expungedAt : Option Time
  deriving DecidableEq

/-- Where worker 2 stands, and the rows before and after its next step. -/
structure MarkingView where
  tag : Option SyncTag
  before : List RowView
  after : List RowView
  deriving DecidableEq

/-- The rows of a moment. -/
def rowsView (c : Config syncSignature MailServers) : List RowView :=
  c.world.store.messageOccurrences.rows.map fun o => ⟨o.id, o.uid, o.expungedAt⟩

theorem mem_of_rowsView {row : RowView} (h : row ∈ rowsView c) :
    ∃ o ∈ c.world.store.messageOccurrences,
      o.id = row.id ∧ o.uid = row.uid ∧ o.expungedAt = row.expungedAt := by
  obtain ⟨o, ho, rfl⟩ := List.mem_map.mp h
  exact ⟨o, ho, rfl, rfl, rfl⟩

/-- The poll marks the row of the first message, which is gone. -/
theorem expunges_sound_sample : ∃ c o, Reaches (syncSystem sampleSync) .free sampleContact c ∧
    c.standsAt 2 = some (.expunges 7) ∧ o ∈ c.world.store.messageOccurrences ∧ o.uid = 1 ∧
    IsGone 2 c.world o := by
  have h : ((sampleContact.run (syncSystem sampleSync) samplePoll).bind fun c =>
      (c.fire (syncSystem sampleSync) (.commit 2)).map fun c' =>
        (⟨c.standsAt 2, rowsView c, rowsView c'⟩ : MarkingView)) =
      some ⟨some (.expunges 7), [⟨1, 1, none⟩, ⟨2, 2, none⟩], [⟨1, 1, some 5⟩, ⟨2, 2, none⟩]⟩ := by
    decide +kernel
  obtain ⟨c, hrun, h⟩ := Option.bind_eq_some_iff.mp h
  obtain ⟨c', hfire, hview⟩ := Option.map_eq_some_iff.mp h
  have hat : c.standsAt 2 = some (.expunges 7) := congrArg MarkingView.tag hview
  have hbefore : rowsView c = [⟨1, 1, none⟩, ⟨2, 2, none⟩] := congrArg MarkingView.before hview
  have hafter : rowsView c' = [⟨1, 1, some 5⟩, ⟨2, 2, none⟩] := congrArg MarkingView.after hview
  obtain ⟨o, ho, hid, huid, hnone⟩ :=
    mem_of_rowsView (hbefore ▸ List.mem_cons_self)
  obtain ⟨o', ho', hid', -, hsome⟩ :=
    mem_of_rowsView (hafter ▸ List.mem_cons_self)
  exact ⟨c, o, .of_run hrun, hat, ho, huid, expunges_sound sampleContact_start (.of_run hrun) hat
    hfire ho ho' (hid'.trans hid.symm) hnone (by simp [hsome])⟩

end MailHub.FolderSync
