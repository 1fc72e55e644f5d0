import MailHub.Send.Runs

/-!
# Repeated requests

A repeated idempotency key is answered from the stored row. The answer compares the frozen request
hash with a hash of the draft's links at the time of the repetition, so it is the stored row as
long as these links hash as the frozen ones do, and a conflict after they changed.
-/

namespace MailHub

open Relational Interleaving

variable {libs : Libraries} {c₀ c c' : Config mailSignature MailLog}

/-- The gate of a ready deployment. -/
theorem gate_alone {g : Uuid} {db : Database} (h : db.serviceState = some ⟨g, .ready⟩) :
    (Deployment.gate ⟨some g, libs⟩ (some g)).alone db = some (.ok g, db) := by
  have hgate : gateMutation (some g) (some g) db = .ok g :=
    gateMutation_eq_ok_iff.mpr ⟨rfl, rfl, h⟩
  have hread : (MailProgram.query (gateMutation (some g) (some g))).alone db =
      some (.ok (.ok g), db) := by
    rw [← hgate]
    rfl
  exact Program.alone_bind hread

/-- The row of a key is the only one with the key. -/
theorem findByIdempotencyKey_eq {db : Database} (hc : Consistent libs db) {o : Uuid}
    {row : OutboundMessage} (hrow : db.outboundMessages.find? o = some row) :
    findByIdempotencyKey row.idempotencyKey db = some row := by
  cases hfind : findByIdempotencyKey row.idempotencyKey db with
  | none =>
      have hnone := List.find?_eq_none.mp hfind row (Table.mem_of_find? hrow)
      simp at hnone
  | some row' =>
      have hmem : row' ∈ db.outboundMessages := List.mem_of_find?_eq_some hfind
      have hkey : row'.idempotencyKey = row.idempotencyKey := by
        simpa using List.find?_some hfind
      have ho : row'.id = o := hc.key _ _ _ _ (Table.mem_iff_find?.mp hmem) hrow hkey
      rw [← hrow, ← ho]
      exact (Table.mem_iff_find?.mp hmem).symm

/-- A request with the key of a stored row is answered from the row. -/
theorem queueSend_alone {db : Database} (hc : Consistent libs db) {o d g : Uuid}
    {row : OutboundMessage} (hrow : db.outboundMessages.find? o = some row)
    (hready : db.serviceState = some ⟨g, .ready⟩) :
    (queueSend ⟨some g, libs⟩ (some g) ⟨d, row.idempotencyKey, row.draftRevision⟩).alone db =
      some ((existingSnapshot row (hashRequest libs d row.draftRevision
        (linkPairs (draftLinks d db)))).map fun outbound => ⟨false, outbound⟩, db) := by
  obtain ⟨hkey, hrevision⟩ := hc.request o row hrow
  have hfind := findByIdempotencyKey_eq hc hrow
  refine (Program.alone_bind (gate_alone hready)).trans ?_
  simp only [if_neg hkey, if_neg hrevision]
  refine (Program.alone_bind (Program.alone_read _)).trans ?_
  refine (Program.alone_bind (Program.alone_read _)).trans ?_
  simp only [hfind]
  cases existingSnapshot row (hashRequest libs d row.draftRevision (linkPairs (draftLinks d db)))
    with
  | error e => rfl
  | ok outbound => rfl

/-- What a repeated request finds at a later moment of a run. -/
structure ReplaySafe (libs : Libraries) (c c' : Config mailSignature MailLog) (o d g : Uuid)
    (row : OutboundMessage) : Prop where
  /-- The row is still the only one of its key. -/
  only : ∀ o' row', c'.world.store.outboundMessages.find? o' = some row' →
    row'.idempotencyKey = row.idempotencyKey → o' = o
  /-- The links that hash as the frozen ones: the stored row is the answer, and nothing changes. -/
  replayed : hashRequest libs d row.draftRevision (linkPairs (draftLinks d c'.world.store)) =
      hashRequest libs d row.draftRevision (frozenPairs o c.world.store) →
    ∃ row', c'.world.store.outboundMessages.find? o = some row' ∧
      (queueSend ⟨some g, libs⟩ (some g) ⟨d, row.idempotencyKey, row.draftRevision⟩).alone
        c'.world.store = some (.ok ⟨false, toOutboundRecord row'⟩, c'.world.store)
  /-- Links that hash otherwise: the request conflicts, and nothing changes. -/
  conflict : hashRequest libs d row.draftRevision (linkPairs (draftLinks d c'.world.store)) ≠
      hashRequest libs d row.draftRevision (frozenPairs o c.world.store) →
    (queueSend ⟨some g, libs⟩ (some g) ⟨d, row.idempotencyKey, row.draftRevision⟩).alone
      c'.world.store = some (.error idempotencyConflict, c'.world.store)
  /-- As long as the send holds its draft, the links are the frozen ones. -/
  locked : ∀ draft, c'.world.store.drafts.find? d = some draft → draft.lockedBySend = some o →
    linkPairs (draftLinks d c'.world.store) = frozenPairs o c.world.store

/-- Whatever happened since a row was queued, repeating its request creates nothing. -/
theorem queueSend_replay (h₀ : MailStart c₀) (h : Reaches (mailSystem libs) .free c₀ c)
    (h' : Reaches (mailSystem libs) .free c c') {o d g : Uuid} {row : OutboundMessage}
    (hrow : c.world.store.outboundMessages.find? o = some row) (hd : row.draftId = some d)
    (hready : c'.world.store.serviceState = some ⟨g, .ready⟩) : ReplaySafe libs c c' o d g row := by
  have hc := (run_sound h₀ (h.trans h')).inv.consistent
  have he := run_evolves h₀ h h'
  obtain ⟨row', hrow', hs, -⟩ := he.row o row hrow
  have hlinks := he.links o row hrow
  have hhash : row'.requestHash =
      hashRequest libs d row.draftRevision (frozenPairs o c.world.store) := by
    rw [← hlinks, hc.hash o row' d hrow' (by rw [hs, hd]), hs]
  have hcall := queueSend_alone (d := d) hc hrow' hready
  rw [hs] at hcall
  refine ⟨fun o' row₁ h₁ hkey => hc.key o' o row₁ row' h₁ hrow' (by rw [hkey, hs]),
    fun heq => ⟨row', hrow', ?_⟩, fun hne => ?_, fun draft hdraft hl => ?_⟩
  · rw [hcall, existingSnapshot, if_neg (by rw [hhash, heq]; simp)]
    rfl
  · rw [hcall, existingSnapshot, if_pos (by rw [hhash]; exact hne.symm)]
    rfl
  · have hfrozen := (hc.frozen d draft o row' hdraft hl hrow').links
    have hid : draft.id = d := Table.key_of_find? hdraft
    have hkey : row'.id = o := Table.key_of_find? hrow'
    rw [← hlinks, ← hid, ← hkey]
    exact hfrozen

/-! ## A sample -/

/-- Worker 2 takes row 12 and fails before it submits; worker 3 attaches a file to the released
draft. -/
def sampleDetour : List (Event (mailSystem sampleLibraries)) :=
  [.spawn (.executeOutbound sampleProcess 12), .commit 2, .commit 2, .answer 2 (sampleReply 0),
    .commit 2, .answer 2 fun _ => .error (.port "gone"), .commit 2,
    .spawn (.attachUpload sampleProcess (some 1) 10 7), .commit 3, .commit 3]

/-- What the sample shows of a moment before and of a moment after. -/
structure ReplayView where
  /-- The rows before, by identifier and key. -/
  rows : List (Uuid × String)
  /-- The draft and the revision that they were built from. -/
  requests : List (Option Uuid × ℕ)
  /-- Whether the repeated request of row 12 conflicts after. -/
  conflict : Bool
  deriving DecidableEq

/-- The view of two moments. -/
def replayView (c c' : Config mailSignature MailLog) : ReplayView where
  rows := c.world.store.outboundMessages.rows.map fun row => (row.id, row.idempotencyKey)
  requests := c.world.store.outboundMessages.rows.map fun row => (row.draftId, row.draftRevision)
  conflict :=
    ((queueSend ⟨some 1, sampleLibraries⟩ (some 1) ⟨10, "key", 1⟩).alone c'.world.store).any
      fun result => match result.1 with
        | .error e => e == idempotencyConflict
        | .ok _ => false

/-- The draft that a failed send released takes a file, and the repeated request conflicts. -/
theorem queueSend_conflicts : ∃ c c',
    sampleStart.run (mailSystem sampleLibraries) sampleQueue = some c ∧
      c.run (mailSystem sampleLibraries) sampleDetour = some c' ∧
      replayView c c' = ⟨[(12, "key")], [(some 10, 1)], true⟩ := by
  have h : ((sampleStart.run (mailSystem sampleLibraries) sampleQueue).bind fun c =>
      (c.run (mailSystem sampleLibraries) sampleDetour).map (replayView c)) =
        some ⟨[(12, "key")], [(some 10, 1)], true⟩ := by decide +kernel
  obtain ⟨c, hrun, hc⟩ := Option.bind_eq_some_iff.mp h
  obtain ⟨c', hrun', hview⟩ := Option.map_eq_some_iff.mp hc
  exact ⟨c, c', hrun, hrun', hview⟩

/-- The sample queues row 12, and what holds of every repeated request holds of it. -/
theorem queueSend_replay_sample : ∃ c c' row,
    sampleStart.run (mailSystem sampleLibraries) sampleQueue = some c ∧
      c.run (mailSystem sampleLibraries) sampleDetour = some c' ∧
      c.world.store.outboundMessages.find? 12 = some row ∧
      ReplaySafe sampleLibraries c c' 12 10 1 row := by
  have h : ((sampleStart.run (mailSystem sampleLibraries) sampleQueue).bind fun c =>
      (c.run (mailSystem sampleLibraries) sampleDetour).map fun c' =>
        ((c.world.store.outboundMessages.find? 12).map (·.draftId),
          c'.world.store.serviceState)) = some (some (some 10), some ⟨1, .ready⟩) := by
    decide +kernel
  obtain ⟨c, hrun, hc⟩ := Option.bind_eq_some_iff.mp h
  obtain ⟨c', hrun', hview⟩ := Option.map_eq_some_iff.mp hc
  obtain ⟨hfind, hready⟩ := Prod.mk.inj hview
  obtain ⟨row, hrow, hd⟩ := Option.map_eq_some_iff.mp hfind
  exact ⟨c, c', row, hrun, hrun', hrow,
    queueSend_replay sampleStart_start (.of_run hrun) (.of_run hrun') hrow hd hready⟩

end MailHub
