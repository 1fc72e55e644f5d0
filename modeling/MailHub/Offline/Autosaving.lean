import MailHub.Offline.Autosave

/-!
# Runs of the autosave controller

The controller of one open draft under any sequence of edits, timer expiries, owner choices and
save outcomes. A save is a stack of the stretches that wait for one another: the innermost one
waits for the save function or has returned, and each one below waits for the one above it. No edit
is lost while the controller lives; closing it during a save can lose what came after.
-/

namespace MailHub.Offline

open Relational MailHub

/-! ## Contents -/

/-- What the editor shows of a draft. -/
structure EditorContent where
  identity : Option (Boxed String)
  recipients : Option (Boxed Recipients)
  subject : Option String
  markdown : Option String
  deriving DecidableEq, Repr

namespace EditorContent

/-- A content with the fields of a patch over it. -/
def overlay (content : EditorContent) (patch : AutosavePatch) : EditorContent where
  identity := patch.identity.getD content.identity
  recipients := patch.recipients.getD content.recipients
  subject := patch.subject.getD content.subject
  markdown := patch.markdown.getD content.markdown

/-- A content with some patches over it, in order. -/
def overlays (content : EditorContent) (patches : List AutosavePatch) : EditorContent :=
  patches.foldl overlay content

variable {content : EditorContent} {patch patch' : AutosavePatch} {patches : List AutosavePatch}

@[simp] theorem overlays_nil : content.overlays [] = content := rfl

@[simp] theorem overlays_append (patches' : List AutosavePatch) :
    content.overlays (patches ++ patches') = (content.overlays patches).overlays patches' :=
  List.foldl_append

@[simp] theorem overlays_singleton : content.overlays [patch] = content.overlay patch := rfl

/-- A patch that was merged into the pending edits lies over them. -/
theorem overlay_mergePatch (current : Option AutosavePatch) :
    content.overlay (mergePatch current patch) =
      (content.overlays current.toList).overlay patch := by
  cases current with
  | none => rfl
  | some current =>
      have hfield : ∀ {α : Type} (x y : Option α) (z : α), (x.or y).getD z = x.getD (y.getD z) := by
        intro α x y z
        cases x <;> rfl
      simp only [Option.toList_some, overlays_singleton, overlay, mergePatch, hfield]

end EditorContent

/-- A patch that holds every field of another one. -/
def AutosavePatch.Absorbs (patch patch' : AutosavePatch) : Prop :=
  ∀ content : EditorContent, (content.overlay patch').overlay patch = content.overlay patch

theorem AutosavePatch.Absorbs.refl (patch : AutosavePatch) : patch.Absorbs patch := by
  have hfield : ∀ {α : Type} (x : Option α) (z : α), x.getD (x.getD z) = x.getD z := by
    intro α x z
    cases x <;> rfl
  intro content
  simp only [EditorContent.overlay, hfield]

/-- What a patch holds, it holds with a later edit. -/
theorem AutosavePatch.Absorbs.mergePatch {patch patch' : AutosavePatch}
    (h : patch.Absorbs patch') (edit : AutosavePatch) :
    (Offline.mergePatch (some patch) edit).Absorbs patch' := by
  intro content
  rw [EditorContent.overlay_mergePatch, EditorContent.overlay_mergePatch]
  simp only [Option.toList_some, EditorContent.overlays_singleton]
  rw [h content]

/-! ## Runs -/

/-- A stretch of a save that is not over. -/
inductive SaveFrame
  /-- The save function works on a patch over a base revision. -/
  | awaiting (patch : AutosavePatch) (baseRevision : ℕ)
  /-- The innermost save has returned to the one below it. -/
  | returned
  /-- A save waits for the one that it started for edits that arrived meanwhile. -/
  | nested
  /-- A save waits for the one that it started for a remembered flush. -/
  | last
  deriving DecidableEq, Repr

/-- Whether a save waits for another one. -/
def SaveFrame.isWaiting : SaveFrame → Bool
  | nested | last => true
  | awaiting .. | returned => false

/-- The controller of an open draft with its save and what happened so far. -/
structure AutosaveRun where
  saver : DraftAutosaver
  /-- The save that is going on, the innermost stretch first. -/
  stack : List SaveFrame
  /-- The content that the server acknowledged last, as this device knows it. -/
  acknowledged : EditorContent
  /-- The revision that the server acknowledged last, or that an owner choice named since. -/
  acknowledgedRevision : ℕ
  /-- The initial content, or the server copy that the owner accepted last. -/
  base : EditorContent
  /-- The edits since then. -/
  pushed : List AutosavePatch
  /-- The patches handed to the save function since then. -/
  handed : List AutosavePatch

/-- What can happen to an open draft. -/
inductive AutosaveEvent
  | push (patch : AutosavePatch)
  /-- The debounce timer runs out. -/
  | expire
  | flush
  | retry
  | acceptServerCopy (revision : ℕ) (copy : EditorContent)
  | keepLocalCopy (currentRevision : ℕ)
  /-- The save function returns. -/
  | outcome (outcome : AutosaveOutcome)
  /-- A save goes on after the one that it waited for. -/
  | proceed
  deriving DecidableEq, Repr

/-- The edit that an event reports. -/
def AutosaveEvent.edit : AutosaveEvent → Option AutosavePatch
  | push patch => some patch
  | _ => none

/-- Whether the owner accepts the server copy. -/
def AutosaveEvent.accepts : AutosaveEvent → Bool
  | acceptServerCopy .. => true
  | _ => false

namespace AutosaveRun

/-- A draft that was just opened. -/
def opened (instanceId draftId : Uuid) (revision : ℕ) (content : EditorContent) : AutosaveRun where
  saver := .opened instanceId draftId revision
  stack := []
  acknowledged := content
  acknowledgedRevision := revision
  base := content
  pushed := []
  handed := []

/-- Start a save that the rest of the stack waits for. -/
def start (rest : List SaveFrame) (r : AutosaveRun) : AutosaveRun :=
  match r.saver.beginSave with
  | (none, saver) => { r with saver, stack := .returned :: rest }
  | (some (patch, baseRevision), saver) =>
      { r with saver, stack := .awaiting patch baseRevision :: rest, handed := r.handed ++ [patch] }

/-- The last stretch of a save: it looks for a flush that came meanwhile. -/
def lookForFlush (rest : List SaveFrame) (r : AutosaveRun) : AutosaveRun :=
  match r.saver.takeFlush with
  | (true, saver) => start (.last :: rest) { r with saver }
  | (false, saver) => { r with saver, stack := .returned :: rest }

/-- What the server acknowledges with an outcome. -/
def acknowledge (patch : AutosavePatch) (r : AutosaveRun) : AutosaveOutcome → AutosaveRun
  | .saved revision =>
      { r with acknowledged := r.acknowledged.overlay patch, acknowledgedRevision := revision }
  | _ => r

/-- The controller after a flush; one that was disposed refuses it. -/
def flush (r : AutosaveRun) : AutosaveRun :=
  if r.saver.disposed then r
  else
    match r.saver.flush with
    | (false, saver) => { r with saver }
    | (true, saver) => start [] { r with saver }

/-- The controller after an event; one that was disposed refuses what the editor asks for. -/
def step (r : AutosaveRun) : AutosaveEvent → AutosaveRun
  | .push patch =>
      if r.saver.disposed then r
      else { r with saver := r.saver.push patch, pushed := r.pushed ++ [patch] }
  | .expire =>
      if r.saver.timer then flush { r with saver := { r.saver with timer := false } } else r
  | .flush => r.flush
  | .retry =>
      if r.saver.disposed then r
      else
        match r.saver.retry with
        | (false, saver) => { r with saver }
        | (true, saver) => flush { r with saver }
  | .acceptServerCopy revision copy =>
      if r.saver.disposed ∨ r.saver.currentState ≠ .conflict then r
      else
        { r with
          saver := r.saver.acceptServerCopy revision
          acknowledged := copy
          acknowledgedRevision := revision
          base := copy
          pushed := []
          handed := [] }
  | .keepLocalCopy currentRevision =>
      if r.saver.disposed ∨ r.saver.currentState ≠ .conflict then r
      else
        flush { r with
          saver := r.saver.keepLocalCopy currentRevision
          acknowledgedRevision := currentRevision }
  | .outcome outcome =>
      match r.stack with
      | .awaiting patch _ :: rest =>
          match r.saver.concludeSave patch outcome with
          | (.dropped, saver) => { acknowledge patch r outcome with
              saver
              stack := .returned :: rest }
          | (.again, saver) =>
              start (.nested :: rest) { acknowledge patch r outcome with saver }
          | (.settled, saver) => lookForFlush rest { acknowledge patch r outcome with saver }
      | _ => r
  | .proceed =>
      match r.stack with
      | .returned :: .nested :: rest => lookForFlush rest r
      | .returned :: .last :: rest => { r with stack := .returned :: rest }
      | [.returned] => { r with saver := r.saver.release, stack := [] }
      | _ => r

/-- The controller after a sequence of events. -/
def run (r : AutosaveRun) (events : List AutosaveEvent) : AutosaveRun := events.foldl step r

/-- The editor closes: it flushes and disposes the controller. -/
def close (r : AutosaveRun) : AutosaveRun :=
  { r.flush with saver := r.flush.saver.dispose }

/-- The saves that the save function works on, with their base revisions. -/
def inFlight (r : AutosaveRun) : List (AutosavePatch × ℕ) :=
  r.stack.filterMap fun frame =>
    match frame with
    | .awaiting patch baseRevision => some (patch, baseRevision)
    | _ => none

/-! ## The protocol -/

/-- What holds of the edits and of the revision, whatever the save does. -/
structure Keeps (r : AutosaveRun) : Prop where
  live : r.saver.disposed = false
  /-- The controller knows the revision that was acknowledged last. -/
  revision : r.saver.revision = r.acknowledgedRevision
  /-- What is not acknowledged is pending. -/
  acknowledged : r.acknowledged.overlays r.saver.pending.toList = r.base.overlays r.pushed
  /-- What was not handed to the save function is pending. -/
  handed : (r.base.overlays r.handed).overlays r.saver.pending.toList = r.base.overlays r.pushed

/-- A save stands over saves that wait for it, and the pending edits hold what it works on, which
was handed over; the content is the one with all patches handed over. -/
inductive Stacked (given : EditorContent) : DraftAutosaver → List SaveFrame → Prop
  | idle {a : DraftAutosaver} (hslot : a.inFlight = false) (hstate : a.currentState ≠ .saving)
      (hsaved : a.currentState = .saved → a.pending = none) : Stacked given a []
  | returned {a : DraftAutosaver} {rest : List SaveFrame} (hslot : a.inFlight = true)
      (hrest : ∀ frame ∈ rest, frame.isWaiting = true) (hstate : a.currentState ≠ .saving)
      (hsaved : a.currentState = .saved → a.pending = none) :
      Stacked given a (.returned :: rest)
  | awaiting {a : DraftAutosaver} {rest : List SaveFrame} {patch pending : AutosavePatch}
      (hslot : a.inFlight = true) (hrest : ∀ frame ∈ rest, frame.isWaiting = true)
      (hstate : a.currentState = .saving) (hpending : a.pending = some pending)
      (habsorbs : pending.Absorbs patch) (hgiven : given.overlay patch = given) :
      Stacked given a (.awaiting patch a.revision :: rest)

/-- A controller that is not disposed, with its save. -/
structure Sound (r : AutosaveRun) : Prop extends Keeps r where
  stacked : Stacked (r.base.overlays r.handed) r.saver r.stack

variable {r : AutosaveRun} {rest : List SaveFrame} {given given' : EditorContent}

/-- Changes of the controller that touch neither its edits nor its revision. -/
theorem Keeps.of_saver {a : DraftAutosaver} (h : Keeps r) (hdisposed : a.disposed = r.saver.disposed)
    (hrevision : a.revision = r.saver.revision) (hpending : a.pending = r.saver.pending) :
    Keeps { r with saver := a } := by
  refine ⟨?_, ?_, ?_, ?_⟩
  · exact hdisposed.trans h.live
  · exact hrevision.trans h.revision
  · change r.acknowledged.overlays a.pending.toList = _
    rw [hpending]
    exact h.acknowledged
  · change (r.base.overlays r.handed).overlays a.pending.toList = _
    rw [hpending]
    exact h.handed

/-- A stack does not change a live controller's edits. -/
theorem Keeps.of_stack (h : Keeps r) (stack : List SaveFrame) : Keeps { r with stack } :=
  ⟨h.live, h.revision, h.acknowledged, h.handed⟩

/-- A stack depends on four fields of the controller. -/
theorem Stacked.congr {a a' : DraftAutosaver} {stack : List SaveFrame} (h : Stacked given a stack)
    (hslot : a'.inFlight = a.inFlight) (hstate : a'.currentState = a.currentState)
    (hpending : a'.pending = a.pending) (hrevision : a'.revision = a.revision) :
    Stacked given a' stack := by
  cases h with
  | idle hfree hidle hsaved =>
      exact .idle (hslot.trans hfree) (hstate ▸ hidle) (hstate ▸ hpending ▸ hsaved)
  | returned hbusy hrest hidle hsaved =>
      exact .returned (hslot.trans hbusy) hrest (hstate ▸ hidle) (hstate ▸ hpending ▸ hsaved)
  | awaiting hbusy hrest hsaving hsome habsorbs hgiven =>
      rw [← hrevision]
      exact .awaiting (hslot.trans hbusy) hrest (hstate.trans hsaving) (hpending.trans hsome)
        habsorbs hgiven

/-- While the controller is in another state than `saving`, its save waits for nothing. -/
theorem Stacked.of_idle {a a' : DraftAutosaver} {stack : List SaveFrame} (h : Stacked given a stack)
    (hidle : a.currentState ≠ .saving) (hslot : a'.inFlight = a.inFlight)
    (hstate : a'.currentState ≠ .saving)
    (hsaved : a'.currentState = .saved → a'.pending = none) : Stacked given' a' stack := by
  cases h with
  | idle hfree => exact .idle (hslot.trans hfree) hstate hsaved
  | returned hbusy hrest => exact .returned (hslot.trans hbusy) hrest hstate hsaved
  | awaiting _ _ hsaving => exact absurd hsaving hidle

/-- A save that starts hands over the pending edits, unless a conflict waits for the owner. -/
theorem sound_start (h : Keeps r) (hslot : r.saver.inFlight = true)
    (hrest : ∀ frame ∈ rest, frame.isWaiting = true) : Sound (r.start rest) := by
  by_cases hconflict : r.saver.currentState = .conflict
  · have hstart : r.start rest = { r with stack := .returned :: rest } := by
      unfold start DraftAutosaver.beginSave
      rw [if_pos hconflict]
    rw [hstart]
    refine ⟨h.of_stack _, .returned hslot hrest ?_ fun hsaved => ?_⟩
    · rw [hconflict]
      decide
    · rw [hconflict] at hsaved
      contradiction
  · cases hpending : r.saver.pending with
    | none =>
        have hstart : r.start rest =
            { r with
              saver := { r.saver with currentState := .saved }
              stack := .returned :: rest } := by
          unfold start DraftAutosaver.beginSave DraftAutosaver.setStateIfLive
          simp [hconflict, hpending, h.live]
        rw [hstart]
        have hkeeps : Keeps { r with saver := { r.saver with currentState := .saved } } :=
          h.of_saver rfl rfl rfl
        exact ⟨hkeeps.of_stack _, .returned hslot hrest (by simp) fun _ => hpending⟩
    | some patch =>
        have hstart : r.start rest =
            { r with
              saver := { r.saver with currentState := .saving }
              stack := .awaiting patch r.saver.revision :: rest
              handed := r.handed ++ [patch] } := by
          unfold start DraftAutosaver.beginSave DraftAutosaver.setStateIfLive
          simp [hconflict, hpending, h.live]
        rw [hstart]
        have hhanded : (r.base.overlays r.handed).overlay patch = r.base.overlays r.pushed := by
          have hkept := h.handed
          rw [hpending] at hkept
          exact hkept
        have hgiven : (r.base.overlays (r.handed ++ [patch])).overlay patch =
            r.base.overlays (r.handed ++ [patch]) := by
          rw [EditorContent.overlays_append, EditorContent.overlays_singleton]
          exact AutosavePatch.Absorbs.refl patch _
        refine ⟨⟨h.live, h.revision, h.acknowledged, ?_⟩,
          .awaiting hslot hrest rfl hpending (.refl patch) hgiven⟩
        change (r.base.overlays (r.handed ++ [patch])).overlays r.saver.pending.toList = _
        rw [hpending, Option.toList_some, EditorContent.overlays_singleton, hgiven,
          EditorContent.overlays_append]
        exact hhanded

/-- A save that looks for a flush goes on with another one, or returns. -/
theorem sound_lookForFlush (h : Keeps r) (hslot : r.saver.inFlight = true)
    (hrest : ∀ frame ∈ rest, frame.isWaiting = true) (hstate : r.saver.currentState ≠ .saving)
    (hsaved : r.saver.currentState = .saved → r.saver.pending = none) :
    Sound (r.lookForFlush rest) := by
  unfold lookForFlush DraftAutosaver.takeFlush
  by_cases hwanted : r.saver.flushWanted = true
  · rw [if_pos hwanted]
    have hkeeps : Keeps { r with saver := { r.saver with flushWanted := false } } :=
      h.of_saver rfl rfl rfl
    cases hsome : r.saver.pending.isSome with
    | true =>
        refine sound_start hkeeps hslot fun frame hframe => ?_
        rcases List.mem_cons.mp hframe with rfl | hframe
        · rfl
        · exact hrest frame hframe
    | false => exact ⟨hkeeps.of_stack _, .returned hslot hrest hstate hsaved⟩
  · rw [if_neg hwanted]
    exact ⟨h.of_stack _, .returned hslot hrest hstate hsaved⟩

/-- A flush starts a save, or is remembered. -/
theorem sound_flush (h : Keeps r) (hstacked : r.saver.inFlight = true → Sound r) :
    Sound r.flush := by
  unfold flush DraftAutosaver.flush
  rw [if_neg (by simp [h.live])]
  by_cases hslot : r.saver.inFlight = true
  · rw [if_pos hslot]
    obtain ⟨hkeeps, hstack⟩ := hstacked hslot
    refine ⟨hkeeps.of_saver rfl rfl rfl, ?_⟩
    exact hstack.congr rfl rfl rfl rfl
  · rw [if_neg hslot]
    have hkeeps : Keeps { r with saver := { r.saver with timer := false, inFlight := true } } :=
      h.of_saver rfl rfl rfl
    exact sound_start hkeeps rfl (by simp)

/-- An edit joins the pending ones. -/
theorem sound_push (h : Sound r) (patch : AutosavePatch) : Sound (r.step (.push patch)) := by
  have hlive := h.live
  have hpush : r.saver.push patch = { r.saver with
      pending := some (mergePatch r.saver.pending patch)
      currentState := if r.saver.currentState = .conflict then .conflict
        else if r.saver.currentState = .saving then .saving else .unsaved
      timer := if r.saver.currentState = .conflict then r.saver.timer else true } := by
    unfold DraftAutosaver.push
    by_cases hconflict : r.saver.currentState = .conflict
    · simp [hconflict]
    · by_cases hsaving : r.saver.currentState = .saving <;> simp [hconflict, hsaving]
  have hstep : r.step (.push patch) =
      { r with saver := r.saver.push patch, pushed := r.pushed ++ [patch] } := by
    simp only [step]
    rw [if_neg (by simp [hlive])]
  rw [hstep, hpush]
  have hmerged : ∀ content : EditorContent,
      content.overlays r.saver.pending.toList = r.base.overlays r.pushed →
      content.overlay (mergePatch r.saver.pending patch) =
        r.base.overlays (r.pushed ++ [patch]) := by
    intro content hcontent
    rw [EditorContent.overlay_mergePatch, hcontent, EditorContent.overlays_append]
    rfl
  refine ⟨⟨hlive, h.revision, hmerged _ h.acknowledged, hmerged _ h.handed⟩, ?_⟩
  have hstacked := h.stacked
  by_cases hsaving : r.saver.currentState = .saving
  · generalize hst : r.stack = stack at hstacked ⊢
    cases hstacked with
    | idle _ hidle => exact absurd hsaving hidle
    | returned _ _ hidle => exact absurd hsaving hidle
    | awaiting hbusy hrest _ hsome habsorbs hgiven =>
        have hmore := habsorbs.mergePatch patch
        rw [← hsome] at hmore
        refine .awaiting (a := { r.saver with
          pending := some (mergePatch r.saver.pending patch)
          currentState := if r.saver.currentState = .conflict then .conflict
            else if r.saver.currentState = .saving then .saving else .unsaved
          timer := if r.saver.currentState = .conflict then r.saver.timer else true }) hbusy
          hrest ?_ rfl hmore hgiven
        simp [hsaving]
  · refine hstacked.of_idle hsaving rfl ?_ ?_
    · by_cases hconflict : r.saver.currentState = .conflict <;> simp [hconflict, hsaving]
    · by_cases hconflict : r.saver.currentState = .conflict <;> simp [hconflict, hsaving]

/-- After an outcome the save saves what came meanwhile, looks for a flush, or is over. -/
theorem sound_outcome (h : Sound r) (outcome : AutosaveOutcome) :
    Sound (r.step (.outcome outcome)) := by
  obtain ⟨hkeeps, hstacked⟩ := h
  simp only [step]
  split
  next patch base rest hst =>
    rw [hst] at hstacked
    cases hstacked with
    | @awaiting _ _ pending hbusy hrest hsaving hsome habsorbs hgiven =>
        have hlive := hkeeps.live
        have hacknowledged : r.acknowledged.overlay pending = r.base.overlays r.pushed := by
          have hkept := hkeeps.acknowledged
          rw [hsome] at hkept
          exact hkept
        have hhanded : (r.base.overlays r.handed).overlay pending = r.base.overlays r.pushed := by
          have hkept := hkeeps.handed
          rw [hsome] at hkept
          exact hkept
        have hnested : ∀ frame ∈ SaveFrame.nested :: rest, frame.isWaiting = true := by
          intro frame hframe
          rcases List.mem_cons.mp hframe with rfl | hframe
          · rfl
          · exact hrest frame hframe
        cases outcome with
        | saved revision =>
            by_cases hsame : pending = patch
            · have hconclude : r.saver.concludeSave patch (.saved revision) =
                  (.settled, { r.saver with
                    revision, pending := none, currentState := .saved }) := by
                simp [DraftAutosaver.concludeSave, hlive, hsome, hsame]
              rw [hconclude]
              subst hsame
              refine sound_lookForFlush ⟨hlive, rfl, hacknowledged, ?_⟩ hbusy hrest (by simp)
                (by simp)
              change r.base.overlays r.handed = r.base.overlays r.pushed
              rw [← hgiven]
              exact hhanded
            · have hconclude : r.saver.concludeSave patch (.saved revision) =
                  (.again, { r.saver with
                    revision, pending := some pending, currentState := .unsaved }) := by
                simp [DraftAutosaver.concludeSave, hlive, hsome, hsame]
              rw [hconclude]
              have hover : (r.acknowledged.overlay patch).overlay pending =
                  r.base.overlays r.pushed := by
                rw [habsorbs]
                exact hacknowledged
              exact sound_start ⟨hlive, rfl, hover, hhanded⟩ hbusy hnested
        | conflict currentRevision =>
            have hconclude : r.saver.concludeSave patch (.conflict currentRevision) =
                (.settled, { r.saver with currentState := .conflict }) := by
              simp [DraftAutosaver.concludeSave, hlive]
            rw [hconclude]
            exact sound_lookForFlush (hkeeps.of_saver rfl rfl rfl) hbusy hrest (by simp) (by simp)
        | offline =>
            have hconclude : r.saver.concludeSave patch .offline =
                (.settled, { r.saver with currentState := .offline }) := by
              simp [DraftAutosaver.concludeSave, hlive]
            rw [hconclude]
            exact sound_lookForFlush (hkeeps.of_saver rfl rfl rfl) hbusy hrest (by simp) (by simp)
        | error message =>
            have hconclude : r.saver.concludeSave patch (.error message) =
                (.settled, { r.saver with currentState := .error }) := by
              simp [DraftAutosaver.concludeSave, hlive]
            rw [hconclude]
            exact sound_lookForFlush (hkeeps.of_saver rfl rfl rfl) hbusy hrest (by simp) (by simp)
  next => exact ⟨hkeeps, hstacked⟩

/-- The save below goes on with what the innermost one left. -/
theorem sound_proceed (h : Sound r) : Sound (r.step .proceed) := by
  obtain ⟨hkeeps, hstacked⟩ := h
  simp only [step]
  split
  next rest hst =>
    rw [hst] at hstacked
    cases hstacked with
    | returned hbusy hrest hidle hsaved =>
        exact sound_lookForFlush hkeeps hbusy
          (fun frame hframe => hrest frame (List.mem_cons_of_mem _ hframe)) hidle hsaved
  next rest hst =>
    rw [hst] at hstacked
    cases hstacked with
    | returned hbusy hrest hidle hsaved =>
        exact ⟨hkeeps.of_stack _, .returned hbusy
          (fun frame hframe => hrest frame (List.mem_cons_of_mem _ hframe)) hidle hsaved⟩
  next hst =>
    rw [hst] at hstacked
    cases hstacked with
    | returned hbusy hrest hidle hsaved =>
        have hreleased : Keeps { r with saver := r.saver.release } := hkeeps.of_saver rfl rfl rfl
        exact ⟨hreleased.of_stack _, .idle rfl hidle hsaved⟩
  next => exact ⟨hkeeps, hstacked⟩

/-- Every event keeps the edits and the revision of a live controller. -/
theorem sound_step (h : Sound r) (event : AutosaveEvent) : Sound (r.step event) := by
  have hlive := h.live
  cases event with
  | push patch => exact sound_push h patch
  | expire =>
      simp only [step]
      split
      · have hkeeps : Keeps { r with saver := { r.saver with timer := false } } :=
          h.toKeeps.of_saver rfl rfl rfl
        exact sound_flush hkeeps fun _ => ⟨hkeeps, h.stacked.congr rfl rfl rfl rfl⟩
      · exact h
  | flush => exact sound_flush h.toKeeps fun _ => h
  | retry =>
      simp only [step]
      rw [if_neg (by simp [hlive])]
      by_cases hstate : r.saver.currentState ≠ .offline ∧ r.saver.currentState ≠ .error
      · have hretry : r.saver.retry = (false, r.saver) := by
          unfold DraftAutosaver.retry
          rw [if_pos hstate]
        rw [hretry]
        exact h
      · have hidle : r.saver.currentState ≠ .saving := by
          intro hsaving
          simp [hsaving] at hstate
        cases hpending : r.saver.pending with
        | none =>
            have hretry : r.saver.retry = (false, { r.saver with currentState := .saved }) := by
              unfold DraftAutosaver.retry
              rw [if_neg hstate]
              simp [hpending]
            rw [hretry]
            refine ⟨h.toKeeps.of_saver rfl rfl rfl, h.stacked.of_idle hidle rfl (by simp) ?_⟩
            exact fun _ => hpending
        | some patch =>
            have hretry : r.saver.retry = (true, { r.saver with currentState := .unsaved }) := by
              unfold DraftAutosaver.retry
              rw [if_neg hstate]
              simp [hpending]
            rw [hretry]
            have hkeeps : Keeps { r with saver := { r.saver with currentState := .unsaved } } :=
              h.toKeeps.of_saver rfl rfl rfl
            refine sound_flush hkeeps fun _ => ⟨hkeeps, ?_⟩
            exact h.stacked.of_idle hidle rfl (by simp) (by simp)
  | acceptServerCopy revision copy =>
      simp only [step]
      split
      · exact h
      next hconflict =>
        have hidle : r.saver.currentState ≠ .saving := by
          intro hsaving
          simp [hsaving] at hconflict
        refine ⟨⟨hlive, rfl, rfl, rfl⟩, h.stacked.of_idle hidle rfl ?_ fun _ => rfl⟩
        simp [DraftAutosaver.acceptServerCopy]
  | keepLocalCopy currentRevision =>
      simp only [step]
      split
      · exact h
      next hconflict =>
        have hidle : r.saver.currentState ≠ .saving := by
          intro hsaving
          simp [hsaving] at hconflict
        have hkeeps : Keeps { r with
            saver := r.saver.keepLocalCopy currentRevision
            acknowledgedRevision := currentRevision } :=
          ⟨hlive, rfl, h.acknowledged, h.handed⟩
        refine sound_flush hkeeps fun _ => ⟨hkeeps, ?_⟩
        refine h.stacked.of_idle hidle rfl ?_ ?_
        · simp [DraftAutosaver.keepLocalCopy]
        · simp [DraftAutosaver.keepLocalCopy]
  | outcome outcome => exact sound_outcome h outcome
  | proceed => exact sound_proceed h

/-- Every run keeps the edits and the revision of a live controller. -/
theorem sound_run (h : Sound r) (events : List AutosaveEvent) : Sound (r.run events) := by
  induction events generalizing r with
  | nil => exact h
  | cons event events ih => exact ih (sound_step h event)

theorem sound_opened (instanceId draftId : Uuid) (revision : ℕ) (content : EditorContent) :
    Sound (opened instanceId draftId revision content) :=
  ⟨⟨rfl, rfl, rfl, rfl⟩, .idle rfl (by simp [opened, DraftAutosaver.opened]) fun _ => rfl⟩

/-- What a controller promises while it is not disposed. -/
structure Protocol (r : AutosaveRun) : Prop where
  /-- At most one save is in flight. -/
  single : r.inFlight.length ≤ 1
  /-- A save is sent over the revision that was acknowledged last. -/
  base : ∀ save ∈ r.inFlight, save.2 = r.acknowledgedRevision
  /-- What is acknowledged, in flight and pending is all that was edited. -/
  kept : r.acknowledged.overlays (r.inFlight.map (·.1) ++ r.saver.pending.toList) =
    r.base.overlays r.pushed
  /-- The state `saved` says that nothing is pending or in flight. -/
  saved : r.saver.currentState = .saved → r.saver.pending = none ∧ r.inFlight = []

/-- Saves that wait for another one are not in flight. -/
theorem filterMap_waiting (hrest : ∀ frame ∈ rest, frame.isWaiting = true) :
    ({ r with stack := rest } : AutosaveRun).inFlight = [] := by
  unfold inFlight
  rw [List.filterMap_eq_nil_iff]
  intro frame hframe
  have hwaiting := hrest frame hframe
  cases frame with
  | awaiting patch baseRevision => simp [SaveFrame.isWaiting] at hwaiting
  | returned | nested | last => rfl

/-- A sound controller keeps its promises. -/
theorem Sound.protocol (h : Sound r) : Protocol r := by
  obtain ⟨hkeeps, hstacked⟩ := h
  have hnone : ∀ rest, r.stack = rest ∨ r.stack = .returned :: rest →
      (∀ frame ∈ rest, frame.isWaiting = true) → r.inFlight = [] := by
    intro rest hst hrest
    rw [← filterMap_waiting (r := r) hrest]
    unfold inFlight
    rcases hst with hst | hst
    · rw [hst]
    · rw [hst]
      rfl
  generalize hst : r.stack = stack at hstacked
  cases hstacked with
  | idle hfree hidle hsaved =>
      have hempty := hnone [] (.inl hst) (by simp)
      refine ⟨by simp [hempty], by simp [hempty], ?_, fun hs => ⟨hsaved hs, hempty⟩⟩
      rw [hempty]
      exact hkeeps.acknowledged
  | @returned rest hbusy hrest hidle hsaved =>
      have hempty := hnone rest (.inr hst) hrest
      refine ⟨by simp [hempty], by simp [hempty], ?_, fun hs => ⟨hsaved hs, hempty⟩⟩
      rw [hempty]
      exact hkeeps.acknowledged
  | @awaiting rest patch pending hbusy hrest hsaving hsome habsorbs hgiven =>
      have hone : r.inFlight = [(patch, r.saver.revision)] := by
        have hwaiting := filterMap_waiting (r := r) hrest
        unfold inFlight at hwaiting ⊢
        rw [hst]
        simpa using hwaiting
      refine ⟨by simp [hone], ?_, ?_, fun hs => ?_⟩
      · rw [hone]
        intro save hsave
        obtain rfl := List.mem_singleton.mp hsave
        exact hkeeps.revision
      · have hkept := hkeeps.acknowledged
        rw [hsome] at hkept ⊢
        rw [hone, EditorContent.overlays_append]
        simp only [List.map_cons, List.map_nil, Option.toList_some,
          EditorContent.overlays_singleton] at hkept ⊢
        rw [habsorbs]
        exact hkept
      · rw [hsaving] at hs
        contradiction

/-! ### The edits of a run -/

@[simp] theorem start_base : (r.start rest).base = r.base := by
  unfold start
  split <;> rfl

@[simp] theorem start_pushed : (r.start rest).pushed = r.pushed := by
  unfold start
  split <;> rfl

@[simp] theorem lookForFlush_base : (r.lookForFlush rest).base = r.base := by
  unfold lookForFlush
  split
  · exact start_base
  · rfl

@[simp] theorem lookForFlush_pushed : (r.lookForFlush rest).pushed = r.pushed := by
  unfold lookForFlush
  split
  · exact start_pushed
  · rfl

@[simp] theorem flush_base : r.flush.base = r.base := by
  unfold flush
  split
  · rfl
  · split
    · rfl
    · exact start_base

@[simp] theorem flush_pushed : r.flush.pushed = r.pushed := by
  unfold flush
  split
  · rfl
  · split
    · rfl
    · exact start_pushed

@[simp] theorem acknowledge_base {patch : AutosavePatch} {outcome : AutosaveOutcome} :
    (acknowledge patch r outcome).base = r.base := by
  cases outcome <;> rfl

@[simp] theorem acknowledge_pushed {patch : AutosavePatch} {outcome : AutosaveOutcome} :
    (acknowledge patch r outcome).pushed = r.pushed := by
  cases outcome <;> rfl

/-- Every event but an edit leaves the edits alone, and so does every event but the acceptance of a
server copy with the content that they started from. -/
theorem step_edits (hlive : r.saver.disposed = false) {event : AutosaveEvent}
    (hevent : event.accepts = false) :
    (r.step event).base = r.base ∧ (r.step event).pushed = r.pushed ++ event.edit.toList := by
  cases event with
  | push patch => simp [step, hlive, AutosaveEvent.edit]
  | acceptServerCopy revision copy => simp [AutosaveEvent.accepts] at hevent
  | expire | flush | retry | keepLocalCopy currentRevision | outcome outcome | proceed =>
      simp only [step, AutosaveEvent.edit, Option.toList_none, List.append_nil]
      repeat' split
      all_goals simp

/-- Without an acceptance the edits of a run are the ones that its events report. -/
theorem run_edits (h : Sound r) {events : List AutosaveEvent}
    (hevents : ∀ event ∈ events, event.accepts = false) :
    (r.run events).base = r.base ∧
      (r.run events).pushed = r.pushed ++ events.filterMap AutosaveEvent.edit := by
  induction events generalizing r with
  | nil => exact ⟨rfl, (List.append_nil _).symm⟩
  | cons event events ih =>
      obtain ⟨hbase, hpushed⟩ := step_edits h.live (hevents event List.mem_cons_self)
      have hrest := ih (sound_step h event)
        fun event he => hevents event (List.mem_cons_of_mem _ he)
      refine ⟨hrest.1.trans hbase, hrest.2.trans ?_⟩
      rw [hpushed, List.append_assoc, List.filterMap_cons]
      cases event.edit <;> rfl

/-- The autosave protocol: every run of a controller that was opened on a draft keeps it, and
without an acceptance of the server copy its edits are all over the initial content. -/
theorem autosave_protocol (instanceId draftId : Uuid) (revision : ℕ) (content : EditorContent)
    (events : List AutosaveEvent) :
    Protocol ((opened instanceId draftId revision content).run events) ∧
      ((∀ event ∈ events, event.accepts = false) →
        ((opened instanceId draftId revision content).run events).base = content ∧
          ((opened instanceId draftId revision content).run events).pushed =
            events.filterMap AutosaveEvent.edit) := by
  have hopened := sound_opened instanceId draftId revision content
  exact ⟨(sound_run hopened events).protocol, fun hevents => run_edits hopened hevents⟩

/-! ## Closing the editor -/

/-- Every edit was handed to the save function. -/
def HandedOver (r : AutosaveRun) : Prop := r.base.overlays r.handed = r.base.overlays r.pushed

/-- A controller that was disposed outside a conflict; what was not handed over is pending. -/
structure Closed (r : AutosaveRun) : Prop where
  disposed : r.saver.disposed = true
  timer : r.saver.timer = false
  state : r.saver.currentState ≠ .conflict
  handed : (r.base.overlays r.handed).overlays r.saver.pending.toList = r.base.overlays r.pushed

theorem setStateIfLive_of_ne {a : DraftAutosaver} {state : AutosaveState}
    (hstate : a.currentState ≠ .conflict) (hnew : state ≠ .conflict) :
    (a.setStateIfLive state).currentState ≠ .conflict ∧
      (a.setStateIfLive state).pending = a.pending ∧
      (a.setStateIfLive state).disposed = a.disposed ∧
      (a.setStateIfLive state).timer = a.timer := by
  unfold DraftAutosaver.setStateIfLive
  split
  · exact ⟨hstate, rfl, rfl, rfl⟩
  · exact ⟨hnew, rfl, rfl, rfl⟩

/-- A save that starts outside a conflict hands over what is pending. -/
theorem start_handsOver (rest : List SaveFrame) (hstate : r.saver.currentState ≠ .conflict)
    (hhanded : (r.base.overlays r.handed).overlays r.saver.pending.toList =
      r.base.overlays r.pushed) :
    HandedOver (r.start rest) ∧ (r.start rest).saver.currentState ≠ .conflict ∧
      (r.start rest).saver.pending = r.saver.pending ∧
      (r.start rest).saver.disposed = r.saver.disposed ∧
      (r.start rest).saver.timer = r.saver.timer := by
  cases hpending : r.saver.pending with
  | none =>
      have hstart : r.start rest =
          { r with saver := r.saver.setStateIfLive .saved, stack := .returned :: rest } := by
        unfold start DraftAutosaver.beginSave
        simp [hstate, hpending]
      rw [hpending] at hhanded
      rw [hstart, ← hpending]
      exact ⟨hhanded, setStateIfLive_of_ne hstate (by decide)⟩
  | some patch =>
      have hstart : r.start rest =
          { r with
            saver := r.saver.setStateIfLive .saving
            stack := .awaiting patch r.saver.revision :: rest
            handed := r.handed ++ [patch] } := by
        unfold start DraftAutosaver.beginSave
        simp [hstate, hpending]
      have hover : r.base.overlays (r.handed ++ [patch]) = r.base.overlays r.pushed := by
        rw [hpending] at hhanded
        rw [EditorContent.overlays_append]
        exact hhanded
      rw [hstart, ← hpending]
      exact ⟨hover, setStateIfLive_of_ne hstate (by decide)⟩

/-- Pending edits over a content that has them already change nothing. -/
theorem overlays_pending {c : EditorContent} {pending : Option AutosavePatch} (hover : HandedOver r)
    (h : c.overlays pending.toList = r.base.overlays r.pushed) :
    (r.base.overlays r.handed).overlays pending.toList = r.base.overlays r.pushed := by
  rw [show r.base.overlays r.handed = r.base.overlays r.pushed from hover, ← h]
  cases pending with
  | none => rfl
  | some patch => exact AutosavePatch.Absorbs.refl patch c

/-- A save of a closed controller that starts hands over what is pending. -/
theorem Closed.start (h : Closed r) (rest : List SaveFrame) :
    Closed (r.start rest) ∧ HandedOver (r.start rest) := by
  obtain ⟨hover, hstate, hpending, hdisposed, htimer⟩ := start_handsOver rest h.state h.handed
  refine ⟨⟨hdisposed.trans h.disposed, htimer.trans h.timer, hstate, ?_⟩, hover⟩
  refine overlays_pending (c := r.base.overlays r.handed) hover ?_
  rw [hpending, start_base, start_pushed]
  exact h.handed

/-- A step of a closed controller that hands nothing over. -/
structure Idles (r r' : AutosaveRun) : Prop where
  closed : Closed r'
  base : r'.base = r.base
  pushed : r'.pushed = r.pushed
  handed : r'.handed = r.handed
  flushWanted : r'.saver.flushWanted = r.saver.flushWanted
  nested : SaveFrame.nested ∈ r'.stack ↔ SaveFrame.nested ∈ r.stack

theorem Idles.refl (h : Closed r) : Idles r r := ⟨h, rfl, rfl, rfl, rfl, Iff.rfl⟩

/-- After an outcome a closed controller gives up its save. -/
theorem idles_outcome (h : Closed r) (outcome : AutosaveOutcome) :
    Idles r (r.step (.outcome outcome)) := by
  simp only [step]
  split
  next patch base rest hst =>
    have hconclude : r.saver.concludeSave patch outcome = (.dropped, r.saver) := by
      unfold DraftAutosaver.concludeSave
      rw [if_pos h.disposed]
    rw [hconclude]
    have hhanded : (acknowledge patch r outcome).handed = r.handed := by
      cases outcome <;> rfl
    have hclosed : Closed { acknowledge patch r outcome with
        saver := r.saver, stack := .returned :: rest } := by
      refine ⟨h.disposed, h.timer, h.state, ?_⟩
      change ((acknowledge patch r outcome).base.overlays
        (acknowledge patch r outcome).handed).overlays _ =
          (acknowledge patch r outcome).base.overlays (acknowledge patch r outcome).pushed
      rw [hhanded, acknowledge_base, acknowledge_pushed]
      exact h.handed
    refine ⟨hclosed, acknowledge_base, acknowledge_pushed, hhanded, rfl, ?_⟩
    rw [hst]
    simp
  next => exact .refl h

/-- What a closed controller does: it hands nothing over, or a save that waited for one that it
started looks for the remembered flush. -/
theorem step_closed (h : Closed r) (event : AutosaveEvent) :
    Idles r (r.step event) ∨
      ∃ rest, r.stack = .returned :: .nested :: rest ∧ r.step event = r.lookForFlush rest := by
  have hflush : r.flush = r := by
    unfold flush
    rw [if_pos h.disposed]
  cases event with
  | push patch =>
      left
      simp only [step]
      rw [if_pos h.disposed]
      exact .refl h
  | expire =>
      left
      simp only [step]
      rw [if_neg (by simp [h.timer])]
      exact .refl h
  | flush =>
      left
      simp only [step]
      rw [hflush]
      exact .refl h
  | retry =>
      left
      simp only [step]
      rw [if_pos h.disposed]
      exact .refl h
  | acceptServerCopy revision copy =>
      left
      simp only [step]
      rw [if_pos (.inl h.disposed)]
      exact .refl h
  | keepLocalCopy currentRevision =>
      left
      simp only [step]
      rw [if_pos (.inl h.disposed)]
      exact .refl h
  | outcome outcome => exact .inl (idles_outcome h outcome)
  | proceed =>
      simp only [step]
      split
      next rest hst => exact .inr ⟨rest, hst, rfl⟩
      next rest hst =>
        refine .inl ⟨⟨h.disposed, h.timer, h.state, h.handed⟩, rfl, rfl, rfl, rfl, ?_⟩
        rw [hst]
        simp
      next hst =>
        refine .inl ⟨⟨h.disposed, h.timer, h.state, h.handed⟩, rfl, rfl, rfl, rfl, ?_⟩
        rw [hst]
        simp
      next => exact .inl (.refl h)

/-- A save of a closed controller that looks for a flush hands everything over when one is
remembered, and nothing otherwise. -/
theorem lookForFlush_closed (h : Closed r) (rest : List SaveFrame)
    (hover : r.saver.flushWanted = true ∨ HandedOver r) :
    Closed (r.lookForFlush rest) ∧ HandedOver (r.lookForFlush rest) := by
  unfold lookForFlush DraftAutosaver.takeFlush
  by_cases hwanted : r.saver.flushWanted = true
  · rw [if_pos hwanted]
    have hclosed : Closed { r with saver := { r.saver with flushWanted := false } } :=
      ⟨h.disposed, h.timer, h.state, h.handed⟩
    cases hsome : r.saver.pending.isSome with
    | true => exact hclosed.start (.last :: rest)
    | false =>
        have hhanded := h.handed
        rw [Option.isSome_eq_false_iff, Option.isNone_iff_eq_none] at hsome
        rw [hsome] at hhanded
        exact ⟨⟨h.disposed, h.timer, h.state, h.handed⟩, hhanded⟩
  · rw [if_neg hwanted]
    exact ⟨⟨h.disposed, h.timer, h.state, h.handed⟩, hover.resolve_left hwanted⟩

/-- What was handed over, or will be by a save that remembers a flush, stays so. -/
def WillHandOver (r : AutosaveRun) : Prop :=
  HandedOver r ∨ (r.saver.flushWanted = true ∧ SaveFrame.nested ∈ r.stack)

theorem willHandOver_step (h : Closed r) (hwill : WillHandOver r) (event : AutosaveEvent) :
    Closed (r.step event) ∧ WillHandOver (r.step event) := by
  rcases step_closed h event with hidle | ⟨rest, hst, hstep⟩
  · refine ⟨hidle.closed, ?_⟩
    unfold WillHandOver HandedOver at hwill ⊢
    rw [hidle.base, hidle.handed, hidle.pushed, hidle.flushWanted, hidle.nested]
    exact hwill
  · rw [hstep]
    have hover : r.saver.flushWanted = true ∨ HandedOver r := by
      rcases hwill with hhanded | ⟨hwanted, -⟩
      · exact .inr hhanded
      · exact .inl hwanted
    obtain ⟨hclosed, hhanded⟩ := lookForFlush_closed h rest hover
    exact ⟨hclosed, .inl hhanded⟩

/-- A closed controller whose save waits for none that it started hands nothing over any more. -/
theorem notHandedOver_step (h : Closed r) (hnested : SaveFrame.nested ∉ r.stack)
    (hnot : ¬ HandedOver r) (event : AutosaveEvent) :
    Closed (r.step event) ∧ SaveFrame.nested ∉ (r.step event).stack ∧
      ¬ HandedOver (r.step event) := by
  rcases step_closed h event with hidle | ⟨rest, hst, -⟩
  · refine ⟨hidle.closed, fun hmem => hnested (hidle.nested.mp hmem), ?_⟩
    unfold HandedOver at hnot ⊢
    rw [hidle.base, hidle.handed, hidle.pushed]
    exact hnot
  · rw [hst] at hnested
    simp at hnested

/-- A run of a closed controller keeps what its steps keep. -/
theorem closed_run {K : AutosaveRun → Prop}
    (hK : ∀ r, K r → ∀ event, K (r.step event)) (h : K r) (events : List AutosaveEvent) :
    K (r.run events) := by
  induction events generalizing r with
  | nil => exact h
  | cons event events ih => exact ih (hK r h event)

/-- The editor closes a controller outside a conflict: without a save it hands everything over, and
during a save it remembers the flush. -/
theorem close_sound (h : Sound r) (hstate : r.saver.currentState ≠ .conflict) :
    Closed r.close ∧ r.close.base = r.base ∧ r.close.pushed = r.pushed ∧
      (r.stack = [] → HandedOver r.close) ∧
      (r.stack ≠ [] → r.close.handed = r.handed ∧ r.close.saver.flushWanted = true ∧
        r.close.stack = r.stack) := by
  have hlive := h.live
  have hslot : r.saver.inFlight = true ↔ r.stack ≠ [] := by
    have hstacked := h.stacked
    generalize r.stack = stack at hstacked
    cases hstacked with
    | idle hfree => simp [hfree]
    | returned hbusy => simp [hbusy]
    | awaiting hbusy => simp [hbusy]
  by_cases hidle : r.stack = []
  · have hflush : r.flush =
        start [] { r with saver := { r.saver with timer := false, inFlight := true } } := by
      unfold flush DraftAutosaver.flush
      simp [hlive, hslot, hidle]
    obtain ⟨hover, hstate', hpending, -, -⟩ := start_handsOver []
      (r := { r with saver := { r.saver with timer := false, inFlight := true } }) hstate h.handed
    rw [← hflush] at hover hstate' hpending
    refine ⟨⟨rfl, rfl, hstate', ?_⟩, flush_base, flush_pushed, fun _ => hover, absurd hidle⟩
    refine overlays_pending (r := r.flush) (c := r.base.overlays r.handed) hover ?_
    change (r.base.overlays r.handed).overlays r.flush.saver.pending.toList = _
    rw [hpending, flush_base, flush_pushed]
    exact h.handed
  · have hflush : r.flush = { r with saver := { r.saver with flushWanted := true } } := by
      unfold flush DraftAutosaver.flush
      simp [hlive, hslot.mpr hidle]
    have hclose : r.close =
        { r with saver := { r.saver with flushWanted := true, disposed := true, timer := false } } := by
      unfold close
      rw [hflush]
      rfl
    rw [hclose]
    exact ⟨⟨rfl, rfl, hstate, h.handed⟩, rfl, rfl, fun hnil => absurd hnil hidle,
      fun _ => ⟨rfl, rfl, rfl⟩⟩

/-- Closing the editor outside a conflict hands every edit over, once its saves are over, exactly
when no save was going on, or every edit was handed over already, or a save was waiting for the one
that it had started for newer edits. -/
theorem closing_handsOver_iff (instanceId draftId : Uuid) (revision : ℕ) (content : EditorContent)
    (events later : List AutosaveEvent)
    (hstate : ((opened instanceId draftId revision content).run events).saver.currentState ≠
      .conflict)
    (hover : (((opened instanceId draftId revision content).run events).close.run later).stack = []) :
    HandedOver (((opened instanceId draftId revision content).run events).close.run later) ↔
      ((opened instanceId draftId revision content).run events).stack = [] ∨
        HandedOver ((opened instanceId draftId revision content).run events) ∨
        .nested ∈ ((opened instanceId draftId revision content).run events).stack := by
  have hsound := sound_run (sound_opened instanceId draftId revision content) events
  generalize (opened instanceId draftId revision content).run events = r at hsound hstate hover
  obtain ⟨hclosed, hbase, hpushed, hidle, hbusy⟩ := close_sound hsound hstate
  constructor
  · intro hhanded
    by_contra hnone
    simp only [not_or] at hnone
    obtain ⟨hstack, hnot, hnested⟩ := hnone
    obtain ⟨hsame, -, hst⟩ := hbusy hstack
    have hclose : ¬ HandedOver r.close := by
      unfold HandedOver
      rw [hbase, hpushed, hsame]
      exact hnot
    have hrun := closed_run (K := fun r => Closed r ∧ SaveFrame.nested ∉ r.stack ∧ ¬ HandedOver r)
      (fun r hr event => notHandedOver_step hr.1 hr.2.1 hr.2.2 event)
      (r := r.close) ⟨hclosed, hst ▸ hnested, hclose⟩ later
    exact hrun.2.2 hhanded
  · intro hcase
    have hwill : WillHandOver r.close := by
      by_cases hstack : r.stack = []
      · exact .inl (hidle hstack)
      · obtain ⟨hsame, hwanted, hst⟩ := hbusy hstack
        rcases hcase with hnil | hhanded | hnested
        · exact absurd hnil hstack
        · left
          unfold HandedOver
          rw [hbase, hpushed, hsame]
          exact hhanded
        · exact .inr ⟨hwanted, hst ▸ hnested⟩
    have hrun := closed_run (K := fun r => Closed r ∧ WillHandOver r)
      (fun r hr event => willHandOver_step hr.1 hr.2 event) (r := r.close) ⟨hclosed, hwill⟩ later
    rcases hrun.2 with hhanded | ⟨-, hnested⟩
    · exact hhanded
    · rw [hover] at hnested
      simp at hnested

/-! ### A sample -/

/-- A draft without content at its first revision. -/
def sampleOpened : AutosaveRun := opened 1 1 1 ⟨none, none, none, none⟩

/-- An edit of the text. -/
def sampleText (text : String) : AutosaveEvent := .push { markdown := some (some text) }

/-- The owner types while a save is in flight and closes the editor: the save succeeds, and the
newer text is never handed over. -/
theorem newer_edit_dropped :
    let r := sampleOpened.run [sampleText "a", .flush, sampleText "ab"]
    let r' := r.close.run [.outcome (.saved 2), .proceed]
    r.saver.currentState ≠ .conflict ∧ r'.stack = [] ∧ ¬ HandedOver r' := by
  refine ⟨by decide, by decide, ?_⟩
  unfold HandedOver
  decide

/-- An edit inside the debounce window is handed over when the editor closes. -/
theorem closing_handsOver_sample :
    HandedOver ((sampleOpened.run [sampleText "a"]).close.run [.outcome .offline, .proceed]) :=
  (closing_handsOver_iff 1 1 1 ⟨none, none, none, none⟩ [sampleText "a"]
    [.outcome .offline, .proceed] (by decide) (by decide)).mpr (.inl rfl)

end AutosaveRun

end MailHub.Offline
