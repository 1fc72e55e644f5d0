import MailHub.Actions.Effects
import MailHub.Send.Runs

/-!
# What every run of the action service keeps

For any number of runs of the same actions, with crashes and faults between any two of their steps:
an item is written only by the run that claimed it or by one that read it as executing. A run of a
flag replays an executing item by design; a run of a move holds what its hold pass finds executing
and writes what a later reload finds.
-/

namespace MailHub

open Relational Interleaving

variable {libs : Libraries} {c₀ c : Config mailSignature ActionLog}

/-- The runs in which no reload of the items of a move finds one executing. -/
def undisturbed : Policy mailSignature ActionLog :=
  ⟨fun _ tag w _ => Undisturbed tag w, fun _ _ _ _ => True⟩

/-- What a moment of a run promises about remote writes. -/
structure EffectsSafe (libs : Libraries) (c₀ c : Config mailSignature ActionLog) : Prop where
  /-- Every write was made by the claimant of its item or by a run whose reload found the item
  executing. -/
  licensed : ∀ a ∈ c.world.outside.applied,
    c.world.outside.claimant a.2.key = some a.1 ∨ (a.1, a.2.key) ∈ c.world.outside.found
  /-- Without such a reload of a move or archive, each of its items was written at most once. -/
  once : Reaches (actionSystem libs) undisturbed c₀ c → ∀ actionId action,
    c.world.store.actions.find? actionId = some action →
      (action.kind = .move ∨ action.kind = .archive) → ∀ itemKey,
        (c.world.outside.applied.filter fun a => a.2.key == (actionId, itemKey)).length ≤ 1

theorem effects_safe (h₀ : ActionStart c₀) (h : Reaches (actionSystem libs) .free c₀ c) :
    EffectsSafe libs c₀ c := by
  have hfree : ActionInv False c.world := (action_sound libs h₀
    (h.mono (fun _ _ _ _ _ => False.elim) fun _ _ _ _ => id)).inv
  refine ⟨hfree.licensed, fun hu actionId action haction hkind itemKey => ?_⟩
  have hinv : ActionInv True c.world := (action_sound libs h₀
    (hu.mono (fun _ _ _ _ hm _ => hm) fun _ _ _ _ => id)).inv
  have hmove : requiresDestination action.kind = true := by
    rcases hkind with hk | hk <;> simp [requiresDestination, hk]
  have hcount := List.nodup_iff_count_le_one.mp (hinv.once trivial) (actionId, itemKey)
  rw [List.count_eq_countP, List.countP_map, List.countP_eq_length_filter,
    List.filter_filter] at hcount
  refine le_of_eq_of_le (congrArg List.length (List.filter_congr fun a ha => ?_)) hcount
  by_cases hkey : a.2.key = (actionId, itemKey)
  · obtain ⟨action', hfind, hk⟩ := hinv.kind a ha
    obtain rfl : a.2.actionId = actionId := (Prod.mk.inj hkey).1
    obtain rfl : action' = action := Option.some.inj (hfind.symm.trans haction)
    simp [hkey, ← hk, hmove]
  · simp [hkey]

/-! ## Samples -/

theorem sampleAccounts_nodup :
    ([(⟨1, [⟨⟨"a@b.cc", none⟩, true⟩], true⟩ : Account)].map Keyed.key).Nodup := by decide

/-- One account with an inbox, an archive and one unread message. -/
def sampleMailbox : Database :=
  { Database.empty with
    serviceState := some ⟨1, .ready⟩
    accounts := ⟨[⟨1, [⟨⟨"a@b.cc", none⟩, true⟩], true⟩], sampleAccounts_nodup⟩
    folders := ⟨[⟨5, 1, "INBOX", some .inbox, some 1, 1, none, none, false⟩,
      ⟨6, 1, "Archive", some .archive, some 1, 0, none, none, false⟩], by decide⟩
    messageOccurrences :=
      ⟨[⟨20, 1, 30, 5, 1, 1, 0, true, false, none, 1, none, none⟩], by decide⟩ }

/-- The sample before any call. -/
def sampleActions : Config mailSignature ActionLog := ⟨⟨sampleMailbox, .empty⟩, []⟩

theorem sampleActions_start : ActionStart sampleActions := ⟨rfl, rfl, rfl, rfl⟩

/-- Worker 0 queues action 40 on the message. -/
def sampleSubmit (submission : MailActionSubmission) : List (Event (actionSystem sampleLibraries)) :=
  [.spawn (.submit (some 1) (some 1) submission), .commit 0, .commit 0, .commit 0, .commit 0] ++
    (if requiresDestination submission.kind then [.commit 0] else []) ++
    [.answer 0 (sampleReply 40), .answer 0 (sampleReply 0), .commit 0, .commit 0, .commit 0]

/-- A run of action 40 up to its hold pass. -/
def sampleHold (i : ℕ) : List (Event (actionSystem sampleLibraries)) :=
  [.spawn (.execute (some 1) 40 3), .commit i, .commit i, .commit i]

/-- The run from there to its claim; a move reads its destination first. -/
def sampleWork (kind : ActionKind) (i : ℕ) : List (Event (actionSystem sampleLibraries)) :=
  (if requiresDestination kind then [.commit i] else []) ++
    [.commit i, .commit i, .answer i (sampleReply 0), .answer i (sampleReply 0),
      .answer i (sampleReply 0), .commit i, .commit i]

/-- The run from there to its remote write. -/
def sampleApply (i : ℕ) : List (Event (actionSystem sampleLibraries)) :=
  [.commit i, .answer i (sampleReply 0)]

/-- What the samples show of a moment. -/
structure EffectView where
  /-- The kind of action 40. -/
  kind : Option ActionKind
  /-- The worker that claimed its item. -/
  claimant : Option ℕ
  /-- The workers that wrote the item. -/
  applied : List ℕ
  /-- The workers that found it executing. -/
  found : List ℕ
  deriving DecidableEq

/-- The view of one moment. -/
def effectView (c : Config mailSignature ActionLog) : EffectView where
  kind := (c.world.store.actions.find? 40).map (·.kind)
  claimant := c.world.outside.claimant (40, 20)
  applied := c.world.outside.applied.map (·.1)
  found := c.world.outside.found.map (·.1)

/-- Two runs of one flag: the second writes the item that the first one, still alive, claimed. -/
def sampleReplay : List (Event (actionSystem sampleLibraries)) :=
  sampleSubmit ⟨1, .markRead, "key", [20], none⟩ ++ sampleHold 1 ++ sampleWork .markRead 1 ++
    sampleHold 2 ++ sampleWork .markRead 2 ++ sampleApply 2 ++ sampleApply 1

/-- Two runs of one move: the first claims the item between the hold pass and the reload of the
second, and both write it. -/
def sampleRace : List (Event (actionSystem sampleLibraries)) :=
  sampleSubmit ⟨1, .archive, "key", [20], some 6⟩ ++ sampleHold 1 ++ sampleHold 2 ++
    sampleWork .archive 1 ++ sampleWork .archive 2 ++ sampleApply 1 ++ sampleApply 2

/-- A flag is written by a run that did not claim its item, and a move is written twice. -/
theorem effects_replayed :
    (sampleActions.run (actionSystem sampleLibraries) sampleReplay).map effectView =
        some ⟨some .markRead, some 1, [2, 1], [2]⟩ ∧
      (sampleActions.run (actionSystem sampleLibraries) sampleRace).map effectView =
        some ⟨some .archive, some 1, [1, 2], [2]⟩ :=
  ⟨by decide +kernel, by decide +kernel⟩

/-- Whether an event reloads no item of a move as executing. -/
def reloadsNoMove (c : Config mailSignature ActionLog) : Event (actionSystem libs) → Bool
  | .commit i => match c.standsAt i with
      | some (.reloadItems actionId) => executingKeys actionId c.world.store == []
      | _ => true
  | _ => true

theorem undisturbed_of_reloadsNoMove {e : Event (actionSystem libs)}
    (h : reloadsNoMove c e = true) : undisturbed.Meets (actionSystem libs) c e := by
  cases e with
  | commit i =>
      intro β tag f k b s hp _ actionId action htag _ _
      subst htag
      have hat : c.standsAt i = some (.reloadItems actionId) := by simp [Config.standsAt, hp]
      simpa [reloadsNoMove, hat] using h
  | answer i r => exact fun _ _ _ _ _ => trivial
  | spawn op | abort i e | stop i | tick t => trivial

/-- A move that one run claims and writes before the next run looks. -/
def sampleMove : List (Event (actionSystem sampleLibraries)) :=
  sampleSubmit ⟨1, .archive, "key", [20], some 6⟩ ++ sampleHold 1 ++ sampleWork .archive 1 ++
    sampleApply 1

/-- The sample writes its move once, and what holds of every run holds of it. -/
theorem effects_safe_sample : ∃ c,
    Reaches (actionSystem sampleLibraries) undisturbed sampleActions c ∧
      effectView c = ⟨some .archive, some 1, [1], []⟩ ∧
      EffectsSafe sampleLibraries sampleActions c := by
  have h : (sampleActions.runChecked (actionSystem sampleLibraries) reloadsNoMove sampleMove).map
      effectView = some ⟨some .archive, some 1, [1], []⟩ := by decide +kernel
  obtain ⟨c, hrun, hview⟩ := Option.map_eq_some_iff.mp h
  have hreach := Reaches.of_runChecked (fun _ _ => undisturbed_of_reloadsNoMove) hrun
  have hfree := hreach.mono (Q := .free) (fun _ _ _ _ _ => trivial) fun _ _ _ _ _ => trivial
  exact ⟨c, hreach, hview, effects_safe sampleActions_start hfree⟩

end MailHub
