import MailHub.Actions.System

/-!
# What each transaction does to the items of an action

An item is claimed, gets its disposition, or has an interrupted hold replaced by the receipt of a
remote write; nothing else ever changes it. The disposition commits with the observed flags of the
occurrence, with its event, and with the completion of the action when no item of it is pending.
-/

namespace MailHub

open Relational Interleaving

variable {db db' : Database} {receipt receipt' : Uuid × Uuid → Prop}

/-! ## Changes of one item -/

/-- An item whose disposition no run may replace. -/
def ActionItem.isFinal (item : ActionItem) : Bool :=
  !item.status.isPending && !isInterruptedHold item

/-- How a transaction changes an item; `receipt` says whether it carries the receipt of a remote
write of the item. -/
inductive ItemChange (receipt : Prop) (item : ActionItem) : ActionItem → Prop
  | same : ItemChange receipt item item
  | claimed (hqueued : item.status = .queued) :
      ItemChange receipt item { item with status := .executing }
  | disposed (status : ActionItemStatus) (outcome : List (String × OutcomeValue))
      (hitem : item.status.isPending = true) (hstatus : status.isPending = false) :
      ItemChange receipt item { item with status, outcome := some outcome }
  | replaced (status : ActionItemStatus) (outcome : List (String × OutcomeValue))
      (hhold : isInterruptedHold item = true) (hreceipt : receipt)
      (hstatus : status.isPending = false) :
      ItemChange receipt item { item with status, outcome := some outcome }

/-- What commits together with the disposition of an item. -/
structure CommitsWith (item' : ActionItem) (db db' : Database) : Prop where
  /-- A confirmed item has its event. -/
  event : item'.status = .confirmed →
    ⟨.user, "action.applied", "occurrence", item'.itemKey⟩ ∈ db'.events.drop db.events.length
  /-- The flags that the receipt states are those of the occurrence, unless the answer was lost. -/
  flags : item'.status ≠ .unknown → ∀ o m,
    (item'.outcome.getD []).lookup "observed" = some (.observed o m) →
      ∀ row, findOccurrence item'.itemKey db = some row → row.expungedAt = none →
        ∃ row', findOccurrence item'.itemKey db' = some row' ∧
          row'.unread = o.unread ∧ row'.flagged = o.flagged
  /-- A message that moved left its folder. -/
  moved : ((item'.outcome.getD []).lookup "movedTo").isSome →
    ∀ row, findOccurrence item'.itemKey db = some row → row.expungedAt = none →
      ∃ row', findOccurrence item'.itemKey db' = some row' ∧ row'.expungedAt.isSome
  /-- Without a pending item the action is complete, and its completion has its event. -/
  completed : (∀ i ∈ db'.actionItems, i.actionId = item'.actionId → i.status.isPending = false) →
    ∀ a, db'.actions.find? item'.actionId = some a → a.status = .complete ∧
      ((∀ a₀, db.actions.find? item'.actionId = some a₀ → a₀.status ≠ .complete) →
        ∃ e ∈ db'.events.drop db.events.length,
          e.entityType = "action" ∧ e.entityId = item'.actionId)

/-- A complete action has no pending item. -/
def Finished (db : Database) : Prop :=
  ∀ a ∈ db.actions, a.status = .complete →
    ∀ i ∈ db.actionItems, i.actionId = a.id → i.status.isPending = false

/-- How a transaction changes the actions and their items; `receipt` names the items whose remote
write it carries the receipt of. -/
structure Dispositions (receipt : Uuid × Uuid → Prop) (db db' : Database) : Prop where
  item : ∀ key item, db.actionItems.find? key = some item →
    ∃ item', db'.actionItems.find? key = some item' ∧ ItemChange (receipt key) item item' ∧
      (item' ≠ item → item'.status.isPending = false → CommitsWith item' db db')
  action : ∀ id a, db.actions.find? id = some a →
    ∃ a', db'.actions.find? id = some a' ∧ a'.kind = a.kind ∧
      (a.status = .complete → a'.status = .complete)
  finished : Finished db → Finished db'

/-- A final item stays as it is. -/
theorem ItemChange.final {p : Prop} {item item' : ActionItem} (h : ItemChange p item item')
    (hfinal : item.isFinal = true) : item' = item := by
  unfold ActionItem.isFinal at hfinal
  rw [Bool.and_eq_true, Bool.not_eq_true', Bool.not_eq_true'] at hfinal
  cases h with
  | same => rfl
  | claimed hqueued =>
      rw [hqueued] at hfinal
      cases hfinal.1
  | disposed status outcome hitem hstatus =>
      rw [hitem] at hfinal
      cases hfinal.1
  | replaced status outcome hhold hreceipt hstatus =>
      rw [hhold] at hfinal
      cases hfinal.2

/-- An interrupted hold stays, or it is replaced by a receipt. -/
theorem ItemChange.hold {p : Prop} {item item' : ActionItem} (h : ItemChange p item item')
    (hhold : isInterruptedHold item = true) : item' = item ∨ p := by
  have hunknown : item.status = .unknown := by
    simp only [isInterruptedHold, Bool.and_eq_true, beq_iff_eq] at hhold
    exact hhold.1
  cases h with
  | same => exact .inl rfl
  | claimed hqueued =>
      rw [hunknown] at hqueued
      cases hqueued
  | disposed status outcome hitem hstatus =>
      rw [hunknown] at hitem
      cases hitem
  | replaced status outcome hhold hreceipt hstatus => exact .inr hreceipt

theorem ItemChange.mono {p q : Prop} {item item' : ActionItem} (h : ItemChange p item item')
    (hpq : p → q) : ItemChange q item item' := by
  cases h with
  | same => exact .same
  | claimed hqueued => exact .claimed hqueued
  | disposed status outcome hitem hstatus => exact .disposed status outcome hitem hstatus
  | replaced status outcome hhold hreceipt hstatus =>
      exact .replaced status outcome hhold (hpq hreceipt) hstatus

namespace Dispositions

theorem mono (h : Dispositions receipt db db') (himp : ∀ key, receipt key → receipt' key) :
    Dispositions receipt' db db' where
  item key item hitem := by
    obtain ⟨item', hitem', hchange, hwith⟩ := h.item key item hitem
    exact ⟨item', hitem', hchange.mono (himp key), hwith⟩
  action := h.action
  finished := h.finished

/-- Whoever leaves actions and items alone changes none of them. -/
theorem of_same (ha : db'.actions = db.actions) (hi : db'.actionItems = db.actionItems) :
    Dispositions receipt db db' where
  item key item hitem := ⟨item, by rw [hi, hitem], .same, fun hne => absurd rfl hne⟩
  action id a h := ⟨a, by rw [ha, h], rfl, fun hs => hs⟩
  finished h := by
    unfold Finished
    rw [ha, hi]
    exact h

theorem refl : Dispositions receipt db db := of_same rfl rfl

end Dispositions

/-! ## Completing an action -/

/-- What the completion check of an action does. -/
structure Finalized (actionId : Uuid) (db db' : Database) : Prop where
  items : db'.actionItems = db.actionItems
  occurrences : db'.messageOccurrences = db.messageOccurrences
  events : db.events <+: db'.events
  /-- No action leaves `complete`. -/
  kept : ∀ id a, db.actions.find? id = some a → ∃ a', db'.actions.find? id = some a' ∧
    a'.kind = a.kind ∧ (a.status = .complete → a'.status = .complete)
  /-- A complete action was complete, or it is this one and nothing of it is pending. -/
  made : ∀ a' ∈ db'.actions, a'.status = .complete → (∃ a ∈ db.actions, a.id = a'.id ∧
    a.status = .complete) ∨
      a'.id = actionId ∧ ∀ i ∈ db.actionItems, i.actionId = actionId → i.status.isPending = false
  /-- Without a pending item this action is complete, and its completion has its event. -/
  completed : (∀ i ∈ db.actionItems, i.actionId = actionId → i.status.isPending = false) →
    ∀ a, db'.actions.find? actionId = some a → a.status = .complete ∧
      ((∀ a₀, db.actions.find? actionId = some a₀ → a₀.status ≠ .complete) →
        ⟨.user, "action.completed", "action", actionId⟩ ∈ db'.events.drop db.events.length)

theorem select_pending_eq_nil {actionId : Uuid} :
    (db.actionItems.select fun i => i.actionId == actionId && i.status.isPending) = [] ↔
      ∀ i ∈ db.actionItems, i.actionId = actionId → i.status.isPending = false := by
  unfold Table.select
  rw [List.filter_eq_nil_iff]
  refine forall₂_congr fun i _ => ?_
  simp

theorem ActionStatus.isPending_iff {status : ActionStatus} :
    status.isPending = true ↔ status ≠ .complete := by
  cases status <;> simp [ActionStatus.isPending]

theorem finalizeActionStatus_ok {actionId : Uuid} {u : Unit}
    (h : (finalizeActionStatus actionId).run db = .ok (u, db')) : Finalized actionId db db' := by
  by_cases hpending : (db.actionItems.select fun i =>
      i.actionId == actionId && i.status.isPending) = []
  · have hnone := select_pending_eq_nil.mp hpending
    by_cases hopen : (db.actions.select fun a => a.id == actionId && a.status.isPending) = []
    · obtain rfl : db = db' := by
        simpa [finalizeActionStatus, hpending, hopen] using h
      refine ⟨rfl, rfl, List.prefix_refl _, fun _ a ha => ⟨a, ha, rfl, fun hs => hs⟩,
        fun a ha hs => .inl ⟨a, ha, rfl, hs⟩, fun _ a ha => ?_⟩
      have hmem : a ∈ db.actions := Table.mem_of_find? ha
      have hnot := List.filter_eq_nil_iff.mp hopen a hmem
      have hid : a.id = actionId := Table.key_of_find? ha
      have hstatus : a.status = .complete := by
        by_contra hstatus
        exact hnot (by simp [hid, ActionStatus.isPending_iff.mpr hstatus])
      exact ⟨hstatus, fun hne => absurd hstatus (hne a ha)⟩
    · obtain rfl : { db with
          actions := db.actions.update (fun a => a.id == actionId && a.status.isPending)
            (fun a => { a with status := .complete }) fun _ => rfl
          events := db.events ++ [⟨.user, "action.completed", "action", actionId⟩] } = db' := by
        simpa [finalizeActionStatus, hpending, hopen] using h
      refine ⟨rfl, rfl, List.prefix_append _ _, fun id a ha => ?_, fun a' ha' hs => ?_,
        fun _ a ha => ⟨?_, fun _ => by simp⟩⟩
      · refine ⟨_, by rw [Table.find?_update, ha, Option.map_some], ?_⟩
        split
        · exact ⟨rfl, fun _ => rfl⟩
        · exact ⟨rfl, fun hs => hs⟩
      · obtain ⟨a, ha, rfl⟩ := List.mem_map.mp ha'
        by_cases hp : (a.id == actionId && a.status.isPending) = true
        · refine .inr ⟨?_, hnone⟩
          rw [if_pos hp]
          simp only [Bool.and_eq_true, beq_iff_eq] at hp
          exact hp.1
        · rw [if_neg hp] at hs ⊢
          exact .inl ⟨a, ha, rfl, hs⟩
      · rw [Table.find?_update] at ha
        obtain ⟨a₀, ha₀, rfl⟩ := Option.map_eq_some_iff.mp ha
        have hid : a₀.id = actionId := Table.key_of_find? ha₀
        split
        · rfl
        next hp =>
          by_contra hstatus
          exact hp (by simp [hid, ActionStatus.isPending_iff.mpr hstatus])
  · obtain rfl : { db with
        actions := db.actions.update (fun a => a.id == actionId && a.status == ActionStatus.queued)
          (fun a => { a with status := .executing }) fun _ => rfl } = db' := by
      simpa [finalizeActionStatus, hpending] using h
    refine ⟨rfl, rfl, List.prefix_refl _, fun id a ha => ?_, fun a' ha' hs => ?_,
      fun hnone => absurd (select_pending_eq_nil.mpr hnone) hpending⟩
    · refine ⟨_, by rw [Table.find?_update, ha, Option.map_some], ?_⟩
      split
      next hp =>
        simp only [Bool.and_eq_true, beq_iff_eq] at hp
        exact ⟨rfl, fun hs => absurd (hs.symm.trans hp.2) (by simp)⟩
      next => exact ⟨rfl, fun hs => hs⟩
    · obtain ⟨a, ha, rfl⟩ := List.mem_map.mp ha'
      by_cases hp : (a.id == actionId && a.status == ActionStatus.queued) = true
      · rw [if_pos hp] at hs
        cases hs
      · rw [if_neg hp] at hs ⊢
        exact .inl ⟨a, ha, rfl, hs⟩

theorem Finalized.finished {actionId : Uuid} (h : Finalized actionId db db')
    (hdb : Finished db) : Finished db' := by
  intro a' ha' hs i hi hid
  rw [h.items] at hi
  rcases h.made a' ha' hs with ⟨a, ha, hsame, has⟩ | ⟨hsame, hnone⟩
  · exact hdb a ha has i hi (hid.trans hsame.symm)
  · exact hnone i hi (hid.trans hsame)

theorem Finalized.dispositions {actionId : Uuid} (h : Finalized actionId db db') :
    Dispositions receipt db db' where
  item key item hitem := ⟨item, by rw [h.items, hitem], .same, fun hne => absurd rfl hne⟩
  action := h.kept
  finished := h.finished

/-! ## Dispositions -/

/-- What a disposition commits beside its receipt agrees with what the receipt states. -/
structure ItemWrite.Faithful (write : ItemWrite) : Prop where
  settled : write.status.isPending = false
  event : write.status = .confirmed → write.applied = true
  flags : write.status ≠ .unknown → ∀ o m,
    write.outcome.lookup "observed" = some (.observed o m) →
      ∃ flags, write.observed = some flags ∧ flags.toTargetObservation = o
  moved : (write.outcome.lookup "movedTo").isSome → write.expunge = true

/-- The details of a conflict are numbers. -/
def numbersOnly (extra : List (String × OutcomeValue)) : Prop :=
  ∀ e ∈ extra, e.1 ≠ "movedTo" ∧ ∃ n, e.2 = .number n

theorem lookup_mem {key : String} {value : OutcomeValue} {extra : List (String × OutcomeValue)}
    (h : extra.lookup key = some value) : (key, value) ∈ extra := by
  obtain ⟨l₁, l₂, rfl, -⟩ := List.lookup_eq_some_iff.mp h
  simp

theorem conflict_faithful {reason : String} {extra : List (String × OutcomeValue)}
    (hextra : numbersOnly extra) : (conflict reason extra).Faithful := by
  have hlookup : ∀ key, key ≠ "reason" →
      (conflict reason extra).outcome.lookup key = extra.lookup key := by
    intro key hkey
    have hne : (key == "reason") = false := by simpa using hkey
    simp only [conflict, List.lookup_cons, hne]
  refine ⟨rfl, fun h => absurd h (by simp [conflict]), fun _ o m hfound => ?_, fun hmoved => ?_⟩
  · rw [hlookup _ (by decide)] at hfound
    obtain ⟨-, n, hn⟩ := hextra _ (lookup_mem hfound)
    cases hn
  · rw [hlookup _ (by decide)] at hmoved
    obtain ⟨value, hvalue⟩ := Option.isSome_iff_exists.mp hmoved
    exact absurd rfl (hextra _ (lookup_mem hvalue)).1

theorem interrupted_faithful :
    ({ status := .unknown, outcome := [("reason", .text "interrupted")] } : ItemWrite).Faithful :=
  ⟨rfl, fun h => absurd h (by simp), fun h => absurd rfl h, fun h => absurd h (by simp)⟩

theorem outcomeWrite_faithful (outcome : ExecutorOutcome) : (outcomeWrite outcome).Faithful := by
  cases outcome with
  | confirmed observed movedTo =>
      refine ⟨rfl, fun _ => rfl, fun _ o m hfound => ⟨observed, rfl, ?_⟩, fun hmoved => ?_⟩
      · simp [outcomeWrite, observedValue] at hfound
        exact hfound.1
      · cases movedTo with
        | none => simp [outcomeWrite, observedValue] at hmoved
        | some moved => rfl
  | conflicted reason observed =>
      refine ⟨rfl, fun h => absurd h (by simp [outcomeWrite]),
        fun _ o m hfound => ⟨observed, rfl, ?_⟩, fun hmoved => ?_⟩
      · have hfound' : OutcomeValue.observed observed.toTargetObservation observed.modseq =
            .observed o m := by simpa [outcomeWrite, observedValue, List.lookup_cons] using hfound
        exact (OutcomeValue.observed.inj hfound').1
      · simp [outcomeWrite, observedValue] at hmoved
  | unknown reason observed =>
      refine ⟨rfl, fun h => absurd h (by simp [outcomeWrite]), fun h => absurd rfl h,
        fun hmoved => ?_⟩
      cases observed <;> simp [outcomeWrite, observedValue] at hmoved
  | failed code message =>
      refine ⟨rfl, fun h => absurd h (by simp [outcomeWrite]), fun _ o m hfound => ?_,
        fun hmoved => ?_⟩
      · simp [outcomeWrite, List.lookup_cons] at hfound
      · simp [outcomeWrite] at hmoved

theorem preflight_faithful {g : SelectedGroup} {item : ActionItem} {remote : ActionMailboxFlags}
    {found : Option MessageOccurrence} {write : ItemWrite}
    (h : preflight g item remote found = some write) :
    write.Faithful ∧ write.supersedesHold = false := by
  cases found with
  | none =>
      obtain rfl := Option.some.inj h
      exact ⟨conflict_faithful (by simp [numbersOnly]), rfl⟩
  | some occurrence =>
      unfold preflight at h
      dsimp only at h
      have hconflict : ∀ reason extra, numbersOnly extra →
          some (conflict reason extra) = some write → write.Faithful ∧ write.supersedesHold = false := by
        rintro reason extra hextra hsome
        obtain rfl := Option.some.inj hsome
        exact ⟨conflict_faithful hextra, rfl⟩
      split_ifs at h with h₁ h₂ h₃ h₄ h₅ h₆
      · exact hconflict _ _ (by simp [numbersOnly]) h
      · exact hconflict _ _ (by simp [numbersOnly]) h
      · exact hconflict _ _ (by simp [numbersOnly]) h
      · -- the no-op states the flags that it commits
        obtain rfl := Option.some.inj h
        refine ⟨⟨rfl, fun _ => rfl, fun _ o m hfound => ⟨remote, rfl, ?_⟩, fun hmoved => ?_⟩, rfl⟩
        · have hfound' : OutcomeValue.observed remote.toTargetObservation remote.modseq =
              .observed o m := by simpa [List.lookup_cons] using hfound
          exact (OutcomeValue.observed.inj hfound').1
        · simp at hmoved
      · exact hconflict _ _ (by simp [numbersOnly]) h
      · exact hconflict _ _ (by simp [numbersOnly]) h

/-- The occurrence after an observation, when it was not expunged. -/
structure Observed (write : ItemWrite) (occurrenceId : Uuid) (db db' : Database) : Prop where
  actions : db'.actions = db.actions
  items : db'.actionItems = db.actionItems
  events : db'.events = db.events
  flags : ∀ row, findOccurrence occurrenceId db = some row → row.expungedAt = none →
    ∃ row', findOccurrence occurrenceId db' = some row' ∧
      (∀ o, write.observed = some o → row'.unread = o.unread ∧ row'.flagged = o.flagged) ∧
      (write.expunge = true → row'.expungedAt.isSome)

theorem recordObservation_ok {occurrenceId : Uuid} {write : ItemWrite} {now : Time} {u : Unit}
    (h : (recordObservation occurrenceId write now).run db = .ok (u, db')) :
    Observed write occurrenceId db db' := by
  cases hfind : findOccurrence occurrenceId db with
  | none =>
      obtain rfl : db = db' := by simpa [recordObservation, hfind] using h
      exact ⟨rfl, rfl, rfl, fun row hrow => absurd (hfind.symm.trans hrow) (by simp)⟩
  | some current =>
      by_cases hwrite : (flagsChanged current write.observed ||
          (write.observed.bind (·.modseq)).isSome || write.expunge) = true
      · obtain rfl : { db with
            messageOccurrences := db.messageOccurrences.update
              (fun row => row.id == occurrenceId && row.expungedAt.isNone)
              (observeOccurrence write (flagsChanged current write.observed) now)
              fun _ => rfl } = db' := by
          simp only [recordObservation, StateT.run_bind, StateT.run_get, pure_bind, hfind] at h
          rw [if_pos hwrite] at h
          simpa using h
        refine ⟨rfl, rfl, rfl, fun row hrow hactive => ?_⟩
        obtain rfl : current = row := Option.some.inj (hfind.symm.trans hrow)
        have hid : current.id = occurrenceId := by simpa using List.find?_some hfind
        refine ⟨observeOccurrence write (flagsChanged current write.observed) now current, ?_,
          fun o ho => ?_, fun hexpunge => ?_⟩
        · unfold findOccurrence at hfind ⊢
          simp only [Table.update, List.find?_map]
          have hkeep : ((fun row : MessageOccurrence => row.id == occurrenceId) ∘ fun r =>
              if (r.id == occurrenceId && r.expungedAt.isNone) = true then
                observeOccurrence write (flagsChanged current write.observed) now r else r) =
              fun row => row.id == occurrenceId := by
            funext r
            simp only [Function.comp_apply]
            split <;> rfl
          rw [hkeep, hfind]
          simp [hid, hactive]
        · simp [observeOccurrence, ho]
        · simp [observeOccurrence, hexpunge]
      · have hsame : db = db' := by
          simp only [recordObservation, StateT.run_bind, StateT.run_get, pure_bind, hfind] at h
          rw [if_neg hwrite] at h
          simpa using h
        obtain rfl := hsame
        refine ⟨rfl, rfl, rfl, fun row hrow hactive => ⟨row, hrow, fun o ho => ?_, fun he => ?_⟩⟩
        · obtain rfl : current = row := Option.some.inj (hfind.symm.trans hrow)
          simp only [Bool.or_eq_true, not_or] at hwrite
          simpa [flagsChanged, ho] using hwrite.1.1
        · simp [he] at hwrite

/-- The statements after the new status of an item commit its flags, its event and the
completion. -/
theorem commitsWith_of_settled {item' : ActionItem} {write : ItemWrite} (hwrite : write.Faithful)
    (db₀ : Database) {db₁ : Database} (hstatus : item'.status = write.status)
    (houtcome : item'.outcome = some write.outcome)
    (hbefore : db₀.messageOccurrences = db.messageOccurrences ∧ db₀.events = db.events ∧
      db₀.actions = db.actions)
    (hobserved : write.observed.isSome ∨ write.expunge = true →
      Observed write item'.itemKey db₀ db₁)
    (hsame : ¬ (write.observed.isSome ∨ write.expunge = true) → db₁ = db₀)
    (hfinal : Finalized item'.actionId { db₁ with events := db₁.events ++
      if write.applied then [⟨.user, "action.applied", "occurrence", item'.itemKey⟩] else [] }
      db') : CommitsWith item' db db' := by
  obtain ⟨hoccurrences, hevents, hactions⟩ := hbefore
  have hfind : findOccurrence item'.itemKey db₀ = findOccurrence item'.itemKey db := by
    unfold findOccurrence
    rw [hoccurrences]
  have hkept : findOccurrence item'.itemKey db' = findOccurrence item'.itemKey db₁ := by
    unfold findOccurrence
    rw [hfinal.occurrences]
  have hmiddle : db₁.events = db.events ∧ db₁.actions = db.actions := by
    by_cases hany : write.observed.isSome ∨ write.expunge = true
    · exact ⟨(hobserved hany).events.trans hevents, (hobserved hany).actions.trans hactions⟩
    · rw [hsame hany]
      exact ⟨hevents, hactions⟩
  refine ⟨fun hconfirmed => ?_, fun hknown o m ho row hrow hactive => ?_,
    fun hmoved row hrow hactive => ?_, fun hnone a ha => ?_⟩
  · have happlied := hwrite.event (hstatus ▸ hconfirmed)
    obtain ⟨more, hmore⟩ := hfinal.events
    rw [← hmore, hmiddle.1, if_pos happlied, List.append_assoc, List.drop_left]
    simp
  · rw [houtcome] at ho
    obtain ⟨flags, hflags, rfl⟩ := hwrite.flags (hstatus ▸ hknown) o m ho
    obtain ⟨row', hrow', hobs, -⟩ := (hobserved (.inl (by simp [hflags]))).flags row
      (hfind.trans hrow) hactive
    exact ⟨row', hkept.trans hrow', hobs flags hflags⟩
  · rw [houtcome] at hmoved
    have hexpunge := hwrite.moved hmoved
    obtain ⟨row', hrow', -, hgone⟩ := (hobserved (.inr hexpunge)).flags row
      (hfind.trans hrow) hactive
    exact ⟨row', hkept.trans hrow', hgone hexpunge⟩
  · rw [hfinal.items] at hnone
    obtain ⟨hcomplete, hevent⟩ := hfinal.completed hnone a ha
    refine ⟨hcomplete, fun hopen =>
      ⟨⟨.user, "action.completed", "action", item'.actionId⟩, ?_, rfl, rfl⟩⟩
    have hdone := hevent (by rw [hmiddle.2]; exact hopen)
    rw [List.length_append, hmiddle.1, ← List.drop_drop] at hdone
    exact List.mem_of_mem_drop hdone

/-- The statements after an item took its disposition. -/
theorem settle_ok {actionId occurrenceId : Uuid} {write : ItemWrite} {now : Time} {u : Unit}
    (h : (do
      if write.observed.isSome || write.expunge then recordObservation occurrenceId write now
      if write.applied then Tx.recordEvent .user "action.applied" "occurrence" occurrenceId
      finalizeActionStatus actionId : Tx Unit).run db = .ok (u, db')) :
    ∃ db₁, (write.observed.isSome ∨ write.expunge = true → Observed write occurrenceId db db₁) ∧
      (¬ (write.observed.isSome ∨ write.expunge = true) → db₁ = db) ∧
      Finalized actionId { db₁ with events := db₁.events ++
        if write.applied then [⟨.user, "action.applied", "occurrence", occurrenceId⟩] else [] }
        db' := by
  have hlast : ∀ {db₁ : Database}, (do
      if write.applied then Tx.recordEvent .user "action.applied" "occurrence" occurrenceId
      finalizeActionStatus actionId : Tx Unit).run db₁ = .ok (u, db') →
      Finalized actionId { db₁ with events := db₁.events ++
        if write.applied then [⟨.user, "action.applied", "occurrence", occurrenceId⟩] else [] }
        db' := by
    intro db₁ hrun
    cases happlied : write.applied with
    | true =>
        simp only [happlied, if_true, StateT.run_bind, Tx.recordEvent_run] at hrun ⊢
        exact finalizeActionStatus_ok hrun
    | false =>
        simp only [happlied, Bool.false_eq_true, if_false, List.append_nil] at hrun ⊢
        exact finalizeActionStatus_ok hrun
  by_cases hany : (write.observed.isSome || write.expunge) = true
  · rw [if_pos hany] at h
    obtain ⟨⟨u₁, db₁⟩, hobserve, hrest⟩ := bind_eq_ok.mp ((StateT.run_bind _ _ _).symm.trans h)
    refine ⟨db₁, fun _ => recordObservation_ok hobserve, fun hnone => ?_, hlast hrest⟩
    exact absurd (by simpa using hany) hnone
  · rw [if_neg hany] at h
    exact ⟨db, fun hsome => absurd (by simpa using hsome) hany, fun _ => rfl, hlast h⟩

/-- A disposition settles its item, with everything that belongs to it. -/
theorem disposeItem_dispositions {actionId : Uuid} {item : ActionItem} {write : ItemWrite}
    {now : Time} {u : Unit} (hwrite : write.Faithful)
    (htarget : write.observed.isSome ∨ write.expunge = true ∨ write.applied = true →
      item.target.occurrenceId = item.itemKey)
    (h : (disposeItem actionId item write now).run db = .ok (u, db')) :
    Dispositions (fun key => write.supersedesHold = true ∧ key = (actionId, item.itemKey))
      db db' := by
  let accepts := fun i : ActionItem =>
    i.actionId == actionId && i.itemKey == item.itemKey && write.eligible i
  let settle := fun i : ActionItem =>
    { i with status := write.status, outcome := some write.outcome }
  by_cases hselect : db.actionItems.select accepts = []
  · obtain rfl : db = db' := by simpa [disposeItem, accepts, hselect] using h
    exact .refl
  simp only [disposeItem, StateT.run_bind, StateT.run_get, pure_bind] at h
  rw [if_pos hselect] at h
  obtain ⟨db₁, hobserved, hsame, hfinal⟩ := settle_ok h
  change write.observed.isSome ∨ write.expunge = true → Observed write item.target.occurrenceId
    { db with actionItems := db.actionItems.update accepts settle fun _ => rfl } db₁ at hobserved
  have htargeted : write.observed.isSome ∨ write.expunge = true → Observed write item.itemKey
      { db with actionItems := db.actionItems.update accepts settle fun _ => rfl } db₁ := by
    intro hany
    rw [← htarget (hany.imp id .inl)]
    exact hobserved hany
  have hevent : (if write.applied then
        [⟨.user, "action.applied", "occurrence", item.target.occurrenceId⟩] else [] :
        List AuditEvent) =
      if write.applied then [⟨.user, "action.applied", "occurrence", item.itemKey⟩] else [] := by
    by_cases happlied : write.applied = true
    · rw [htarget (.inr (.inr happlied))]
    · rw [if_neg happlied, if_neg happlied]
  rw [hevent] at hfinal
  have hitems : db'.actionItems = db.actionItems.update accepts settle fun _ => rfl := by
    rw [hfinal.items]
    by_cases hany : write.observed.isSome ∨ write.expunge = true
    · exact (hobserved hany).items
    · rw [hsame hany]
  have hactions : db₁.actions = db.actions := by
    by_cases hany : write.observed.isSome ∨ write.expunge = true
    · exact (hobserved hany).actions
    · rw [hsame hany]
  have haccepts : ∀ stored, accepts stored = true → stored.actionId = actionId ∧
      stored.itemKey = item.itemKey ∧ write.eligible stored = true := by
    intro stored hstored
    simpa [accepts, and_assoc] using hstored
  refine ⟨fun key stored hstored => ?_, fun id a ha => ?_, fun hdb => hfinal.finished ?_⟩
  · have hfind : db'.actionItems.find? key =
        some (if accepts stored then settle stored else stored) := by
      rw [hitems, Table.find?_update, hstored]
      rfl
    refine ⟨_, hfind, ?_⟩
    by_cases hstored' : accepts stored = true
    · rw [if_pos hstored']
      obtain ⟨hid, hkey, heligible⟩ := haccepts stored hstored'
      refine ⟨?_, fun _ _ => ?_⟩
      · unfold ItemWrite.eligible at heligible
        rw [Bool.or_eq_true, Bool.and_eq_true] at heligible
        rcases heligible with hpending | ⟨hsupersedes, hhold⟩
        · exact .disposed _ _ hpending hwrite.settled
        · refine .replaced _ _ hhold ⟨hsupersedes, ?_⟩ hwrite.settled
          rw [← Table.key_of_find? hstored]
          exact Prod.ext hid hkey
      · rw [← hkey] at htargeted hfinal
        rw [← hid] at hfinal
        exact commitsWith_of_settled hwrite { db with
          actionItems := db.actionItems.update accepts settle fun _ => rfl } rfl rfl
          ⟨rfl, rfl, rfl⟩ htargeted hsame hfinal
    · rw [if_neg hstored']
      exact ⟨.same, fun hne => absurd rfl hne⟩
  · exact hfinal.kept id a (by rw [← ha, ← hactions])
  · intro a ha hs i hi hid
    have hi' : i ∈ db.actionItems.update accepts settle fun _ => rfl := by
      rw [← hitems, hfinal.items]
      exact hi
    obtain ⟨stored, hmem, rfl⟩ := List.mem_map.mp hi'
    have ha' : a ∈ db.actions := hactions ▸ ha
    by_cases hstored : accepts stored = true
    · rw [if_pos hstored]
      exact hwrite.settled
    · rw [if_neg hstored] at hid ⊢
      exact hdb a ha' hs stored hmem hid

/-! ## The other transactions -/

/-- New items leave the ones that are there alone. -/
theorem insertItems_ok {actionId : Uuid} {targets : List ActionItemTarget} {u : Unit}
    (h : (insertItems actionId targets).run db = .ok (u, db')) :
    db'.actions = db.actions ∧
      (∀ key item, db.actionItems.find? key = some item →
        db'.actionItems.find? key = some item) ∧
      ∀ i ∈ db'.actionItems, i ∈ db.actionItems ∨ i.actionId = actionId := by
  induction targets generalizing db with
  | nil =>
      obtain rfl : db = db' := by simpa [insertItems] using h
      exact ⟨rfl, fun _ _ hi => hi, fun _ hi => .inl hi⟩
  | cons target targets ih =>
      simp [insertItems] at h
      obtain ⟨actionItems, hinsert, hrest⟩ := h
      obtain ⟨hactions, hkept, hnew⟩ := ih hrest
      refine ⟨hactions, fun key item hitem => hkept key item ?_, fun i hi => ?_⟩
      · have hne : Keyed.key (⟨actionId, target.occurrenceId, target, .queued, none⟩ : ActionItem) ≠
            key := by
          rintro rfl
          exact absurd (hitem.symm.trans (Table.find?_of_insert? hinsert)) (by simp)
        rw [Table.find?_insert? hinsert, if_neg hne, hitem]
      · rcases hnew i hi with hold | hid
        · rcases (Table.mem_insert? hinsert).mp hold with hold | rfl
          · exact .inl hold
          · exact .inr rfl
        · exact .inr hid

/-- A new action has its own items, and none of them is done. -/
theorem commitSubmission_dispositions {action : Action} {targets : List ActionItemTarget} {u : Unit}
    (hqueued : action.status = .queued)
    (h : (commitSubmission action targets).run db = .ok (u, db')) :
    Dispositions receipt db db' := by
  simp only [commitSubmission, StateT.run_bind, StateT.run_get, pure_bind] at h
  by_cases hkey : (findActionByKey action.idempotencyKey db).isSome = true
  · rw [if_pos hkey] at h
    simp at h
  rw [if_neg hkey] at h
  simp at h
  obtain ⟨actions, hinsert, u₁, db₃, hitems, rfl⟩ := h
  obtain ⟨hactions, hkept, hnew⟩ := insertItems_ok hitems
  refine ⟨fun key item hitem => ⟨item, hkept key item hitem, .same, fun hne => absurd rfl hne⟩,
    fun id a ha => ?_, fun hdb a ha hs i hi hid => ?_⟩
  · have hne : Keyed.key action ≠ id := by
      rintro rfl
      exact absurd (ha.symm.trans (Table.find?_of_insert? hinsert)) (by simp)
    refine ⟨a, ?_, rfl, fun hs => hs⟩
    change db₃.actions.find? id = some a
    rw [hactions, Table.find?_insert? hinsert, if_neg hne, ha]
  · have ha' : a ∈ actions := by
      have hmem : a ∈ db₃.actions := ha
      rw [hactions] at hmem
      exact hmem
    rcases (Table.mem_insert? hinsert).mp ha' with hold | rfl
    · rcases hnew i hi with hi | hi
      · exact hdb a hold hs i hi hid
      · have hnone := Table.find?_eq_none_iff.mp (Table.find?_of_insert? hinsert) a hold
        exact absurd (hid.symm.trans hi) hnone
    · rw [hqueued] at hs
      cases hs

/-- The claim of an item settles nothing. -/
theorem claimItem_dispositions {actionId itemKey : Uuid} {claimed : Bool}
    (h : (claimItem actionId itemKey).run db = .ok (claimed, db')) :
    Dispositions receipt db db' := by
  let isQueued := fun i : ActionItem =>
    i.actionId == actionId && i.itemKey == itemKey && i.status == ActionItemStatus.queued
  obtain rfl : { db with
      actionItems := db.actionItems.update isQueued (fun i => { i with status := .executing })
        fun _ => rfl } = db' := by
    simp [claimItem] at h
    exact h.2
  have hqueued : ∀ i : ActionItem, isQueued i = true → i.status = .queued := by
    intro i hi
    simp only [isQueued, Bool.and_eq_true, beq_iff_eq] at hi
    exact hi.2
  refine ⟨fun key item hitem => ⟨_, by rw [Table.find?_update, hitem, Option.map_some], ?_⟩,
    fun id a ha => ⟨a, ha, rfl, fun hs => hs⟩, fun hdb a ha hs i hi hid => ?_⟩
  · by_cases hi : isQueued item = true
    · rw [if_pos hi]
      exact ⟨.claimed (hqueued item hi), fun _ hp => by cases hp⟩
    · rw [if_neg hi]
      exact ⟨.same, fun hne => absurd rfl hne⟩
  · obtain ⟨stored, hmem, rfl⟩ := List.mem_map.mp hi
    by_cases hstored : isQueued stored = true
    · rw [if_pos hstored] at hid ⊢
      have hdone := hdb a ha hs stored hmem hid
      rw [hqueued stored hstored] at hdone
      cases hdone
    · rw [if_neg hstored] at hid ⊢
      exact hdb a ha hs stored hmem hid

/-- A pending item of a restored action is held. -/
def heldItem (actionId : Uuid) (item : ActionItem) : ActionItem :=
  if item.actionId = actionId ∧ item.status.isPending = true then
    { item with
      status := if item.status = .queued then .conflicted else .unknown
      outcome := some [("reason", .text "restored_generation")] }
  else item

/-- What a restore does to the items of one action, one status after the other. -/
theorem holdItems_twice (actionId : Uuid) (item : ActionItem) :
    (let held := if item.actionId = actionId ∧ item.status = .queued then
        { item with
          status := .conflicted
          outcome := some [("reason", .text "restored_generation")] }
      else item
    if held.actionId = actionId ∧ held.status = .executing then
      { held with status := .unknown, outcome := some [("reason", .text "restored_generation")] }
    else held) = heldItem actionId item := by
  unfold heldItem
  by_cases hid : item.actionId = actionId <;> cases hstatus : item.status <;>
    simp [hid, hstatus, ActionItemStatus.isPending]

theorem key_heldItem (actionId : Uuid) (item : ActionItem) :
    Keyed.key (heldItem actionId item) = Keyed.key item := by
  unfold heldItem
  split <;> rfl

/-- What a restore commits. -/
structure HeldRestored (actionId : Uuid) (db db' : Database) : Prop where
  items : db'.actionItems =
    db.actionItems.update (fun _ => true) (heldItem actionId) (key_heldItem actionId)
  actions : db'.actions = db.actions.update (fun a => a.id == actionId && a.status.isPending)
    (fun a => { a with status := .complete }) fun _ => rfl
  events : (db.actions.select fun a => a.id == actionId && a.status.isPending) ≠ [] →
    ⟨.user, "action.restored_held", "action", actionId⟩ ∈ db'.events.drop db.events.length

theorem holdRestored_ok {actionId : Uuid} {counts : Option (ℕ × ℕ)}
    (h : (holdRestored actionId).run db = .ok (counts, db')) : HeldRestored actionId db db' := by
  have hitems : (db.actionItems.update
      (fun i => i.actionId == actionId && i.status == ActionItemStatus.queued) (fun i =>
        { i with
          status := .conflicted
          outcome := some [("reason", .text "restored_generation")] }) fun _ => rfl).update
      (fun i => i.actionId == actionId && i.status == ActionItemStatus.executing) (fun i =>
        { i with
          status := .unknown
          outcome := some [("reason", .text "restored_generation")] }) (fun _ => rfl) =
      db.actionItems.update (fun _ => true) (heldItem actionId) (key_heldItem actionId) := by
    simp only [Table.update, List.map_map, Table.mk.injEq]
    refine List.map_congr_left fun item _ => ?_
    simpa using holdItems_twice actionId item
  simp [holdRestored, holdItems] at h
  rcases h with ⟨hnone, -, rfl⟩ | ⟨-, -, rfl⟩
  · exact ⟨hitems, rfl, fun hsome => absurd hnone hsome⟩
  · exact ⟨hitems, rfl, fun _ => by simp⟩

/-- A restored action is complete, and its pending items are held. -/
theorem holdRestored_dispositions {actionId : Uuid} {counts : Option (ℕ × ℕ)}
    (h : (holdRestored actionId).run db = .ok (counts, db')) : Dispositions receipt db db' := by
  obtain ⟨hitems, hactions, hevents⟩ := holdRestored_ok h
  have hdone : ∀ a, db'.actions.find? actionId = some a → a.status = .complete := by
    intro a ha
    rw [hactions, Table.find?_update] at ha
    obtain ⟨a₀, ha₀, rfl⟩ := Option.map_eq_some_iff.mp ha
    have hid : a₀.id = actionId := Table.key_of_find? ha₀
    split
    · rfl
    next hp =>
      by_contra hstatus
      exact hp (by simp [hid, ActionStatus.isPending_iff.mpr hstatus])
  refine ⟨fun key item hitem => ⟨heldItem actionId item, by simp [hitems, hitem], ?_⟩,
    fun id a ha => ?_, fun hdb a ha hs i hi hid => ?_⟩
  · by_cases hheld : item.actionId = actionId ∧ item.status.isPending = true
    · unfold heldItem
      rw [if_pos hheld]
      refine ⟨.disposed _ _ hheld.2 (by split <;> rfl), fun _ _ => ?_⟩
      refine ⟨fun hconfirmed => ?_, fun _ o m ho => ?_, fun hmoved => ?_, fun _ a ha => ?_⟩
      · dsimp only at hconfirmed
        split at hconfirmed <;> cases hconfirmed
      · simp [List.lookup_cons] at ho
      · simp at hmoved
      · dsimp only at ha
        rw [hheld.1] at ha
        refine ⟨hdone a ha, fun hopen =>
          ⟨⟨.user, "action.restored_held", "action", actionId⟩, hevents ?_, rfl, hheld.1.symm⟩⟩
        rw [hactions, Table.find?_update] at ha
        obtain ⟨a₀, ha₀, -⟩ := Option.map_eq_some_iff.mp ha
        have hpending := ActionStatus.isPending_iff.mpr (hopen a₀ (by rw [hheld.1, ha₀]))
        have hid : a₀.id = actionId := Table.key_of_find? ha₀
        refine List.ne_nil_of_mem (a := a₀) (Table.mem_select.mpr ⟨Table.mem_of_find? ha₀, ?_⟩)
        simp [hid, hpending]
    · unfold heldItem
      rw [if_neg hheld]
      exact ⟨.same, fun hne => absurd rfl hne⟩
  · rw [hactions]
    refine ⟨_, by rw [Table.find?_update, ha, Option.map_some], ?_⟩
    split
    · exact ⟨rfl, fun _ => rfl⟩
    · exact ⟨rfl, fun hs => hs⟩
  · rw [hitems] at hi
    rw [hactions] at ha
    obtain ⟨stored, hmem, rfl⟩ := List.mem_map.mp hi
    obtain ⟨a₀, hmem₀, rfl⟩ := List.mem_map.mp ha
    rw [if_pos rfl] at hid ⊢
    by_cases hheld : stored.actionId = actionId ∧ stored.status.isPending = true
    · unfold heldItem
      rw [if_pos hheld]
      dsimp only
      split <;> rfl
    · unfold heldItem at hid ⊢
      rw [if_neg hheld] at hid ⊢
      by_cases hopen : (a₀.id == actionId && a₀.status.isPending) = true
      · rw [if_pos hopen] at hid
        simp only [Bool.and_eq_true, beq_iff_eq] at hopen
        by_contra hpending
        exact hheld ⟨hid.trans hopen.1, by simpa using hpending⟩
      · rw [if_neg hopen] at hid hs
        exact hdb a₀ hmem₀ hs stored hmem hid

end MailHub
