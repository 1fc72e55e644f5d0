import MailHub.Classification.Evaluation
import MailHub.Home.Ranking
import MailHub.Ordering.Pages

/-!
# The breakout rule in the gate and in Home

The evaluation gate and Home protect a message by one rule: a security alert, or an action answer
with a high confidence. The gate takes the newest decision that has a number, whichever level
answers now; Home takes the newest decision, and only where the answer is still the one of Jev. The
main result says for which messages the two agree.
-/

namespace MailHub.Classification

open Relational Ordering

variable {e : Evaluator} {lower : String → String} {db : Database} {m : Message}
variable {d : Decision} {confidence : Rat} {id : Uuid} {ids : List Uuid}

/-! ## The confidence that the gate reads -/

/-- The number a decision holds for a message. -/
def numberFor (id : Uuid) (row : Decision) : Option Rat :=
  if row.messageId = id then row.actionConfidence else none

theorem numberFor_eq_some : numberFor id d = some confidence ↔
    d.messageId = id ∧ d.actionConfidence = some confidence := by
  unfold numberFor
  split
  · rename_i h
    simp [h]
  · rename_i h
    simp [h]

theorem lookup_addConfidence {confidences : List (Uuid × Rat)} :
    (addConfidence confidences d).lookup id = (confidences.lookup id).or (numberFor id d) := by
  unfold addConfidence numberFor
  split
  · rename_i hnone
    rw [hnone, ite_self, Option.or_none]
  · rename_i confidence hsome
    rw [hsome]
    by_cases hid : d.messageId = id
    · subst hid
      rw [if_pos rfl]
      split
      · rename_i h
        rw [Option.or_of_isSome h]
      · rename_i h
        rw [List.lookup_append, Option.or_eq_orElse]
        simp
    · rw [if_neg hid, Option.or_none]
      have hne : (id == d.messageId) = false := beq_false_of_ne (Ne.symm hid)
      split
      · rfl
      · rw [List.lookup_append]
        simp [List.lookup_cons, hne]

/-- The confidences hold the first number of each message. -/
theorem lookup_foldl_addConfidence {rows : List Decision} {confidences : List (Uuid × Rat)} :
    (rows.foldl addConfidence confidences).lookup id =
      (confidences.lookup id).or (rows.findSome? (numberFor id)) := by
  induction rows generalizing confidences with
  | nil => exact (Option.or_none).symm
  | cons row rows ih =>
      rw [List.foldl_cons, ih, lookup_addConfidence, Option.or_assoc, List.findSome?_cons]
      cases numberFor id row with
      | none => rw [Option.none_or]
      | some confidence => rw [Option.some_or]

/-- One of the newest decisions about a message among those that have a number. -/
structure NewestNumber (db : Database) (m : Message) (d : Decision) (confidence : Rat) : Prop where
  stored : d ∈ db.decisions
  about : d.messageId = m.id
  number : d.actionConfidence = some confidence
  newest : ∀ d' ∈ db.decisions, d'.messageId = m.id → d'.actionConfidence.isSome = true →
    d'.createdAt ≤ d.createdAt

/-- The decisions that a reading of confidences goes through. -/
theorem mem_rows (he : e.Ordered) :
    d ∈ e.newestFirst (db.decisions.select fun d => d.messageId ∈ ids) ↔
      d ∈ db.decisions ∧ d.messageId ∈ ids := by
  rw [(he.perm _).mem_iff]
  unfold Table.select
  rw [List.mem_filter, decide_eq_true_eq]
  rfl

/-- The gate takes the number of one of the newest decisions that have one. -/
theorem newestNumber_of_lookup (he : e.Ordered) (hid : m.id ∈ ids)
    (h : (readAsksActionConfidences e ids db).lookup m.id = some confidence) :
    ∃ d, NewestNumber db m d confidence := by
  unfold readAsksActionConfidences at h
  rw [lookup_foldl_addConfidence, List.lookup_nil, Option.none_or] at h
  obtain ⟨newer, d, older, hrows, hd, hnewer⟩ := List.findSome?_eq_some_iff.mp h
  obtain ⟨habout, hnumber⟩ := numberFor_eq_some.mp hd
  have hmem : d ∈ e.newestFirst (db.decisions.select fun d => d.messageId ∈ ids) := by
    rw [hrows]
    simp
  refine ⟨d, ((mem_rows he).mp hmem).1, habout, hnumber, fun d' hd' habout' hsome' => ?_⟩
  obtain ⟨confidence', hconfidence'⟩ := Option.isSome_iff_exists.mp hsome'
  have hmem' := (mem_rows he).mpr ⟨hd', habout' ▸ hid⟩
  have hsorted := he.sorted (db.decisions.select fun d => d.messageId ∈ ids)
  rw [hrows] at hmem' hsorted
  rcases List.mem_append.mp hmem' with hlead | hrest
  · have hnone := hnewer d' hlead
    rw [numberFor_eq_some.mpr ⟨habout', hconfidence'⟩] at hnone
    cases hnone
  · rcases List.mem_cons.mp hrest with rfl | holder
    · exact le_rfl
    · exact List.rel_of_pairwise_cons (List.pairwise_append.mp hsorted).2.1 holder

/-- The gate takes no number of a message only when no decision about it has one. -/
theorem number_none_of_lookup (he : e.Ordered) (hid : m.id ∈ ids)
    (h : (readAsksActionConfidences e ids db).lookup m.id = none) (hd : d ∈ db.decisions)
    (habout : d.messageId = m.id) : d.actionConfidence = none := by
  unfold readAsksActionConfidences at h
  rw [lookup_foldl_addConfidence, List.lookup_nil, Option.none_or, List.findSome?_eq_none_iff] at h
  have hnone := h d ((mem_rows he).mpr ⟨hd, habout ▸ hid⟩)
  unfold numberFor at hnone
  rwa [if_pos habout] at hnone

/-- An evaluator to which the database returns one decision before all others of its time. -/
def favouring (d : Decision) : Evaluator where
  toLowerCase text := text
  localeBefore a b := a ≤ b
  newestFirst rows := rows.insertionSort fun a b =>
    toLex (b.createdAt, decide (b = d)) ≤ toLex (a.createdAt, decide (a = d))
  correctionsPerSender := []

theorem favouring_sorted (rows : List Decision) : ((favouring d).newestFirst rows).Pairwise
    fun a b => toLex (b.createdAt, decide (b = d)) ≤ toLex (a.createdAt, decide (a = d)) := by
  exact pairwise_insertionSort_le
    (fun x : Decision => OrderDual.toDual (toLex (x.createdAt, decide (x = d)))) rows

theorem favouring_ordered : (favouring d).Ordered where
  perm rows := List.perm_insertionSort _ rows
  sorted rows := (favouring_sorted rows).imp fun h => (Prod.Lex.le_iff.mp h).elim le_of_lt (·.1.le)

/-- Any of the newest decisions that have a number may be the one that the gate takes. -/
theorem lookup_favouring (hd : NewestNumber db m d confidence) (hid : m.id ∈ ids) :
    (readAsksActionConfidences (favouring d) ids db).lookup m.id = some confidence := by
  have hmem := (mem_rows (favouring_ordered (d := d))).mpr ⟨hd.stored, hd.about ▸ hid⟩
  have hsorted := favouring_sorted (d := d) (db.decisions.select fun d => d.messageId ∈ ids)
  have hnumber := numberFor_eq_some.mpr ⟨hd.about, hd.number⟩
  unfold readAsksActionConfidences
  rw [lookup_foldl_addConfidence, List.lookup_nil, Option.none_or]
  cases hfound : List.findSome? (numberFor m.id)
      ((favouring d).newestFirst (db.decisions.select fun d => d.messageId ∈ ids)) with
  | none =>
      rw [List.findSome?_eq_none_iff.mp hfound d hmem] at hnumber
      cases hnumber
  | some found =>
      obtain ⟨newer, d', older, hrows, hd', hnewer⟩ := List.findSome?_eq_some_iff.mp hfound
      rw [hrows] at hmem hsorted
      rcases List.mem_append.mp hmem with hlead | hrest
      · rw [hnewer d hlead] at hnumber
        cases hnumber
      · rcases List.mem_cons.mp hrest with rfl | holder
        · exact hd'.symm.trans hnumber
        · have hle := List.rel_of_pairwise_cons (List.pairwise_append.mp hsorted).2.1 holder
          obtain ⟨habout', hnumber'⟩ := numberFor_eq_some.mp hd'
          have hselected' : d' ∈ (favouring d).newestFirst
              (db.decisions.select fun d => d.messageId ∈ ids) := by
            rw [hrows]
            simp
          have hstored' := ((mem_rows favouring_ordered).mp hselected').1
          have hnewest := hd.newest d' hstored' habout' (by rw [hnumber']; rfl)
          have hlast : decide (d = d) ≤ decide (d' = d) :=
            (Prod.Lex.le_iff.mp hle).elim (fun hlt => absurd hlt (not_lt.mpr hnewest)) (·.2)
          have heq : d' = d := by
            by_contra hne
            rw [decide_eq_true rfl, decide_eq_false hne] at hlast
            exact absurd hlast (by decide)
          rw [heq] at hd'
          exact hd'.symm.trans hnumber

/-! ## The two rules -/

/-- Whether Home protects a message by the breakout rule. -/
def homeProtects (lower : String → String) (db : Database) (m : Message) : Bool :=
  let candidate := Home.toAttentionCandidate (Home.signalOf lower db m)
  candidate.classHint == some .securityAlert || Home.isProtectedAction candidate

/-- A message that Home protects leads the attention section, as one with a priority does. -/
theorem leads_signalOf : (Home.signalOf lower db m).leads =
    ((Home.signalOf lower db m).prioritySender || (Home.signalOf lower db m).priorityThread ||
      homeProtects lower db m) := by
  unfold Home.HomeSignal.leads homeProtects Home.isProtectedAction Home.toAttentionCandidate
  simp only [Bool.or_assoc]

/-- The newest decision about a message. -/
structure Latest (db : Database) (m : Message) (d : Decision) : Prop where
  stored : d ∈ db.decisions
  about : d.messageId = m.id
  newest : ∀ d' ∈ db.decisions, d'.messageId = m.id →
    toLex (d'.createdAt, d'.id) ≤ toLex (d.createdAt, d.id)

/-- Whether the answer of a message is the one of Jev. -/
def AnsweredByJev (m : Message) : Prop := m.metadata.text "classSource" = some "jev"

theorem head?_newestDecisions : (Home.newestDecisions db m).head? = some d ↔ Latest db m d := by
  have hmem : ∀ d', d' ∈ Home.newestDecisions db m ↔ d' ∈ db.decisions ∧ d'.messageId = m.id := by
    intro d'
    unfold Home.newestDecisions Table.select
    rw [List.mem_insertionSort, List.mem_filter, beq_iff_eq]
    rfl
  have hfirst : ∀ {d}, (Home.newestDecisions db m).head? = some d → Latest db m d := by
    intro d hd
    obtain ⟨hstored, habout⟩ := (hmem d).mp (List.mem_of_mem_head? hd)
    refine ⟨hstored, habout, fun d' hd' habout' => ?_⟩
    have hselected : d' ∈ db.decisions.select (·.messageId == m.id) :=
      List.mem_filter.mpr ⟨hd', beq_iff_eq.mpr habout'⟩
    exact head?_insertionSort_le
      (fun d : Decision => OrderDual.toDual (toLex (d.createdAt, d.id))) _ hd hselected
  constructor
  · exact hfirst
  · intro hd
    cases hhead : (Home.newestDecisions db m).head? with
    | none =>
        have hnil := List.head?_eq_none_iff.mp hhead
        have := (hmem d).mpr ⟨hd.stored, hd.about⟩
        rw [hnil] at this
        cases this
    | some first =>
        have hfirst := hfirst hhead
        have hplace := le_antisymm (hd.newest first hfirst.stored hfirst.about)
          (hfirst.newest d hd.stored hd.about)
        have hid : first.id = d.id := (Prod.mk.inj (toLex.injective hplace)).2
        rw [db.decisions.eq_of_key_eq hfirst.stored hd.stored hid]

/-- Home protects a message for an action that the newest decision of Jev reports. -/
theorem homeProtects_iff : homeProtects lower db m = true ↔
    m.classHint = some .securityAlert ∨ m.asksAction = some true ∧ AnsweredByJev m ∧
      ∃ d confidence, Latest db m d ∧ d.actionConfidence = some confidence ∧
        asksActionBreakoutConfidence ≤ confidence := by
  have hconfidence : ((Home.signalOf lower db m).actionConfidence.any fun confidence =>
        Home.actionBreakoutConfidence ≤ confidence) = true ↔ AnsweredByJev m ∧
      ∃ d confidence, Latest db m d ∧ d.actionConfidence = some confidence ∧
        asksActionBreakoutConfidence ≤ confidence := by
    unfold Home.signalOf AnsweredByJev
    simp only
    split
    · rename_i hjev
      simp only [hjev, true_and, Option.any_eq_true, Option.bind_eq_some_iff,
        head?_newestDecisions, decide_eq_true_eq]
      constructor
      · rintro ⟨confidence, ⟨d, hd, hnumber⟩, hle⟩
        exact ⟨d, confidence, hd, hnumber, hle⟩
      · rintro ⟨d, confidence, hd, hnumber, hle⟩
        exact ⟨confidence, ⟨d, hd, hnumber⟩, hle⟩
    · rename_i hjev
      simp [hjev]
  unfold homeProtects Home.isProtectedAction Home.toAttentionCandidate
  simp only [Bool.or_eq_true, Bool.and_eq_true, beq_iff_eq]
  rw [hconfidence]
  rfl

/-- The gate lets a message break out for an action with a confidence that it read. -/
theorem brokeOut_iff {confidences : List (Uuid × Rat)} : brokeOut confidences m = true ↔
    m.classHint = some .securityAlert ∨ m.asksAction = some true ∧
      ∃ confidence, confidences.lookup m.id = some confidence ∧
        asksActionBreakoutConfidence ≤ confidence := by
  have hzero : ¬ asksActionBreakoutConfidence ≤ 0 := by decide +kernel
  unfold brokeOut
  simp only [Bool.or_eq_true, Bool.and_eq_true, beq_iff_eq, decide_eq_true_eq]
  cases confidences.lookup m.id with
  | none => simp [hzero]
  | some confidence => simp

/-! ## What the gate counts -/

variable {confidences : List (Uuid × Rat)} {label : ClassificationLabel}
variable {labels : List ClassificationLabel} {miss : CriticalFalseNegative}

/-- The misses of one label are those before it and its own. -/
theorem measureLabel_misses {tally : EvaluationTally} :
    (measureLabel e confidences tally label m).criticalFalseNegatives =
      tally.criticalFalseNegatives ++ (missOf confidences label m).toList := by
  unfold measureLabel
  simp only
  split
  · rename_i hnone
    have hclass : m.classHint = none := by
      rw [Bool.and_eq_true, Option.isNone_iff_eq_none] at hnone
      exact hnone.1
    unfold missOf
    rw [hclass]
    exact (List.append_nil _).symm
  · rfl

/-- A critical false negative of any label is among those of the evaluation. -/
theorem mem_measureLabels {rows : List Message} (hlabel : label ∈ labels)
    (hrow : rows.find? (·.id == label.messageId) = some m)
    (hmiss : missOf confidences label m = some miss) :
    miss ∈ (measureLabels e confidences rows labels).criticalFalseNegatives := by
  have hkept : ∀ step : EvaluationTally → ClassificationLabel → EvaluationTally,
      (∀ tally l, miss ∈ tally.criticalFalseNegatives →
        miss ∈ (step tally l).criticalFalseNegatives) →
      (∀ tally, miss ∈ (step tally label).criticalFalseNegatives) →
      ∀ (ls : List ClassificationLabel) (tally : EvaluationTally),
        miss ∈ tally.criticalFalseNegatives ∨ label ∈ ls →
          miss ∈ (ls.foldl step tally).criticalFalseNegatives := by
    intro step hold hnew ls
    induction ls with
    | nil =>
        rintro tally (h | h)
        · exact h
        · cases h
    | cons first ls ih =>
        intro tally h
        rw [List.foldl_cons]
        apply ih
        rcases h with h | h
        · exact .inl (hold tally first h)
        · rcases List.mem_cons.mp h with rfl | h
          · exact .inl (hnew tally)
          · exact .inr h
  unfold measureLabels
  refine hkept _ (fun tally l h => ?_) (fun tally => ?_) labels _ (.inr hlabel)
  · split
    · rw [measureLabel_misses]
      exact List.mem_append_left _ h
    · exact h
  · rw [hrow]
    simp only
    rw [measureLabel_misses, hmiss]
    exact List.mem_append_right _ (List.mem_singleton.mpr rfl)

/-- The row that an evaluation measures for a label is the stored message it names. -/
theorem find?_labeledRow {messageId : Uuid} (hm : m ∈ db.messages) (hid : messageId = m.id)
    (hids : m.id ∈ ids) :
    (db.messages.select fun m => m.id ∈ ids).find? (·.id == messageId) = some m := by
  have hrow : m ∈ db.messages.select fun m => m.id ∈ ids :=
    List.mem_filter.mpr ⟨hm, decide_eq_true hids⟩
  cases hfound : (db.messages.select fun m => m.id ∈ ids).find? (·.id == messageId) with
  | none =>
      have hnone := List.find?_eq_none.mp hfound m hrow
      exact absurd (beq_iff_eq.mpr hid.symm) hnone
  | some row =>
      have hstored : row ∈ db.messages := List.mem_of_mem_filter (List.mem_of_find?_eq_some hfound)
      have heq : row.id = messageId := by simpa using List.find?_some hfound
      rw [db.messages.eq_of_key_eq hstored hm (heq.trans hid)]

/-- The misses that an evaluation reports are those of its labels. -/
theorem evaluateClassification_misses {report : ClassificationEvaluation}
    (h : evaluateClassification e labels db = .ok report) :
    report.criticalFalseNegatives =
      (measureLabels e (readAsksActionConfidences e (labels.map (·.messageId)) db)
        (db.messages.select fun m => m.id ∈ labels.map (·.messageId))
        labels).criticalFalseNegatives := by
  unfold evaluateClassification at h
  simp only at h
  split at h
  · cases h
  · split at h
    · cases h
    · cases h
      rfl

/-! ## When both agree -/

/-- The gate and Home protect a message alike, and the gate counts no critical message as safe that
routing would leave bundled. -/
structure BreakoutsAgree (lower : String → String) (db : Database) (m : Message) : Prop where
  agree : ∀ (e : Evaluator) ids, e.Ordered → m.id ∈ ids →
    (brokeOut (readAsksActionConfidences e ids db) m = true ↔ homeProtects lower db m = true)
  safe : ∀ (e : Evaluator) labels report label, e.Ordered →
    evaluateClassification e labels db = .ok report → label ∈ labels → label.messageId = m.id →
      label.critical = true → m.classHint.any bundles = true →
        (∀ miss ∈ report.criticalFalseNegatives, miss.messageId ≠ m.id) →
          homeProtects lower db m = true

/-- No number of an earlier answer disputes the current one. -/
structure Undisputed (db : Database) (m : Message) : Prop where
  /-- Where another level answers, no newest number breaks out. -/
  current : ¬ AnsweredByJev m → ∀ d confidence, NewestNumber db m d confidence →
    confidence < asksActionBreakoutConfidence
  /-- Where the newest decision has no number, no newest number breaks out. -/
  numbered : ∀ latest, Latest db m latest → latest.actionConfidence = none →
    ∀ d confidence, NewestNumber db m d confidence → confidence < asksActionBreakoutConfidence
  /-- Newest numbers of one time break out together. -/
  untied : AnsweredByJev m → ∀ d confidence d' confidence', NewestNumber db m d confidence →
    NewestNumber db m d' confidence' → asksActionBreakoutConfidence ≤ confidence →
      asksActionBreakoutConfidence ≤ confidence'

/-- The newest decision is one of the newest with a number when it has one. -/
theorem Latest.newestNumber (h : Latest db m d) (hnumber : d.actionConfidence = some confidence) :
    NewestNumber db m d confidence :=
  ⟨h.stored, h.about, hnumber, fun d' hd' habout' _ =>
    (Prod.Lex.le_iff.mp (h.newest d' hd' habout')).elim le_of_lt (·.1.le)⟩

/-- A message with a decision has a newest one. -/
theorem exists_latest (hd : d ∈ db.decisions) (habout : d.messageId = m.id) :
    ∃ latest, Latest db m latest := by
  cases hhead : (Home.newestDecisions db m).head? with
  | some latest => exact ⟨latest, head?_newestDecisions.mp hhead⟩
  | none =>
      have hmem : d ∈ Home.newestDecisions db m :=
        (List.mem_insertionSort _).mpr (List.mem_filter.mpr ⟨hd, beq_iff_eq.mpr habout⟩)
      rw [List.head?_eq_none_iff.mp hhead] at hmem
      cases hmem

/-- A newest number breaks out exactly when Home protects the action. -/
theorem undisputed_iff : Undisputed db m ↔ ∀ d confidence, NewestNumber db m d confidence →
    (asksActionBreakoutConfidence ≤ confidence ↔ AnsweredByJev m ∧
      ∃ latest number, Latest db m latest ∧ latest.actionConfidence = some number ∧
        asksActionBreakoutConfidence ≤ number) := by
  constructor
  · intro h d confidence hd
    constructor
    · intro hle
      have hjev : AnsweredByJev m := by
        by_contra hother
        exact absurd hle (not_le.mpr (h.current hother d confidence hd))
      obtain ⟨latest, hlatest⟩ := exists_latest hd.stored hd.about
      refine ⟨hjev, latest, ?_⟩
      cases hnumber : latest.actionConfidence with
      | none => exact absurd hle (not_le.mpr (h.numbered latest hlatest hnumber d confidence hd))
      | some number =>
          exact ⟨number, hlatest, rfl,
            h.untied hjev d confidence latest number hd (hlatest.newestNumber hnumber) hle⟩
    · rintro ⟨hjev, latest, number, hlatest, hnumber, hle⟩
      exact h.untied hjev latest number d confidence (hlatest.newestNumber hnumber) hd hle
  · intro h
    refine ⟨?_, ?_, ?_⟩
    · intro hother d confidence hd
      by_contra hle
      exact hother ((h d confidence hd).mp (not_lt.mp hle)).1
    · intro latest hlatest hnone d confidence hd
      by_contra hle
      obtain ⟨-, latest', number, hlatest', hnumber, -⟩ := (h d confidence hd).mp (not_lt.mp hle)
      have hsame : latest' = latest := Option.some.inj
        ((head?_newestDecisions.mpr hlatest').symm.trans (head?_newestDecisions.mpr hlatest))
      rw [hsame, hnone] at hnumber
      cases hnumber
    · intro _ d confidence d' confidence' hd hd' hle
      exact (h d' confidence' hd').mpr ((h d confidence hd).mp hle)

/-- The gate and Home agree on a stored message exactly when it is a security alert, or does not ask
for an action, or no number of an earlier answer disputes the current one. -/
theorem breakouts_agree_iff {lower : String → String} {db : Database} {m : Message}
    (hm : m ∈ db.messages) : BreakoutsAgree lower db m ↔
      m.classHint = some .securityAlert ∨ m.asksAction ≠ some true ∨ Undisputed db m := by
  constructor
  · intro h
    by_contra hnot
    push Not at hnot
    obtain ⟨hclass, hasks, hdisputed⟩ := hnot
    refine hdisputed (undisputed_iff.mpr fun d confidence hd => ?_)
    have hagree := h.agree (favouring d) [m.id] favouring_ordered (List.mem_singleton.mpr rfl)
    rw [brokeOut_iff, homeProtects_iff, lookup_favouring hd (List.mem_singleton.mpr rfl)] at hagree
    simpa [hclass, hasks] using hagree
  · intro h
    have hagree : ∀ (e : Evaluator) ids, e.Ordered → m.id ∈ ids →
        (brokeOut (readAsksActionConfidences e ids db) m = true ↔
          homeProtects lower db m = true) := by
      intro e ids he hid
      rw [brokeOut_iff, homeProtects_iff]
      rcases h with hclass | hasks | hundisputed
      · simp [hclass]
      · simp [hasks]
      · refine or_congr_right (and_congr_right fun _ => ?_)
        constructor
        · rintro ⟨confidence, hlookup, hle⟩
          obtain ⟨d, hd⟩ := newestNumber_of_lookup he hid hlookup
          exact (undisputed_iff.mp hundisputed d confidence hd).mp hle
        · rintro ⟨hjev, latest, number, hlatest, hnumber, hle⟩
          cases hlookup : (readAsksActionConfidences e ids db).lookup m.id with
          | none =>
              rw [number_none_of_lookup he hid hlookup hlatest.stored hlatest.about] at hnumber
              cases hnumber
          | some confidence =>
              obtain ⟨d, hd⟩ := newestNumber_of_lookup he hid hlookup
              exact ⟨confidence, rfl, (undisputed_iff.mp hundisputed d confidence hd).mpr
                ⟨hjev, latest, number, hlatest, hnumber, hle⟩⟩
    refine ⟨hagree, ?_⟩
    intro e labels report label he hreport hlabel hid hcritical hbundles hsafe
    have hids : m.id ∈ labels.map (·.messageId) := hid ▸ List.mem_map_of_mem hlabel
    by_contra hprotects
    have hbroke : brokeOut (readAsksActionConfidences e (labels.map (·.messageId)) db) m = false :=
      Bool.eq_false_iff.mpr fun hbroke => hprotects ((hagree e _ he hids).mp hbroke)
    obtain ⟨suggested, hclass, hbundled⟩ := (Option.any_eq_true _ _).mp hbundles
    have hmiss : missOf (readAsksActionConfidences e (labels.map (·.messageId)) db) label m =
        some ⟨m.id, senderAddressOf m.sender, label.classHint, label.asksAction == some true,
          suggested, sourceOf m⟩ := by
      unfold missOf
      simp [hclass, hcritical, hbundled, hbroke]
    have hmem := mem_measureLabels (e := e) hlabel (find?_labeledRow hm hid hids) hmiss
    rw [← evaluateClassification_misses hreport] at hmem
    exact hsafe _ hmem rfl

/-! ## Samples -/

/-- A fetched message of a shop. -/
def offer : Message :=
  { Message.bare 1 1 0 with fetchedBody := true, sender := some ⟨"shop@x.org", none⟩ }

/-- The mailbox of the message. -/
def shopMail : Database :=
  { Database.empty with
    accounts := Table.empty.put ⟨1, [], true⟩
    messages := Table.empty.put offer }

/-- Jev takes the message for a newsletter that asks for an action. -/
def answerOffer : Tx Unit :=
  commitDecision (toCandidate offer) 10 0 ⟨.newsletter, .bulkSender, true, false, false, some (9 / 10)⟩

/-- The message as a correction reads it then. -/
def answeredOffer : CorrectedRow :=
  ⟨1, 1, offer.sender, some .newsletter,
    [("classSource", .text "jev"), ("senderRelationship", .text "bulk_sender")]⟩

/-- The owner then corrects the class of the message. -/
def correctOffer : Tx ℕ := do
  answerOffer
  correctMessage answeredOffer (some .marketing)

/-- After the correction the gate lets the message break out by the number of the earlier answer,
and Home leaves it bundled. -/
theorem breakouts_differ : ∃ db, correctOffer.run shopMail = .ok (1, db) ∧
    ∃ m ∈ db.messages, ¬ BreakoutsAgree toLowerCase db m := by
  refine ⟨_, rfl, _, List.mem_cons_self, fun h => ?_⟩
  have hagree := h.agree (favouring ⟨10, 1, some (9 / 10), 0⟩) [1] favouring_ordered
    (List.mem_singleton.mpr rfl)
  revert hagree
  decide +kernel

/-- While the answer of Jev stands, the gate and Home agree on the message. -/
theorem breakouts_agree_sample : ∃ db, answerOffer.run shopMail = .ok ((), db) ∧
    ∃ m ∈ db.messages, BreakoutsAgree toLowerCase db m := by
  refine ⟨_, rfl, _, List.mem_cons_self, (breakouts_agree_iff List.mem_cons_self).mpr ?_⟩
  have hnumber : ∀ {d : Decision}, d ∈ [(⟨10, 1, some (9 / 10), 0⟩ : Decision)] →
      d.actionConfidence = some (9 / 10) := by
    intro d hd
    rw [List.mem_singleton.mp hd]
  refine .inr (.inr ⟨fun hother => absurd ?_ hother, fun latest hlatest hnone => ?_, ?_⟩)
  · unfold AnsweredByJev
    decide +kernel
  · have := (hnumber hlatest.stored).symm.trans hnone
    cases this
  · intro _ d confidence d' confidence' _ hd' _
    have := Option.some.inj ((hnumber hd'.stored).symm.trans hd'.number)
    rw [← this]
    decide +kernel

end MailHub.Classification
