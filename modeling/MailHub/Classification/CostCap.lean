import MailHub.Classification.Circuit
import Mathlib.Order.Interval.Set.LinearOrder

/-!
# The cost cap

The verdict of the guardrails compares the cap with the spend of the month in whole cents, and the
guard of one message compares it with the spend itself. The main result says for which caps the two
agree.
-/

namespace MailHub.Classification

open Relational Interleaving

variable {s : ClassificationService} {settings : Settings} {candidate : CandidateRow}
variable {failures : List Time} {now : Time} {db db' : Database} {calls : ℕ}

/-! ## The guard of one message -/

/-- A message that no level above Jev answers. -/
structure Residual (s : ClassificationService) (candidate : CandidateRow) (db : Database) :
    Prop where
  placement : hasManualPlacement candidate.id db = false
  sender : loadSenderOverride s candidate.accountId (senderAddressOf candidate.sender) db = none
  rules : matchDeterministicRules s.toLowerCase
    ⟨senderAddressOf candidate.sender, candidate.subject⟩ = none

/-- The guard may refuse the Jev call for a message, after so many calls of the month. -/
def Refuses (s : ClassificationService) (settings : Settings) (candidate : CandidateRow)
    (db : Database) (now : Time) (failures : List Time) (calls : ℕ) : Prop :=
  ∃ db', (classifyRow s candidate settings calls).Outcome (auditTrail now failures) db
    (.ok .costCap) db'

/-- A call to Jev ends with its answer or its failure. -/
theorem askJev_ne_costCap :
    ¬ (askJev s candidate).Outcome (auditTrail now failures) db (.ok .costCap) db' := by
  intro h
  unfold askJev at h
  simp only [Program.bind_eq] at h
  obtain ⟨input, db₁, -, h₁⟩ := Program.outcome_bind_ok.mp h
  obtain ⟨reply, db₂, -, h₂⟩ := Program.outcome_bind_ok.mp h₁
  have hfailed : ∀ kind db₃, ¬ ((ClassifyProgram.transact
      (Tx.recordEvent .system "class.error" "message" candidate.id)).bind fun _ =>
        (Program.pure (.failed kind) : ClassifyProgram ClassifyMessageOutcome)).Outcome
          (auditTrail now failures) db₃ (.ok .costCap) db' := by
    intro kind db₃ h
    obtain ⟨_, _, -, hreturn⟩ := Program.outcome_bind_ok.mp h
    cases (Program.outcome_pure.mp hreturn).1
  split at h₂
  · obtain ⟨decisionId, db₃, -, h₃⟩ := Program.outcome_bind_ok.mp h₂
    obtain ⟨createdAt, db₄, -, h₄⟩ := Program.outcome_bind_ok.mp h₃
    obtain ⟨_, db₅, -, hreturn⟩ := Program.outcome_bind_ok.mp h₄
    cases (Program.outcome_pure.mp hreturn).1
  · exact hfailed _ _ h₂
  · exact hfailed _ _ h₂

/-- The guard refuses the Jev call of a residual message when the spend has reached the cap. -/
theorem refuses_iff (hresidual : Residual s candidate db) :
    Refuses s settings candidate db now failures calls ↔
      ∃ cap, settings.classificationMonthlyCostCapUsd = some cap ∧ cap ≤ spend calls := by
  have hguard : settings.classificationMonthlyCostCapUsd.any (fun cap => cap ≤ spend calls) = true ↔
      ∃ cap, settings.classificationMonthlyCostCapUsd = some cap ∧ cap ≤ spend calls := by
    cases settings.classificationMonthlyCostCapUsd with
    | none => simp
    | some cap => simp
  unfold Refuses classifyRow
  simp only [Program.bind_eq, Program.pure_eq]
  conv in Program.Outcome _ _ _ _ _ => rw [outcome_bind_of_iff fun _ _ => outcome_query]
  simp only [hresidual.placement, Bool.false_eq_true, if_false]
  conv in Program.Outcome _ _ _ _ _ => rw [outcome_bind_of_iff fun _ _ => outcome_query]
  simp only [hresidual.sender, hresidual.rules]
  rw [← hguard]
  unfold spend
  constructor
  · rintro ⟨db', h⟩
    split at h
    · assumption
    · split at h
      · cases (Program.outcome_pure.mp h).1
      · exact absurd h askJev_ne_costCap
  · intro hcap
    refine ⟨db, ?_⟩
    rw [if_pos hcap]
    exact Program.outcome_pure.mpr ⟨rfl, rfl⟩

/-! ## When the verdict and the guard agree -/

/-- The verdict pauses for cost when the rounded spend has reached the cap. -/
theorem pauses_costCap_iff (hadapter : s.adapter = true)
    (henabled : settings.classificationEnabled = true) (hclosed : ¬ Tripped now failures) :
    Pauses s settings db now failures .costCap ↔
      ∃ cap, settings.classificationMonthlyCostCapUsd = some cap ∧
        cap ≤ roundCents (spend (monthCalls s now db)) := by
  have hreached : capReached settings (monthCalls s now db) = true ↔
      ∃ cap, settings.classificationMonthlyCostCapUsd = some cap ∧
        cap ≤ roundCents (spend (monthCalls s now db)) := by
    unfold capReached
    cases settings.classificationMonthlyCostCapUsd with
    | none => simp
    | some cap => simp
  unfold Pauses
  rw [← hreached]
  constructor
  · rintro ⟨db', h⟩
    obtain ⟨-, ⟨htripped, -⟩ | ⟨-, hverdict⟩⟩ := (outcome_assessCircuit hadapter henabled).mp h
    · exact absurd htripped hclosed
    · by_contra hcap
      rw [if_neg hcap] at hverdict
      cases hverdict
  · intro hcap
    refine ⟨db, (outcome_assessCircuit hadapter henabled).mpr ⟨rfl, .inr ⟨hclosed, ?_⟩⟩⟩
    rw [if_pos hcap]

/-- The rounded spend reaches a cap when the spend in cents is at most half a cent short of the
first whole cent that is not below the cap. -/
theorem le_roundCents_iff {cap amount : Rat} :
    cap ≤ roundCents amount ↔ (⌈cap * 100⌉ : ℚ) - 1 / 2 ≤ amount * 100 := by
  have hcents : cap ≤ roundCents amount ↔ cap * 100 ≤ (⌊amount * 100 + 1 / 2⌋ : ℤ) := by
    unfold roundCents
    exact le_div_iff₀ (by norm_num)
  rw [hcents, ← Int.ceil_le, Int.le_floor]
  constructor
  · intro h
    linarith
  · intro h
    linarith

/-- The spends, in cents, for which the verdict and the guard part: those between a cap and half a
cent below the first whole cent that is not below it. -/
def RoundingGap (cap : Rat) : Set Rat :=
  Set.Ico (min (cap * 100) (⌈cap * 100⌉ - 1 / 2)) (max (cap * 100) (⌈cap * 100⌉ - 1 / 2))

theorem not_mem_roundingGap_iff {cap amount : Rat} :
    amount * 100 ∉ RoundingGap cap ↔ (cap ≤ roundCents amount ↔ cap ≤ amount) := by
  have hcap : cap ≤ amount ↔ cap * 100 ≤ amount * 100 :=
    (mul_le_mul_iff_of_pos_right (by norm_num)).symm
  rw [le_roundCents_iff, hcap]
  unfold RoundingGap
  rw [Set.mem_Ico, min_le_iff, lt_max_iff]
  constructor
  · intro h
    constructor
    · intro hround
      by_contra hlt
      exact h ⟨.inr hround, .inl (not_le.mp hlt)⟩
    · intro hreached
      by_contra hlt
      exact h ⟨.inl hreached, .inr (not_le.mp hlt)⟩
  · rintro h ⟨hlow | hlow, hhigh | hhigh⟩
    · exact absurd hlow (not_le.mpr hhigh)
    · exact absurd (h.mpr hlow) (not_le.mpr hhigh)
    · exact absurd (h.mp hlow) (not_le.mpr hhigh)
    · exact absurd hlow (not_le.mpr hhigh)

/-- The verdict pauses for cost exactly when the guard refuses the call of a residual message, if
and only if the spend does not lie in the rounding gap of the cap. -/
theorem cost_cap_agrees_iff {s : ClassificationService} {settings : Settings}
    {candidate : CandidateRow} {db : Database} {now : Time} {failures : List Time}
    (hadapter : s.adapter = true) (henabled : settings.classificationEnabled = true)
    (hclosed : ¬ Tripped now failures) (hresidual : Residual s candidate db) :
    (Pauses s settings db now failures .costCap ↔
        Refuses s settings candidate db now failures (monthCalls s now db)) ↔
      ∀ cap, settings.classificationMonthlyCostCapUsd = some cap →
        spend (monthCalls s now db) * 100 ∉ RoundingGap cap := by
  rw [pauses_costCap_iff hadapter henabled hclosed, refuses_iff hresidual]
  cases settings.classificationMonthlyCostCapUsd with
  | none => simp
  | some cap =>
      simp only [Option.some.injEq, exists_eq_left', forall_eq']
      exact not_mem_roundingGap_iff.symm

/-- A cap in whole cents has its rounding gap in the half cent below it. -/
theorem roundingGap_cents (k : ℤ) : RoundingGap (k / 100) = Set.Ico (k - 1 / 2 : ℚ) k := by
  have hcents : (k / 100 : ℚ) * 100 = k := div_mul_cancel₀ (k : ℚ) (by norm_num)
  have hle : (k - 1 / 2 : ℚ) ≤ k := by linarith
  unfold RoundingGap
  rw [hcents, Int.ceil_intCast, min_eq_right hle, max_eq_left hle]

/-! ## Samples -/

/-- A mailbox of one account, all of whose messages but the newest were answered by a call. -/
def answeredMail (calls : ℕ) : Database :=
  { Database.empty with
    accounts := Table.empty.put ⟨1, [], true⟩
    messages := ⟨(List.range (calls + 1)).map fun i => Message.bare i 1 0, by
      rw [List.map_map]
      exact List.nodup_range.map fun _ _ h => h⟩
    decisions := ⟨(List.range calls).map fun i => ⟨i, i, none, 0⟩, by
      rw [List.map_map]
      exact List.nodup_range.map fun _ _ h => h⟩ }

/-- The newest message of the mailbox. -/
def newestMail (calls : ℕ) : CandidateRow := toCandidate (Message.bare calls 1 0)

/-- Settings that enable classification with a cap of one cent. -/
def oneCent : Settings := ⟨true, some (1 / 100), false⟩

theorem residual_newestMail (calls : ℕ) :
    Residual configuredService (newestMail calls) (answeredMail calls) where
  placement := rfl
  sender := rfl
  rules := by
    have hrules : matchDeterministicRules id ⟨none, none⟩ = none := by decide +kernel
    exact hrules

theorem monthCalls_answeredMail (calls : ℕ) :
    monthCalls configuredService 0 (answeredMail calls) = calls := by
  have hall : (answeredMail calls).decisions.select
      (fun d => configuredService.monthStart 0 * 1000 ≤ d.createdAt) =
        (answeredMail calls).decisions.rows :=
    List.filter_eq_self.mpr fun d _ => decide_eq_true (Nat.zero_le _)
  unfold monthCalls
  rw [hall]
  exact (List.length_map _).trans List.length_range

theorem not_tripped_nil {now : Time} : ¬ Tripped now [] := by
  rw [tripped_iff]
  rintro ⟨burst, hburst, -⟩
  exact hburst.ne_nil (List.subperm_nil.mp hburst.counted)

/-- After sixty calls the verdict pauses for a cap of one cent, and the guard still allows calls. -/
theorem cost_cap_disagrees :
    ¬ (Pauses configuredService oneCent (answeredMail 60) 0 [] .costCap ↔
        Refuses configuredService oneCent (newestMail 60) (answeredMail 60) 0 []
          (monthCalls configuredService 0 (answeredMail 60))) := by
  have hround : (1 / 100 : ℚ) ≤ roundCents (spend 60) := by decide +kernel
  have hspend : ¬ (1 / 100 : ℚ) ≤ spend 60 := by decide +kernel
  rw [pauses_costCap_iff rfl rfl not_tripped_nil, refuses_iff (residual_newestMail 60),
    monthCalls_answeredMail]
  intro h
  obtain ⟨cap, hcap, hle⟩ := h.mp ⟨1 / 100, rfl, hround⟩
  cases hcap
  exact hspend hle

/-- After one hundred and twenty calls both find a cap of one cent reached. -/
theorem cost_cap_agrees_sample :
    Pauses configuredService oneCent (answeredMail 120) 0 [] .costCap ↔
      Refuses configuredService oneCent (newestMail 120) (answeredMail 120) 0 []
        (monthCalls configuredService 0 (answeredMail 120)) := by
  refine (cost_cap_agrees_iff rfl rfl not_tripped_nil (residual_newestMail 120)).mpr ?_
  intro cap hcap
  have hgap := roundingGap_cents 1
  rw [Int.cast_one] at hgap
  cases hcap
  rw [monthCalls_answeredMail, hgap, Set.mem_Ico, not_and_or, not_lt]
  right
  decide +kernel

end MailHub.Classification
