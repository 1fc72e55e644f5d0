import MailHub.Classification.Service
import MailHub.Interleaving.Outcome
import MailHub.Ordering.Windows

/-!
# The circuit breaker

The breaker opens on a burst of failures and stays open for a cooldown after it. It counts a burst
over the failures that are younger than the cooldown, so a burst whose oldest failure has aged out
of the cooldown is counted short although its newest failure has not. The main result says for
which failures the breaker is open exactly when it should be.
-/

namespace MailHub.Classification

open Relational Interleaving Ordering

variable {failures : List Time} {now : Time} {db : Database}

/-! ## Counting -/

/-- The widest burst is as large as any number of failures that fall within one window. -/
theorem le_widestBurstSize_iff {window k : ℕ} {ts : List Time} (hk : 0 < k)
    (h : ts.Pairwise (· ≥ ·)) : k ≤ widestBurstSize window ts ↔
      ∃ burst, List.Subperm burst ts ∧ burst.length = k ∧ Within window burst := by
  induction ts with
  | nil =>
      constructor
      · intro hle
        have : k ≤ 0 := hle
        omega
      · rintro ⟨burst, hsub, hlength, -⟩
        have hnil : burst = [] := List.subperm_nil.mp hsub
        rw [hnil] at hlength
        exact absurd hlength (by simp; omega)
  | cons last earlier ih =>
      have ih := ih (List.pairwise_cons.mp h).2
      unfold widestBurstSize burstSize
      constructor
      · intro hle
        rcases le_max_iff.mp hle with hle | hle
        · let counted := last :: earlier.takeWhile fun t => last - t ≤ window
          have hcounted : counted.Sublist (last :: earlier) :=
            (List.takeWhile_sublist _).cons_cons last
          refine ⟨counted.take k, ((List.take_sublist k _).trans hcounted).subperm, ?_, ?_⟩
          · have hlength : counted.length = 1 +
                (earlier.takeWhile fun t => last - t ≤ window).length := by
              rw [List.length_cons, Nat.add_comm]
            rw [List.length_take, hlength]
            exact Nat.min_eq_left hle
          · intro a ha b hb
            exact within_window h a (List.mem_of_mem_take ha) b (List.mem_of_mem_take hb)
        · obtain ⟨burst, hsub, hburst⟩ := ih.mp hle
          exact ⟨burst, hsub.trans (List.sublist_cons_self last earlier).subperm, hburst⟩
      · rintro ⟨burst, hsub, rfl, hwithin⟩
        rw [le_max_iff]
        by_cases hmem : last ∈ burst
        · exact .inl (length_le_window h hsub hwithin hmem)
        · exact .inr (ih.mpr ⟨burst, subperm_of_not_mem hsub hmem, rfl, hwithin⟩)

/-! ## Bursts -/

/-- Some of the failures that trip the breaker: as many as the threshold, all within one window. -/
structure Burst (failures burst : List Time) : Prop where
  counted : burst.Subperm failures
  length : burst.length = circuitErrorThreshold
  within : Within circuitWindowMs burst

/-- Whether a failure is younger than the cooldown. -/
def Recent (now t : Time) : Prop := cooldownStart now < t

/-- What the breaker is for: a burst whose newest failure is younger than the cooldown. -/
def BurstCooling (now : Time) (failures : List Time) : Prop :=
  ∃ burst, Burst failures burst ∧
    ∃ newest ∈ burst, (∀ t ∈ burst, t ≤ newest) ∧ Recent now newest

/-- No burst straddles the start of the cooldown, unless another one lies wholly after it. -/
def Unsplit (now : Time) (failures : List Time) : Prop :=
  ∀ burst, Burst failures burst → (∃ t ∈ burst, Recent now t) → (∃ t ∈ burst, ¬ Recent now t) →
    ∃ later, Burst failures later ∧ ∀ t ∈ later, Recent now t

/-- Times that are not empty have a newest one. -/
theorem exists_newest {ts : List Time} (h : ts ≠ []) : ∃ newest ∈ ts, ∀ t ∈ ts, t ≤ newest := by
  induction ts with
  | nil => exact absurd rfl h
  | cons t ts ih =>
      by_cases hnil : ts = []
      · subst hnil
        exact ⟨t, List.mem_cons_self, fun u hu => (List.mem_singleton.mp hu).le⟩
      · obtain ⟨newest, hmem, hnewest⟩ := ih hnil
        rcases Nat.le_total t newest with hle | hle
        · refine ⟨newest, List.mem_cons_of_mem t hmem, fun u hu => ?_⟩
          rcases List.mem_cons.mp hu with rfl | hu
          · exact hle
          · exact hnewest u hu
        · refine ⟨t, List.mem_cons_self, fun u hu => ?_⟩
          rcases List.mem_cons.mp hu with rfl | hu
          · exact Nat.le_refl u
          · exact (hnewest u hu).trans hle

theorem Burst.ne_nil {burst : List Time} (h : Burst failures burst) : burst ≠ [] := by
  intro hnil
  have hlength := h.length
  rw [hnil] at hlength
  exact absurd hlength (by decide)

/-- A burst cools down while any of its failures is younger than the cooldown. -/
theorem burstCooling_iff :
    BurstCooling now failures ↔ ∃ burst, Burst failures burst ∧ ∃ t ∈ burst, Recent now t := by
  constructor
  · rintro ⟨burst, hburst, newest, hmem, -, hrecent⟩
    exact ⟨burst, hburst, newest, hmem, hrecent⟩
  · rintro ⟨burst, hburst, t, ht, hrecent⟩
    obtain ⟨newest, hmem, hnewest⟩ := exists_newest hburst.ne_nil
    exact ⟨burst, hburst, newest, hmem, hnewest, Nat.lt_of_lt_of_le hrecent (hnewest t ht)⟩

/-! ## The verdict -/

/-- The failures of the audit trail after a time, in ascending order. -/
def failuresAfter (failures : List Time) (since : Time) : List Time :=
  (failures.filter fun t => since < t).insertionSort (· ≤ ·)

/-- Surroundings that hold still: one answer of the clock, and the recorded failures. -/
def auditTrail (now : Time) (failures : List Time) : Surroundings classifySignature where
  rely db db' := db' = db
  takes _ _ := True
  answers c x :=
    match c with
    | .now => x = .ok now
    | .failureTimes since => x = .ok (failuresAfter failures since)
    | _ => True
  fault _ := False

variable {s : ClassificationService} {settings : Settings} {db' : Database}

/-- A part that returns one value and leaves the database alone passes the value on. -/
theorem outcome_bind_of_iff {α β : Type} {E : Surroundings classifySignature}
    {p : ClassifyProgram α} {f : α → ClassifyProgram β} {a : α} {b : β}
    (h : ∀ a' db₁, p.Outcome E db (.ok a') db₁ ↔ db = db₁ ∧ a' = a) :
    (p.bind f).Outcome E db (.ok b) db' ↔ (f a).Outcome E db (.ok b) db' := by
  rw [Program.outcome_bind_ok]
  constructor
  · rintro ⟨a', db₁, hp, hf⟩
    obtain ⟨rfl, rfl⟩ := (h a' db₁).mp hp
    exact hf
  · intro hf
    exact ⟨a, db, (h a db).mpr ⟨rfl, rfl⟩, hf⟩

theorem outcome_now {t : Time} :
    (ClassifyProgram.ask .now).Outcome (auditTrail now failures) db (.ok t) db' ↔
      db = db' ∧ t = now := by
  refine Program.outcome_request_ok.trans ?_
  constructor
  · rintro ⟨rfl, h⟩
    exact ⟨rfl, Except.ok.inj h⟩
  · rintro ⟨rfl, rfl⟩
    exact ⟨rfl, rfl⟩

theorem outcome_failureTimes {since : Time} {ts : List Time} :
    (ClassifyProgram.ask (.failureTimes since)).Outcome (auditTrail now failures) db (.ok ts) db' ↔
      db = db' ∧ ts = failuresAfter failures since := by
  refine Program.outcome_request_ok.trans ?_
  constructor
  · rintro ⟨rfl, h⟩
    exact ⟨rfl, Except.ok.inj h⟩
  · rintro ⟨rfl, rfl⟩
    exact ⟨rfl, rfl⟩

theorem outcome_query {α : Type} {f : Database → α} {a : α} :
    (ClassifyProgram.query f).Outcome (auditTrail now failures) db (.ok a) db' ↔
      db = db' ∧ a = f db := by
  refine Program.outcome_read_ok.trans ?_
  constructor
  · rintro ⟨rfl, -, rfl⟩
    exact ⟨rfl, rfl⟩
  · rintro ⟨rfl, rfl⟩
    exact ⟨rfl, trivial, rfl⟩

/-- The recorded calls of the month of a time. -/
def monthCalls (s : ClassificationService) (now : Time) (db : Database) : ℕ :=
  (db.decisions.select fun d => s.monthStart now * 1000 ≤ d.createdAt).length

theorem outcome_countMonthCalls {calls : ℕ} :
    (countMonthCalls s).Outcome (auditTrail now failures) db (.ok calls) db' ↔
      db = db' ∧ calls = monthCalls s now db := by
  unfold countMonthCalls
  rw [Program.bind_eq, outcome_bind_of_iff fun _ _ => outcome_now]
  exact outcome_query

/-- What one month of calls is estimated to cost, in US dollars. -/
def spend (calls : ℕ) : Rat := calls * estimatedCostPerCallUsd

/-- Whether the breaker counts a burst. -/
def Tripped (now : Time) (failures : List Time) : Prop :=
  circuitErrorThreshold ≤
    widestBurstSize circuitWindowMs (failuresAfter failures (cooldownStart now)).reverse

/-- What the breaker counts: a burst of failures that are all younger than the cooldown. -/
theorem tripped_iff :
    Tripped now failures ↔ ∃ burst, Burst failures burst ∧ ∀ t ∈ burst, Recent now t := by
  have hsorted : (failuresAfter failures (cooldownStart now)).reverse.Pairwise (· ≥ ·) :=
    List.pairwise_reverse.mpr (List.pairwise_insertionSort _ _)
  have hperm : (failuresAfter failures (cooldownStart now)).reverse.Perm
      (failures.filter fun t => cooldownStart now < t) :=
    (List.reverse_perm _).trans (List.perm_insertionSort _ _)
  unfold Tripped
  rw [le_widestBurstSize_iff (by decide) hsorted]
  constructor
  · rintro ⟨burst, hsub, hlength, hwithin⟩
    have hsub' := hsub.trans hperm.subperm
    refine ⟨burst, ⟨hsub'.trans List.filter_sublist.subperm, hlength, hwithin⟩, fun t ht => ?_⟩
    have hkept := (List.mem_filter.mp (hsub'.subset ht)).2
    simpa [Recent] using hkept
  · rintro ⟨burst, hburst, hrecent⟩
    have hself : burst.filter (fun t => cooldownStart now < t) = burst :=
      List.filter_eq_self.mpr fun t ht => by simpa [Recent] using hrecent t ht
    have hsub : burst.Subperm (failures.filter fun t => cooldownStart now < t) := by
      rw [← hself]
      exact hburst.counted.filter _
    exact ⟨burst, hsub.trans hperm.symm.subperm, hburst.length, hburst.within⟩

/-- Whether the verdict finds the cap reached. -/
def capReached (settings : Settings) (calls : ℕ) : Bool :=
  settings.classificationMonthlyCostCapUsd.any fun cap => cap ≤ roundCents (spend calls)

/-- The verdict of a service that is configured and enabled. -/
theorem outcome_assessCircuit (hadapter : s.adapter = true)
    (henabled : settings.classificationEnabled = true) {verdict : Option CircuitReason} :
    (assessCircuit s settings).Outcome (auditTrail now failures) db (.ok verdict) db' ↔
      db = db' ∧ (Tripped now failures ∧ verdict = some .errors ∨
        ¬ Tripped now failures ∧
          verdict = if capReached settings (monthCalls s now db) then some .costCap else none) := by
  have hreturn : ∀ v : Option CircuitReason,
      (Program.pure v : ClassifyProgram _).Outcome (auditTrail now failures) db (.ok verdict) db' ↔
        db = db' ∧ verdict = v := by
    intro v
    rw [Program.outcome_pure, Except.ok.injEq, and_comm, eq_comm (a := db')]
  unfold assessCircuit capReached
  simp only [hadapter, henabled, Bool.true_eq_false, if_false, Program.bind_eq, Program.pure_eq]
  rw [outcome_bind_of_iff fun _ _ => outcome_now, outcome_bind_of_iff fun _ _ => outcome_failureTimes]
  by_cases htripped : Tripped now failures
  · have hle : circuitErrorThreshold ≤ widestBurstSize circuitWindowMs
        (failuresAfter failures (cooldownStart now)).reverse := htripped
    rw [if_pos hle, hreturn]
    simp [htripped]
  · have hlt : ¬ circuitErrorThreshold ≤ widestBurstSize circuitWindowMs
        (failuresAfter failures (cooldownStart now)).reverse := htripped
    rw [if_neg hlt]
    cases settings.classificationMonthlyCostCapUsd with
    | none =>
        rw [hreturn]
        simp [htripped]
    | some cap =>
        simp only
        rw [outcome_bind_of_iff fun _ _ => outcome_countMonthCalls]
        by_cases hcap : cap ≤ roundCents (monthCalls s now db * estimatedCostPerCallUsd)
        · rw [if_pos hcap, hreturn]
          simp [htripped, hcap, spend]
        · rw [if_neg hcap, hreturn]
          simp [htripped, hcap, spend]

/-! ## When the breaker is open -/

/-- The verdict of the guardrails may be to pause for a reason. -/
def Pauses (s : ClassificationService) (settings : Settings) (db : Database) (now : Time)
    (failures : List Time) (reason : CircuitReason) : Prop :=
  ∃ db', (assessCircuit s settings).Outcome (auditTrail now failures) db (.ok (some reason)) db'

/-- The breaker of a service that is configured and enabled is open when it counts a burst. -/
theorem pauses_errors_iff (hadapter : s.adapter = true)
    (henabled : settings.classificationEnabled = true) :
    Pauses s settings db now failures .errors ↔ Tripped now failures := by
  unfold Pauses
  constructor
  · rintro ⟨db', h⟩
    obtain ⟨-, ⟨htripped, -⟩ | ⟨-, hverdict⟩⟩ := (outcome_assessCircuit hadapter henabled).mp h
    · exact htripped
    · split at hverdict <;> cases hverdict
  · intro htripped
    exact ⟨db, (outcome_assessCircuit hadapter henabled).mpr ⟨rfl, .inl ⟨htripped, rfl⟩⟩⟩

/-- A breaker that was open on earlier failures is open while a burst among them has a failure that
is younger than the cooldown. -/
def StaysOpen (s : ClassificationService) (settings : Settings) (db : Database) (now : Time)
    (failures : List Time) : Prop :=
  ∀ past earlier burst, past ≤ now → earlier.Subperm failures →
    Pauses s settings db past earlier .errors → Burst earlier burst →
      (∃ newest ∈ burst, Recent now newest) → Pauses s settings db now failures .errors

/-- The breaker is open exactly while a burst cools down, and stays open so long, if and only if no
burst straddles the start of the cooldown with no other burst after it. -/
theorem breaker_open_iff {s : ClassificationService} {settings : Settings}
    (hadapter : s.adapter = true) (henabled : settings.classificationEnabled = true)
    (db : Database) (now : Time) (failures : List Time) :
    ((Pauses s settings db now failures .errors ↔ BurstCooling now failures) ∧
      StaysOpen s settings db now failures) ↔ Unsplit now failures := by
  have hopen : Pauses s settings db now failures .errors ↔ Tripped now failures :=
    pauses_errors_iff hadapter henabled
  rw [hopen, burstCooling_iff, tripped_iff]
  constructor
  · rintro ⟨hiff, -⟩ burst hburst hyoung -
    exact hiff.mpr ⟨burst, hburst, hyoung⟩
  · intro hunsplit
    have hcooling : (∃ burst, Burst failures burst ∧ ∃ t ∈ burst, Recent now t) →
        ∃ burst, Burst failures burst ∧ ∀ t ∈ burst, Recent now t := by
      rintro ⟨burst, hburst, hyoung⟩
      by_cases hold : ∃ t ∈ burst, ¬ Recent now t
      · exact hunsplit burst hburst hyoung hold
      · push Not at hold
        exact ⟨burst, hburst, hold⟩
    refine ⟨⟨?_, hcooling⟩, ?_⟩
    · rintro ⟨burst, hburst, hall⟩
      obtain ⟨newest, hmem, -⟩ := exists_newest hburst.ne_nil
      exact ⟨burst, hburst, newest, hmem, hall newest hmem⟩
    · intro past earlier burst _ hsub _ hburst hyoung
      rw [hopen, tripped_iff]
      exact hcooling ⟨burst, ⟨hburst.counted.trans hsub, hburst.length, hburst.within⟩, hyoung⟩

/-! ## Samples -/

/-- A service with an adapter. -/
def configuredService : ClassificationService :=
  ⟨none, true, id, id, id, fun _ _ _ => "", id⟩

/-- Settings that enable classification without a cap. -/
def uncapped : Settings := ⟨true, none, false⟩

/-- Five failures within eight minutes, the first of them five minutes ahead of the others. -/
def sampleFailures : List Time := [3600000, 3900000, 3960000, 4020000, 4080000]

/-- Thirty minutes after the first failure the breaker closes, twenty-two minutes after the newest
one. -/
theorem breaker_closes_early :
    ¬ ((Pauses configuredService uncapped Database.empty 5400001 sampleFailures .errors ↔
        BurstCooling 5400001 sampleFailures) ∧
      StaysOpen configuredService uncapped Database.empty 5400001 sampleFailures) := by
  rintro ⟨hiff, -⟩
  have hclosed : ¬ Tripped 5400001 sampleFailures := by
    unfold Tripped
    decide +kernel
  have hburst : Burst sampleFailures sampleFailures :=
    ⟨List.Subperm.refl _, rfl, by unfold Within; decide⟩
  have hcooling : BurstCooling 5400001 sampleFailures :=
    burstCooling_iff.mpr ⟨sampleFailures, hburst, 4080000, by decide, by unfold Recent; decide⟩
  exact hclosed ((pauses_errors_iff rfl rfl).mp (hiff.mpr hcooling))

/-- One minute after the newest failure the breaker is open as it should be. -/
theorem breaker_open_sample :
    (Pauses configuredService uncapped Database.empty 4140000 sampleFailures .errors ↔
        BurstCooling 4140000 sampleFailures) ∧
      StaysOpen configuredService uncapped Database.empty 4140000 sampleFailures := by
  refine (breaker_open_iff rfl rfl Database.empty 4140000 sampleFailures).mpr ?_
  rintro burst hburst - ⟨t, ht, hold⟩
  have hrecent : ∀ t ∈ sampleFailures, Recent 4140000 t := by
    unfold Recent
    decide
  exact absurd (hrecent t (hburst.counted.subset ht)) hold

end MailHub.Classification
