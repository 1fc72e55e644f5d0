import Mathlib.Data.List.Basic
import Mathlib.Data.Set.Basic
import Mathlib.Data.Nat.Notation
import Mathlib.Tactic.Common

/-!
# Numbered collections

A collection gives its members ascending numbers. What arrives gets a number that was never given
before, and what is gone never comes back under its number. Whoever copies the collection can
therefore trust an old listing: it may name what has left by now, but it misses nothing below the
number that was to be given next when the listing was made.

A collection can be replaced by another one at the same place. Every collection of a place has a
generation of its own, so that what was learnt about a generation either still describes the
current collection or describes none.
-/

namespace Ordering

/-- A collection with the number that it gives next. -/
structure Numbered where
  /-- No number from here on has been given. -/
  next : ℕ
  /-- The numbers of the members. -/
  present : Set ℕ
  /-- Members carry numbers that have been given. -/
  lt_next : ∀ n ∈ present, n < next

namespace Numbered

variable {a b c : Numbered} {copies listed : Set ℕ} {low mid high n : ℕ}

/-- `b` is what `a` has become: members arrived above all given numbers and left for good. -/
structure Later (a b : Numbered) : Prop where
  /-- Numbers are given in ascending order. -/
  next_le : a.next ≤ b.next
  /-- A member with a number that had been given was there before. -/
  present_of_lt : ∀ n ∈ b.present, n < a.next → n ∈ a.present

theorem Later.refl (a : Numbered) : Later a a := ⟨Nat.le_refl _, fun _ hn _ => hn⟩

theorem Later.trans (hab : Later a b) (hbc : Later b c) : Later a c where
  next_le := Nat.le_trans hab.next_le hbc.next_le
  present_of_lt n hn hlt :=
    hab.present_of_lt n (hbc.present_of_lt n hn (Nat.lt_of_lt_of_le hlt hab.next_le)) hlt

/-- What had a number and is gone stays gone. -/
theorem Later.absent (h : Later a b) (hlt : n < a.next) (hn : n ∉ a.present) : n ∉ b.present :=
  fun hb => hn (h.present_of_lt n hb hlt)

/-- Every member with a number from `low` to `high` is among the copies. -/
def Covers (a : Numbered) (copies : Set ℕ) (low high : ℕ) : Prop :=
  ∀ n ∈ a.present, low ≤ n → n ≤ high → n ∈ copies

/-- Nothing is asked of an empty range. -/
theorem covers_of_lt (h : high < low) : a.Covers copies low high := by
  intro n _ hlow hhigh
  omega

/-- Above all given numbers there is nothing to copy. -/
theorem covers_above (h : a.next ≤ low) : a.Covers copies low high := by
  intro n hn hlow _
  have hlt := a.lt_next n hn
  omega

theorem Covers.mono (h : a.Covers copies low high) (hsub : copies ⊆ listed) :
    a.Covers listed low high := fun n hn hlow hhigh => hsub (h n hn hlow hhigh)

/-- A smaller range is covered as well. -/
theorem Covers.shrink {low' high' : ℕ} (h : a.Covers copies low high) (hlow : low ≤ low')
    (hhigh : high' ≤ high) : a.Covers copies low' high' :=
  fun n hn hl hh => h n hn (Nat.le_trans hlow hl) (Nat.le_trans hh hhigh)

/-- A covered range of given numbers stays covered. -/
theorem Covers.later (h : a.Covers copies low high) (hlater : Later a b) (hhigh : high < a.next) :
    b.Covers copies low high := by
  intro n hn hlow hle
  exact h n (hlater.present_of_lt n hn (Nat.lt_of_le_of_lt hle hhigh)) hlow hle

/-- Two ranges that leave no gap are covered as one. -/
theorem Covers.join (hbelow : a.Covers copies low mid) (habove : a.Covers copies n high)
    (hgap : n ≤ mid + 1) : a.Covers copies low high := by
  intro k hk hlow hhigh
  by_cases hmid : k ≤ mid
  · exact hbelow k hk hlow hmid
  · exact habove k hk (by omega) hhigh

/-- Copies of all that a listing names, as far as it is still there, cover what it covers. -/
theorem Covers.copied (h : a.Covers listed low high)
    (hcopied : ∀ n ∈ a.present, n ∈ listed → n ∈ copies) : a.Covers copies low high :=
  fun n hn hlow hhigh => hcopied n hn (h n hn hlow hhigh)

end Numbered

/-! ## Generations -/

/-- A place at which collections follow each other, each under a generation of its own. -/
structure Succession (γ : Type*) where
  /-- The generations so far, the oldest first. -/
  past : List γ
  /-- The collection that is there now, with its generation. -/
  current : Option (γ × Numbered)

namespace Succession

variable {γ : Type*} {s t u : Succession γ} {g h k : γ} {P Q : Numbered → Prop}

/-- `t` is what has become of the place `s`: its collection developed, or one of a generation that
had not been there before replaced it. -/
structure Later (s t : Succession γ) : Prop where
  /-- Generations are added at the end. -/
  past_extends : s.past <+: t.past
  /-- Where the collection comes from. -/
  current : ∀ g b, t.current = some (g, b) →
    (∃ a, s.current = some (g, a) ∧ Numbered.Later a b) ∨ g ∉ s.past

theorem Later.refl (s : Succession γ) : Later s s :=
  ⟨List.prefix_rfl, fun _ b h => .inl ⟨b, h, .refl b⟩⟩

theorem Later.trans (hst : Later s t) (htu : Later t u) : Later s u := by
  refine ⟨hst.past_extends.trans htu.past_extends, fun g c hc => ?_⟩
  rcases htu.current g c hc with ⟨b, hb, hbc⟩ | hfresh
  · rcases hst.current g b hb with ⟨a, ha, hab⟩ | hfresh
    · exact .inl ⟨a, ha, hab.trans hbc⟩
    · exact .inr hfresh
  · exact .inr fun hg => hfresh (hst.past_extends.subset hg)

/-- The generation has been there, and if it is there now its collection satisfies `P`. -/
structure Within (s : Succession γ) (g : γ) (P : Numbered → Prop) : Prop where
  /-- The generation is not a new one. -/
  mem : g ∈ s.past
  /-- What is known of its collection. -/
  holds : ∀ a, s.current = some (g, a) → P a

/-- What is known of a generation and survives its development is known for good. -/
theorem Within.later (hs : s.Within g P) (hst : Later s t)
    (hP : ∀ a b, Numbered.Later a b → P a → P b) : t.Within g P := by
  refine ⟨hst.past_extends.subset hs.mem, fun b hb => ?_⟩
  rcases hst.current g b hb with ⟨a, ha, hab⟩ | hfresh
  · exact hP a b hab (hs.holds a ha)
  · exact absurd hs.mem hfresh

theorem Within.mono (hs : s.Within g P) (hPQ : ∀ a, P a → Q a) : s.Within g Q :=
  ⟨hs.mem, fun a ha => hPQ a (hs.holds a ha)⟩

theorem Within.and (hs : s.Within g P) (hs' : s.Within g Q) : s.Within g fun a => P a ∧ Q a :=
  ⟨hs.mem, fun a ha => ⟨hs.holds a ha, hs'.holds a ha⟩⟩

variable [DecidableEq γ]

/-- The generation `g` had been there before `h` came. -/
structure Older (s : Succession γ) (g h : γ) : Prop where
  mem : h ∈ s.past
  lt : s.past.idxOf g < s.past.idxOf h

theorem Older.left_mem (hgh : s.Older g h) : g ∈ s.past :=
  List.idxOf_lt_length_iff.mp (Nat.lt_trans hgh.lt (List.idxOf_lt_length_iff.mpr hgh.mem))

theorem Older.ne (hgh : s.Older g h) : g ≠ h := by
  rintro rfl
  exact Nat.lt_irrefl _ hgh.lt

theorem Older.trans (hgh : s.Older g h) (hhk : s.Older h k) : s.Older g k :=
  ⟨hhk.mem, Nat.lt_trans hgh.lt hhk.lt⟩

/-- The order of the generations never changes. -/
theorem Older.later (hgh : s.Older g h) (hst : Later s t) : t.Older g h := by
  obtain ⟨added, hadded⟩ := hst.past_extends
  refine ⟨hst.past_extends.subset hgh.mem, ?_⟩
  rw [← hadded, List.idxOf_append_of_mem hgh.left_mem, List.idxOf_append_of_mem hgh.mem]
  exact hgh.lt

/-- What was there before is older than what came last. -/
theorem older_of_getLast? (hg : g ∈ s.past) (hh : s.past.getLast? = some h)
    (hnodup : s.past.Nodup) (hgh : g ≠ h) : s.Older g h := by
  obtain ⟨before, hbefore⟩ := List.getLast?_eq_some_iff.mp hh
  refine ⟨List.mem_of_getLast? hh, ?_⟩
  rw [hbefore] at hg hnodup ⊢
  have hg' : g ∈ before := by simpa [hgh] using hg
  have hh' : h ∉ before := fun hb => (List.nodup_append.mp hnodup).2.2 h hb h (by simp) rfl
  rw [List.idxOf_append_of_mem hg', List.idxOf_append_of_notMem hh']
  have hlt := List.idxOf_lt_length_of_mem hg'
  omega

end Succession

end Ordering
