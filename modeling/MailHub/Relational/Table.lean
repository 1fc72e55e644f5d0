import Mathlib.Data.List.Basic
import Mathlib.Data.List.Nodup

/-!
# Tables with a primary key

A table is a list of rows whose keys are pairwise distinct; the distinctness travels with the
table, so an insertion has to check it and an update has to keep the keys. Reading by key turns a
table into a partial function, and every operation is described by what it does to that function.
-/

namespace Relational

/-! ## Rows and tables -/

/-- Rows that carry a primary key. -/
class Keyed (ρ : Type) (κ : outParam Type) where
  /-- The primary key of a row. -/
  key : ρ → κ

variable {ρ κ : Type} [Keyed ρ κ]

open Keyed (key)

/-- A list of rows with pairwise distinct keys. -/
structure Table (ρ : Type) {κ : Type} [Keyed ρ κ] where
  /-- The rows, in insertion order. -/
  rows : List ρ
  /-- No two rows share a key. -/
  nodup : (rows.map Keyed.key).Nodup

namespace Table

instance : Membership ρ (Table ρ) where
  mem t r := r ∈ t.rows

/-- The table without rows. -/
def empty : Table ρ := ⟨[], List.nodup_nil⟩

/-- The rows that satisfy a condition, in insertion order. -/
def select (t : Table ρ) (p : ρ → Bool) : List ρ := t.rows.filter p

/-- Rewrite the rows that satisfy a condition; the rewriting keeps every key. -/
def update (t : Table ρ) (p : ρ → Bool) (f : ρ → ρ) (hf : ∀ r, key (f r) = key r) :
    Table ρ where
  rows := t.rows.map fun r => if p r then f r else r
  nodup := by
    have hkeys : (t.rows.map fun r => if p r then f r else r).map key = t.rows.map key := by
      simp only [List.map_map]
      refine List.map_congr_left fun r _ => ?_
      simp only [Function.comp_apply]
      split
      · exact hf r
      · rfl
    rw [hkeys]
    exact t.nodup

/-- Drop the rows that satisfy a condition. -/
def delete (t : Table ρ) (p : ρ → Bool) : Table ρ where
  rows := t.rows.filter fun r => !p r
  nodup := t.nodup.sublist (List.filter_sublist.map key)

variable [DecidableEq κ]

/-- The row with a given key. -/
def find? (t : Table ρ) (k : κ) : Option ρ := t.rows.find? fun r => key r = k

/-- Add a row at the end, unless its key is taken. -/
def insert? (t : Table ρ) (r : ρ) : Option (Table ρ) :=
  if h : key r ∈ t.rows.map key then none
  else some
    { rows := t.rows ++ [r]
      nodup := by
        rw [List.map_append, List.map_singleton, List.nodup_append]
        exact ⟨t.nodup, List.nodup_singleton _, fun a ha b hb => by
          obtain rfl := List.mem_singleton.mp hb
          exact fun he => h (he ▸ ha)⟩ }

/-- Write a row under its key, in place of the row that had the key. -/
def put (t : Table ρ) (r : ρ) : Table ρ where
  rows := (t.rows.filter fun x => key x ≠ key r) ++ [r]
  nodup := by
    rw [List.map_append, List.map_singleton, List.nodup_append]
    refine ⟨t.nodup.sublist (List.filter_sublist.map key), List.nodup_singleton _,
      fun a ha b hb => ?_⟩
    obtain ⟨x, hx, rfl⟩ := List.mem_map.mp ha
    obtain rfl := List.mem_singleton.mp hb
    simpa using (List.mem_filter.mp hx).2

/-! ## Reading by key -/

variable {t t' : Table ρ} {r r' : ρ} {k : κ} {p : ρ → Bool} {f : ρ → ρ}

omit [DecidableEq κ] in
theorem mem_iff : r ∈ t ↔ r ∈ t.rows := Iff.rfl

omit [DecidableEq κ] in
/-- Two rows of one table with one key are the same row. -/
theorem eq_of_key_eq (h : r ∈ t) (h' : r' ∈ t) (hk : key r = key r') : r = r' :=
  List.inj_on_of_nodup_map t.nodup h h' hk

/-- Reading by key finds the row with that key. -/
theorem find?_eq_some_iff : t.find? k = some r ↔ r ∈ t ∧ key r = k := by
  constructor
  · intro h
    exact ⟨List.mem_of_find?_eq_some h, by simpa using List.find?_some h⟩
  · rintro ⟨hmem, rfl⟩
    cases hfind : t.find? (key r) with
    | none => simpa using List.find?_eq_none.mp hfind r hmem
    | some r₁ =>
        have hkey : key r₁ = key r := by simpa using List.find?_some hfind
        rw [eq_of_key_eq (List.mem_of_find?_eq_some hfind) hmem hkey]

/-- A row is in the table exactly when reading by its key finds it. -/
theorem mem_iff_find? : r ∈ t ↔ t.find? (key r) = some r := by
  rw [find?_eq_some_iff, and_iff_left rfl]

/-- Reading by key finds a row of the table. -/
theorem mem_of_find? (h : t.find? k = some r) : r ∈ t := (find?_eq_some_iff.mp h).1

/-- Reading by key finds a row with that key. -/
theorem key_of_find? (h : t.find? k = some r) : key r = k := (find?_eq_some_iff.mp h).2

/-- Reading by key finds nothing exactly when no row has the key. -/
theorem find?_eq_none_iff : t.find? k = none ↔ ∀ r ∈ t, key r ≠ k := by
  unfold find?
  rw [List.find?_eq_none]
  exact forall₂_congr fun r _ => by simp

omit [DecidableEq κ] in
@[simp] theorem mem_select : r ∈ t.select p ↔ r ∈ t ∧ p r := List.mem_filter

/-! ## What the operations do -/

@[simp] theorem find?_empty : (empty : Table ρ).find? k = none := rfl

omit [DecidableEq κ] in
@[simp] theorem not_mem_empty : ¬ r ∈ (empty : Table ρ) := List.not_mem_nil

/-- After an update each key reads the rewritten row. -/
@[simp] theorem find?_update (hf : ∀ r, key (f r) = key r) :
    (t.update p f hf).find? k = (t.find? k).map fun r => if p r then f r else r := by
  simp only [find?, update, List.find?_map]
  congr 2
  funext r
  simp only [Function.comp_apply]
  split
  · rw [hf]
  · rfl

omit [DecidableEq κ] in
theorem mem_update {hf : ∀ r, key (f r) = key r} :
    r ∈ t.update p f hf ↔ ∃ r₀ ∈ t, (if p r₀ then f r₀ else r₀) = r := List.mem_map

omit [DecidableEq κ] in
/-- An update depends on its condition on the rows only. -/
theorem update_congr {q : ρ → Bool} {hf : ∀ r, key (f r) = key r} (h : ∀ r ∈ t, p r = q r) :
    t.update p f hf = t.update q f hf := by
  have hrows : (t.rows.map fun r => if p r then f r else r) =
      t.rows.map fun r => if q r then f r else r := by
    refine List.map_congr_left fun r hr => ?_
    rw [h r hr]
  unfold update
  congr 1

omit [DecidableEq κ] in
/-- An update that selects no row changes nothing. -/
theorem update_eq_self {hf : ∀ r, key (f r) = key r} (h : ∀ r ∈ t, p r = false) :
    t.update p f hf = t := by
  have hrows : (t.rows.map fun r => if p r then f r else r) = t.rows := by
    refine (List.map_congr_left fun r hr => ?_).trans (List.map_id t.rows)
    rw [h r hr]
    rfl
  unfold update
  congr 1

omit [DecidableEq κ] in
/-- Two updates of one kind are one, when the second condition does not see the first update. -/
theorem update_update {q : ρ → Bool} {hf : ∀ r, key (f r) = key r} (hq : ∀ r, q (f r) = q r)
    (hff : ∀ r, f (f r) = f r) :
    (t.update p f hf).update q f hf = t.update (fun r => p r || q r) f hf := by
  have hrow : ∀ r, (if q (if p r then f r else r) then f (if p r then f r else r)
      else if p r then f r else r) = if p r || q r then f r else r := by
    intro r
    by_cases hp : p r
    · simp only [hp, if_true, hq, hff, Bool.true_or, ite_self]
    · simp only [hp, if_false, Bool.false_or, Bool.false_eq_true]
  unfold update
  simp only [List.map_map, Function.comp_def, hrow]

omit [DecidableEq κ] in
theorem mem_delete : r ∈ t.delete p ↔ r ∈ t ∧ p r = false := by
  simp only [mem_iff, delete, List.mem_filter, Bool.not_eq_true']

/-- After a deletion each key reads its row unless that row was deleted. -/
@[simp] theorem find?_delete : (t.delete p).find? k = (t.find? k).filter fun r => !p r := by
  ext r
  simp only [find?_eq_some_iff, mem_delete, Option.filter_eq_some_iff, Bool.not_eq_true']
  tauto

/-- An insertion succeeds exactly when the key is free. -/
theorem insert?_isSome : (t.insert? r).isSome ↔ t.find? (key r) = none := by
  unfold insert?
  rw [find?_eq_none_iff]
  split
  next h =>
    obtain ⟨r₁, h₁, hk⟩ := List.mem_map.mp h
    simpa using ⟨r₁, h₁, hk⟩
  next h => simpa [mem_iff] using h

/-- An insertion adds its row at the end. -/
theorem rows_of_insert? (h : t.insert? r = some t') : t'.rows = t.rows ++ [r] := by
  unfold insert? at h
  split at h
  · cases h
  · obtain rfl := Option.some.inj h
    rfl

/-- The rows after an insertion. -/
theorem mem_insert? (h : t.insert? r = some t') : r' ∈ t' ↔ r' ∈ t ∨ r' = r := by
  unfold insert? at h
  split at h
  · cases h
  · obtain rfl := Option.some.inj h
    simp [mem_iff]

/-- An inserted row takes a key that was free. -/
theorem find?_of_insert? (h : t.insert? r = some t') : t.find? (key r) = none :=
  insert?_isSome.mp (by simp [h])

/-- After an insertion the new key reads the new row and every other key reads as before. -/
theorem find?_insert? (h : t.insert? r = some t') :
    t'.find? k = if key r = k then some r else t.find? k := by
  have hnone := find?_eq_none_iff.mp (find?_of_insert? h)
  ext r'
  split
  next hk =>
    subst hk
    simp only [find?_eq_some_iff, mem_insert? h, Option.some.injEq]
    constructor
    · rintro ⟨hmem | rfl, hkey⟩
      · exact absurd hkey (hnone _ hmem)
      · rfl
    · rintro rfl
      exact ⟨.inr rfl, rfl⟩
  next hk =>
    simp only [find?_eq_some_iff, mem_insert? h]
    constructor
    · rintro ⟨hmem | rfl, hkey⟩
      · exact ⟨hmem, hkey⟩
      · exact absurd hkey hk
    · rintro ⟨hmem, hkey⟩
      exact ⟨.inl hmem, hkey⟩

/-- A row read after an insertion was there before, or its key was free. -/
theorem find?_of_insert?_eq_some (h : t.insert? r = some t') (hr' : t'.find? k = some r') :
    t.find? k = none ∨ t.find? k = some r' := by
  rw [find?_insert? h] at hr'
  split at hr'
  next hk =>
    subst hk
    exact .inl (find?_of_insert? h)
  next => exact .inr hr'

/-- An insertion leaves the rows that are there. -/
theorem find?_insert?_of_eq_some (h : t.insert? r = some t') (hr' : t.find? k = some r') :
    t'.find? k = some r' := by
  rw [find?_insert? h]
  split
  next hk =>
    subst hk
    rw [find?_of_insert? h] at hr'
    cases hr'
  next => exact hr'

/-- The rows after a write. -/
theorem mem_put : r' ∈ t.put r ↔ (r' ∈ t ∧ key r' ≠ key r) ∨ r' = r := by
  simp [mem_iff, put]

/-- After a write its key reads the new row and every other key reads as before. -/
theorem find?_put : (t.put r).find? k = if key r = k then some r else t.find? k := by
  ext r'
  split
  next hk =>
    subst hk
    simp only [find?_eq_some_iff, mem_put, Option.some.injEq]
    constructor
    · rintro ⟨⟨-, hne⟩ | rfl, hkey⟩
      · exact absurd hkey hne
      · rfl
    · rintro rfl
      exact ⟨.inr rfl, rfl⟩
  next hk =>
    simp only [find?_eq_some_iff, mem_put]
    constructor
    · rintro ⟨⟨hmem, -⟩ | rfl, hkey⟩
      · exact ⟨hmem, hkey⟩
      · exact absurd hkey hk
    · rintro ⟨hmem, hkey⟩
      exact ⟨.inl ⟨hmem, fun he => hk (he.symm.trans hkey)⟩, hkey⟩

omit [DecidableEq κ] in
/-- A deletion drops its rows from every selection. -/
theorem select_delete {q : ρ → Bool} :
    (t.delete q).select p = (t.select p).filter fun r => !q r := by
  simp only [select, delete, List.filter_filter, Bool.and_comm]

/-- An insertion adds its row at the end of the selections that it belongs to. -/
theorem select_insert? (h : t.insert? r = some t') :
    t'.select p = t.select p ++ if p r then [r] else [] := by
  unfold insert? at h
  split at h
  · cases h
  · obtain rfl := Option.some.inj h
    simp only [select, List.filter_append, List.filter_cons, List.filter_nil]

end Table

end Relational
