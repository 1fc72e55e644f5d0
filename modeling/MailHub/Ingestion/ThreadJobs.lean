import MailHub.Errors
import MailHub.Interleaving.Transaction
import MailHub.Relational.Like
import MailHub.Text

/-!
# Durable thread-reconciliation jobs

A message's parent link depends on its own reference headers and on the set of rows that hold each
referenced identifier. Every transaction that imports, reparses, merges or removes a row marks the
affected rows inside that same transaction; a marked row is the job.
-/

namespace MailHub

open Relational Interleaving

/-- What one transaction changed about an account's identifiers. -/
structure ThreadJobMarking where
  /-- Rows whose own parent link must be recomputed. -/
  messageIds : List Uuid
  /-- Header identifiers whose holder set changed; absent ones are ignored. -/
  identifiers : List (Option String)

/-- The identifiers of a marking that are present and not empty. -/
def ThreadJobMarking.present (marking : ThreadJobMarking) : List String :=
  (marking.identifiers.filterMap id).filter (· ≠ "")

/-- Whether one raw reference text holds any changed identifier. -/
def rawContainsIdentifier (identifiers : List String) (raw : String) : Bool :=
  identifiers.any fun identifier =>
    like ('%' :: (escapeLikeWildcards identifier.toList ++ ['%'])) raw.toList

/-- Whether the raw reference texts of a row hold any changed identifier. -/
def referencesIdentifier (identifiers : List String) (m : Message) : Bool :=
  m.inReplyTo.any (· ∈ identifiers) || m.inReplyTo.any (rawContainsIdentifier identifiers) ||
    m.referenceIds.any (· ∈ identifiers) ||
    m.referenceIds.any (rawContainsIdentifier identifiers)

/-- Rows of the message table that a condition selects become thread jobs. -/
def markDirty (p : Message → Bool) (db : Database) : Database :=
  { db with
    messages := db.messages.update p (fun m => { m with threadDirty := true }) fun _ => rfl }

/-- Mark thread-reconciliation jobs for one account. -/
def markThreadJobsDirty (accountId : Uuid) (marking : ThreadJobMarking) : Tx Unit := do
  if marking.messageIds ≠ [] then
    modify (markDirty fun m => m.accountId == accountId && m.id ∈ marking.messageIds)
  if marking.present ≠ [] then
    modify (markDirty fun m => m.accountId == accountId && referencesIdentifier marking.present m)

/-- Whether a marking makes a row a job. -/
def ThreadJobMarking.marks (marking : ThreadJobMarking) (accountId : Uuid) (m : Message) : Bool :=
  m.accountId == accountId &&
    (m.id ∈ marking.messageIds || referencesIdentifier marking.present m)

/-- A text that contains a changed identifier is found. -/
theorem rawContainsIdentifier_iff {identifiers : List String} {raw : String} :
    rawContainsIdentifier identifiers raw = true ↔
      ∃ identifier ∈ identifiers, identifier.toList <:+: raw.toList := by
  simp only [rawContainsIdentifier, List.any_eq_true, like_contains]

/-- A row is found exactly when a changed identifier stands in one of its raw reference texts. -/
theorem referencesIdentifier_iff {identifiers : List String} {m : Message} :
    referencesIdentifier identifiers m = true ↔
      ∃ raw, (m.inReplyTo = some raw ∨ raw ∈ m.referenceIds) ∧
        ∃ identifier ∈ identifiers, identifier.toList <:+: raw.toList := by
  -- The exact lookups find nothing that containment misses.
  have hexact : ∀ raw ∈ identifiers,
      ∃ identifier ∈ identifiers, identifier.toList <:+: raw.toList := by
    intro raw hraw
    exact ⟨raw, hraw, List.infix_rfl⟩
  simp only [referencesIdentifier, Bool.or_eq_true, Option.any_eq_true, List.any_eq_true,
    decide_eq_true_eq, rawContainsIdentifier_iff]
  constructor
  · rintro (((⟨raw, hraw, hmem⟩ | ⟨raw, hraw, h⟩) | ⟨raw, hraw, hmem⟩) | ⟨raw, hraw, h⟩)
    · exact ⟨raw, .inl hraw, hexact raw hmem⟩
    · exact ⟨raw, .inl hraw, h⟩
    · exact ⟨raw, .inr hraw, hexact raw hmem⟩
    · exact ⟨raw, .inr hraw, h⟩
  · rintro ⟨raw, hraw | hraw, h⟩
    · exact .inl (.inl (.inr ⟨raw, hraw, h⟩))
    · exact .inr ⟨raw, hraw, h⟩

/-- No identifier changed: no reference can hold one. -/
theorem referencesIdentifier_nil (m : Message) : referencesIdentifier [] m = false := by
  cases h : m.inReplyTo <;> simp [referencesIdentifier, rawContainsIdentifier, h]

/-- The rows after a marking. -/
theorem mem_markDirty {p : Message → Bool} {db : Database} {m : Message} :
    m ∈ (markDirty p db).messages ↔
      ∃ m₀ ∈ db.messages, (if p m₀ then { m₀ with threadDirty := true } else m₀) = m := by
  unfold markDirty
  dsimp only
  rw [Table.mem_update]

/-- A condition that selects no row makes no jobs. -/
theorem markDirty_eq_self {p : Message → Bool} {db : Database}
    (h : ∀ m ∈ db.messages, p m = false) : markDirty p db = db := by
  unfold markDirty
  rw [Table.update_eq_self h]

/-- Two markings are one, as long as no condition looks at the mark. -/
theorem markDirty_markDirty {p q : Message → Bool} {db : Database}
    (hq : ∀ m : Message, q { m with threadDirty := true } = q m) :
    markDirty q (markDirty p db) = markDirty (fun m => p m || q m) db := by
  unfold markDirty
  dsimp only
  rw [Table.update_update hq fun _ => rfl]

/-- The marking is two updates, and what it leaves is decided row by row. -/
theorem markThreadJobsDirty_run (accountId : Uuid) (marking : ThreadJobMarking) (db : Database) :
    (markThreadJobsDirty accountId marking).run db =
      .ok ((), markDirty (marking.marks accountId) db) := by
  have hidentifiers : ∀ db₁ : Database, (if marking.present ≠ [] then
        modify (markDirty fun m =>
          m.accountId == accountId && referencesIdentifier marking.present m)
      else pure () : Tx Unit).run db₁ =
      .ok ((), markDirty (fun m =>
        m.accountId == accountId && referencesIdentifier marking.present m) db₁) := by
    intro db₁
    by_cases hnil : marking.present = []
    · rw [if_neg (not_not.mpr hnil), markDirty_eq_self]
      · rfl
      · intro m _
        rw [hnil, referencesIdentifier_nil, Bool.and_false]
    · rw [if_pos hnil]
      rfl
  have htwice : markDirty (fun m =>
        m.accountId == accountId && referencesIdentifier marking.present m)
      (markDirty (fun m => m.accountId == accountId && m.id ∈ marking.messageIds) db) =
      markDirty (marking.marks accountId) db := by
    rw [markDirty_markDirty fun _ => rfl]
    congr 1
    funext m
    unfold ThreadJobMarking.marks
    rw [Bool.and_or_distrib_left]
  unfold markThreadJobsDirty
  dsimp only
  -- A guard leaves out an update that would select no row.
  by_cases hids : marking.messageIds = []
  · have hnone : markDirty (fun m => m.accountId == accountId && m.id ∈ marking.messageIds) db =
        db := markDirty_eq_self fun m _ => by simp [hids]
    rw [hnone] at htwice
    rw [if_neg (not_not.mpr hids), hidentifiers, htwice]
  · rw [if_pos hids, ← htwice]
    exact hidentifiers _

/-- Marking jobs is one step: what holds of an update of the job flags holds of it. -/
theorem markThreadJobsDirty_steps {R : Database → Database → Prop} {accountId : Uuid}
    {marking : ThreadJobMarking} {db : Database}
    (h : R db (markDirty (marking.marks accountId) db)) :
    Steps R db (markThreadJobsDirty accountId marking) := by
  refine ⟨fun u db' hrun => ?_⟩
  rw [markThreadJobsDirty_run] at hrun
  cases hrun
  exact h

end MailHub
