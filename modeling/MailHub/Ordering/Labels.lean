import MailHub.Ordering.Parents
import Mathlib.Data.List.Nodup
import Mathlib.Data.List.Perm.Subperm
import Mathlib.Tactic.Ring

/-!
# Labels that follow the parents

Every element carries a label or none, and some elements are marked: their labels may be out of
date. The labels follow the parents when every element carries the label of its parent unless
there is a mark at it or above it, and no two roots share a label. The main results say that then,
once no mark is left, two elements carry the same label exactly when they have the same root, and
which changes of parents and labels keep this.
-/

namespace Ordering

variable {α τ : Type} {parent parent' : α → Option α} {label label' : α → Option τ}
  {elements elements' marked marked' : α → Prop} {a b c r s x y : α} {n : ℕ} {t : τ}

/-- The chain of `a` comes to `b`. -/
def Leads (parent : α → Option α) (b a : α) : Prop := ∃ n, ancestor parent n a = some b

/-- The chain of `a` ends in `r`. -/
def RootOf (parent : α → Option α) (a r : α) : Prop := Leads parent r a ∧ parent r = none

theorem Leads.refl : Leads parent a a := ⟨0, rfl⟩

theorem Leads.of_parent (h : parent a = some b) : Leads parent b a :=
  ⟨1, by rw [ancestor_succ_of_eq_some h, ancestor_zero]⟩

theorem Leads.trans (h : Leads parent b a) (h' : Leads parent c b) : Leads parent c a := by
  obtain ⟨m, hm⟩ := h
  obtain ⟨n, hn⟩ := h'
  exact ⟨m + n, by rw [ancestor_add_of_eq_some hm, hn]⟩

/-- A chain goes on through the parent or is already there. -/
theorem leads_iff : Leads parent b a ↔ a = b ∨ ∃ p, parent a = some p ∧ Leads parent b p := by
  constructor
  · rintro ⟨n, hn⟩
    cases n with
    | zero => exact .inl (Option.some.inj hn)
    | succ n =>
        rw [ancestor_succ] at hn
        obtain ⟨p, hp, hn⟩ := Option.bind_eq_some_iff.mp hn
        exact .inr ⟨p, hp, n, hn⟩
  · rintro (rfl | ⟨p, hp, h⟩)
    · exact .refl
    · exact (Leads.of_parent hp).trans h

/-- A root leads nowhere else. -/
theorem Leads.eq_of_root (h : Leads parent b a) (hroot : parent a = none) : a = b := by
  rcases leads_iff.mp h with rfl | ⟨p, hp, -⟩
  · rfl
  · rw [hroot] at hp
    cases hp

/-- No chain without a cycle comes from the parent of an element back to the element. -/
theorem Acyclic.not_leads (h : Acyclic parent) (hp : parent a = some b) : ¬ Leads parent a b := by
  rintro ⟨n, hn⟩
  exact h a ⟨n, by rw [ancestor_succ_of_eq_some hp, hn]⟩

/-- Chains that avoid the one element with another parent stay. -/
theorem leads_congr (hsame : ∀ x, x ≠ r → parent x = parent' x) (h : Leads parent b a)
    (havoid : ¬ Leads parent r a) : Leads parent' b a := by
  obtain ⟨n, hn⟩ := h
  refine ⟨n, ?_⟩
  rw [ancestor_congr hsame fun k _ hk => havoid ⟨k, hk⟩, hn]

/-- The chains that come to the one element with another parent stay the same up to it. -/
theorem leads_self_congr (hsame : ∀ x, x ≠ r → parent x = parent' x) (h : Leads parent r a) :
    Leads parent' r a := by
  obtain ⟨n, hn⟩ := h
  obtain ⟨k, -, hk, hfirst⟩ := exists_first hn
  exact ⟨k, (ancestor_congr hsame hfirst).trans hk⟩

/-- Within a bound every chain ends in a root. -/
theorem exists_root (hbound : ∀ a, ancestor parent n a = none) (a : α) :
    ∃ k < n, ∃ r, ancestor parent k a = some r ∧ parent r = none := by
  classical
  have hex : ∃ m, ancestor parent m a = none := ⟨n, hbound a⟩
  have hfirst := Nat.find_spec hex
  have hle := Nat.find_min' hex (hbound a)
  cases hm : Nat.find hex with
  | zero =>
      rw [hm] at hfirst
      cases hfirst
  | succ k =>
      obtain ⟨r, hr⟩ := Option.ne_none_iff_exists'.mp (Nat.find_min hex (m := k) (by omega))
      rw [hm, ancestor_add_of_eq_some hr, ancestor_succ] at hfirst
      refine ⟨k, by omega, r, hr, ?_⟩
      cases hp : parent r with
      | none => rfl
      | some p =>
          rw [hp] at hfirst
          cases hfirst

/-- Chains within a bound have no cycle. -/
theorem acyclic_of_bound (hbound : ∀ a, ancestor parent n a = none) : Acyclic parent := by
  rintro a ⟨m, hm⟩
  -- a cycle is walked as often as one likes
  have haround : ∀ k, ancestor parent (k * (m + 1)) a = some a := by
    intro k
    induction k with
    | zero => rw [Nat.zero_mul, ancestor_zero]
    | succ k ih => rw [Nat.succ_mul, ancestor_add_of_eq_some ih, hm]
  have hlong : ancestor parent (n * (m + 1)) a = some a := haround n
  obtain ⟨k, hk⟩ : ∃ k, n * (m + 1) = n + k := ⟨n * m, by ring⟩
  rw [hk, ancestor_add, hbound a] at hlong
  cases hlong

/-- An element has one root. -/
theorem RootOf.unique (h : RootOf parent a r) (h' : RootOf parent a s) : r = s := by
  obtain ⟨⟨m, hm⟩, hr⟩ := h
  obtain ⟨⟨n, hn⟩, hs⟩ := h'
  rcases Nat.le_total m n with hle | hle
  · obtain ⟨k, rfl⟩ := Nat.exists_eq_add_of_le hle
    rw [ancestor_add_of_eq_some hm] at hn
    exact Leads.eq_of_root ⟨k, hn⟩ hr
  · obtain ⟨k, rfl⟩ := Nat.exists_eq_add_of_le hle
    rw [ancestor_add_of_eq_some hn] at hm
    exact (Leads.eq_of_root ⟨k, hm⟩ hs).symm

section

variable {β : Type} {parentOf : β → Option β} {d e : β} (Same : α → β → Prop)

/-- Corresponding elements with corresponding parents have corresponding chains. -/
theorem exists_ancestor_of_same (hparent : ∀ {a d b}, Same a d → parent a = some b →
      ∃ e, parentOf d = some e ∧ Same b e) (had : Same a d) (h : ancestor parent n a = some b) :
    ∃ e, ancestor parentOf n d = some e ∧ Same b e := by
  induction n generalizing a d with
  | zero =>
      obtain rfl := Option.some.inj h
      exact ⟨d, rfl, had⟩
  | succ n ih =>
      rw [ancestor_succ] at h
      obtain ⟨c, hc, h⟩ := Option.bind_eq_some_iff.mp h
      obtain ⟨f, hf, hcf⟩ := hparent had hc
      obtain ⟨e, he, hbe⟩ := ih hcf h
      exact ⟨e, by rw [ancestor_succ_of_eq_some hf, he], hbe⟩

/-- A chain without a cycle corresponds to one without a cycle. -/
theorem Acyclic.of_same (h : Acyclic parentOf) (hparent : ∀ {a d b}, Same a d → parent a = some b →
      ∃ e, parentOf d = some e ∧ Same b e) (htotal : ∀ a b, parent a = some b → ∃ d, Same a d)
    (hunique : ∀ {a d e}, Same a d → Same a e → d = e) : Acyclic parent := by
  rintro a ⟨n, hn⟩
  obtain ⟨b, hb, -⟩ := Option.bind_eq_some_iff.mp hn
  obtain ⟨d, had⟩ := htotal a b hb
  obtain ⟨e, he, hae⟩ := exists_ancestor_of_same Same hparent had hn
  exact h d ⟨n, hunique had hae ▸ he⟩

/-- Corresponding elements have corresponding roots. -/
theorem RootOf.of_same (h : RootOf parent a r) (had : Same a d)
    (hparent : ∀ {a d b}, Same a d → parent a = some b → ∃ e, parentOf d = some e ∧ Same b e)
    (hnone : ∀ {a d}, Same a d → parent a = none → parentOf d = none) :
    ∃ e, RootOf parentOf d e ∧ Same r e := by
  obtain ⟨⟨n, hn⟩, hroot⟩ := h
  obtain ⟨e, he, hre⟩ := exists_ancestor_of_same Same hparent had hn
  exact ⟨e, ⟨⟨n, he⟩, hnone hre hroot⟩, hre⟩

end

/-- More links leave the chains that there are. -/
theorem ancestor_mono (hparent : ∀ {a b}, parent a = some b → parent' a = some b)
    (h : ancestor parent n a = some b) : ancestor parent' n a = some b := by
  induction n generalizing a with
  | zero => exact h
  | succ n ih =>
      rw [ancestor_succ] at h
      obtain ⟨c, hc, h⟩ := Option.bind_eq_some_iff.mp h
      rw [ancestor_succ_of_eq_some (hparent hc), ih h]


/-- A chain without a cycle that stays in a list is shorter than the list. -/
theorem Acyclic.lt_length (h : Acyclic parent) {l : List α} (hn : ancestor parent n a = some b)
    (hmem : ∀ k x, ancestor parent k a = some x → x ∈ l) : n < l.length := by
  have hsome : ∀ k ≤ n, ∃ x, ancestor parent k a = some x := by
    intro k hk
    obtain ⟨j, rfl⟩ := Nat.exists_eq_add_of_le hk
    rw [ancestor_add] at hn
    obtain ⟨x, hx, -⟩ := Option.bind_eq_some_iff.mp hn
    exact ⟨x, hx⟩
  have hget : ∀ k ≤ n, ancestor parent k a = some ((ancestor parent k a).getD a) := by
    intro k hk
    obtain ⟨x, hx⟩ := hsome k hk
    rw [hx, Option.getD_some]
  have hnodup : ((List.range (n + 1)).map fun k => (ancestor parent k a).getD a).Nodup := by
    refine List.Nodup.map_on (fun i hi j hj hij => ?_) List.nodup_range
    have hi := hget i (by have := List.mem_range.mp hi; omega)
    have hj := hget j (by have := List.mem_range.mp hj; omega)
    rw [hij] at hi
    exact h.height_unique hi hj
  have hsub : ((List.range (n + 1)).map fun k => (ancestor parent k a).getD a) ⊆ l := by
    intro x hx
    obtain ⟨k, hk, rfl⟩ := List.mem_map.mp hx
    exact hmem k _ (hget k (by have := List.mem_range.mp hk; omega))
  have hle := (List.subperm_of_subset hnodup hsub).length_le
  rw [List.length_map, List.length_range] at hle
  omega

/-- Labels follow the parents, up to what is marked. -/
structure Follows (parent : α → Option α) (label : α → Option τ) (elements marked : α → Prop) :
    Prop where
  /-- A parent and its child are elements. -/
  closed : ∀ {a b}, parent a = some b → elements a ∧ elements b
  /-- An element carries the label of its parent unless there is a mark at it or above it. -/
  child : ∀ {a b}, parent a = some b → (∀ c, Leads parent c a → ¬ marked c) → label a = label b
  /-- No two roots share a label. -/
  roots : ∀ {r s t}, parent r = none → parent s = none → label r = some t → label s = some t → r = s
  /-- An element without a mark carries a label. -/
  labelled : ∀ {a}, elements a → ¬ marked a → label a ≠ none

namespace Follows

/-- Without a mark on its way an element carries the label of everything above it. -/
theorem label_eq (h : Follows parent label elements marked)
    (hfree : ∀ c, Leads parent c a → ¬ marked c) (hb : Leads parent b a) : label a = label b := by
  obtain ⟨n, hn⟩ := hb
  induction n generalizing a with
  | zero => rw [Option.some.inj hn]
  | succ n ih =>
      rw [ancestor_succ] at hn
      obtain ⟨p, hp, hn⟩ := Option.bind_eq_some_iff.mp hn
      rw [h.child hp hfree]
      exact ih (fun c hc => hfree c ((Leads.of_parent hp).trans hc)) hn

/-- Once no mark is left two elements carry the same label exactly when they have the same root. -/
theorem same_label_iff (h : Follows parent label elements marked) (hrest : ∀ c, ¬ marked c)
    (ha : elements a) (hr : RootOf parent a r) (hs : RootOf parent b s) :
    label a = label b ↔ r = s := by
  rw [h.label_eq (fun c _ => hrest c) hr.1, h.label_eq (fun c _ => hrest c) hs.1]
  constructor
  · intro hsame
    have hlabel : label r ≠ none := by
      rw [← h.label_eq (fun c _ => hrest c) hr.1]
      exact h.labelled ha (hrest a)
    obtain ⟨t, ht⟩ := Option.ne_none_iff_exists'.mp hlabel
    exact h.roots hr.2 hs.2 ht (hsame.symm.trans ht)
  · rintro rfl
    rfl

/-- More marks and new marked elements change nothing. -/
theorem mark (h : Follows parent label elements marked) (hmarked : ∀ a, marked a → marked' a)
    (hold : ∀ a, elements a → elements' a) (hnew : ∀ a, elements' a → ¬ marked' a → elements a) :
    Follows parent label elements' marked' where
  closed hp := ⟨hold _ (h.closed hp).1, hold _ (h.closed hp).2⟩
  child hp hfree := h.child hp fun c hc hm => hfree c hc (hmarked c hm)
  roots := h.roots
  labelled ha hm := h.labelled (hnew _ ha hm) fun hold => hm (hmarked _ hold)

/-- An element gets a parent, and it and everything below it get the label of its root. The root
gets a new label when it carried none, and so does an element that lost its parent. -/
theorem relabel (h : Follows parent label elements marked) (hacyclic : Acyclic parent')
    (hsame : ∀ x, x ≠ c → parent x = parent' x) (hc : elements c)
    (hparent : ∀ p, parent' c = some p → elements p) (hroot : RootOf parent' c r)
    (hbelow : ∀ x, Leads parent' c x → label' x = some t) (htop : label' r = some t)
    (hrest : ∀ x, ¬ Leads parent' c x → x ≠ r → label' x = label x)
    (hmarked : ∀ x, x ≠ c → ¬ marked' x → ¬ marked x)
    (hnew : (label r = some t ∧ (r = c → parent c = none)) ∨
      ((∀ x, label x ≠ some t) ∧ (r ≠ c → label r = none))) :
    Follows parent' label' elements marked' := by
  -- a root below `c` is `c` itself
  have hlowest : ∀ {x}, parent' x = none → Leads parent' c x → x = c ∧ r = c := by
    intro x hx hlead
    obtain rfl := hlead.eq_of_root hx
    exact ⟨rfl, (hroot.1.eq_of_root hx).symm⟩
  -- an element whose chain avoids `c` and has no mark carries the label that it carried
  have hkept : ∀ {x}, elements x → ¬ Leads parent' c x → (∀ y, Leads parent' y x → ¬ marked' y) →
      label' x = label x := by
    intro x hx havoid hfree
    by_cases hxr : x = r
    · subst hxr
      have hclean : ¬ marked x := hmarked x (fun hxc => havoid (hxc ▸ .refl)) (hfree x .refl)
      rcases hnew with ⟨hknown, -⟩ | ⟨-, hnone⟩
      · rw [htop, hknown]
      · exact absurd (hnone fun hxc => havoid (hxc ▸ .refl)) (h.labelled hx hclean)
    · exact hrest x havoid hxr
  refine ⟨?_, ?_, ?_, ?_⟩
  · intro a b hab
    by_cases hac : a = c
    · subst hac
      exact ⟨hc, hparent b hab⟩
    · exact h.closed ((hsame a hac).trans hab)
  · intro a b hab hfree
    by_cases hlead : Leads parent' c a
    · rw [hbelow a hlead]
      rcases leads_iff.mp hlead with rfl | ⟨p, hp, hpc⟩
      · -- the parent of `c` carries the label of the root
        have havoid := hacyclic.not_leads hab
        have hfree' : ∀ y, Leads parent' y b → ¬ marked' y := fun y hy =>
          hfree y ((Leads.of_parent hab).trans hy)
        have hrb : Leads parent' r b := by
          rcases leads_iff.mp hroot.1 with rfl | ⟨p, hp, hrp⟩
          · rw [hroot.2] at hab
            cases hab
          · obtain rfl : b = p := Option.some.inj (hab.symm.trans hp)
            exact hrp
        by_cases hbr : b = r
        · rw [hbr, htop]
        have hchain : ∀ y, Leads parent y b → Leads parent' y b ∧ y ≠ a := by
          intro y hy
          have havoid' : ¬ Leads parent a b := fun hback => havoid (leads_self_congr hsame hback)
          refine ⟨leads_congr hsame hy havoid', ?_⟩
          rintro rfl
          exact havoid' hy
        have hup : Leads parent r b := leads_congr (fun x hx => (hsame x hx).symm) hrb havoid
        have hlabels : label b = label r := h.label_eq
          (fun y hy => hmarked y (hchain y hy).2 (hfree' y (hchain y hy).1)) hup
        have hb := hkept (hparent b hab) havoid hfree'
        rw [hb, hlabels]
        rcases hnew with ⟨hknown, -⟩ | ⟨-, hnone⟩
        · exact hknown.symm
        · have hra : r ≠ a := by
            rintro rfl
            rw [hroot.2] at hab
            cases hab
          have hclean : ¬ marked b :=
            hmarked b (hchain b .refl).2 (hfree' b .refl)
          exact absurd (hlabels.trans (hnone hra)) (h.labelled (hparent b hab) hclean)
      · obtain rfl : b = p := Option.some.inj (hab.symm.trans hp)
        exact (hbelow b hpc).symm
    · have hac : a ≠ c := fun hac => hlead (hac ▸ .refl)
      have hab' : parent a = some b := (hsame a hac).trans hab
      have hblead : ¬ Leads parent' c b := fun hb => hlead ((Leads.of_parent hab).trans hb)
      have havoid : ¬ Leads parent c a := fun hback => hlead (leads_self_congr hsame hback)
      have hlabels : label a = label b := by
        refine h.child hab' fun y hy => ?_
        refine hmarked y ?_ (hfree y (leads_congr hsame hy havoid))
        rintro rfl
        exact havoid hy
      rw [hkept (h.closed hab').1 hlead hfree, hlabels]
      exact (hkept (h.closed hab').2 hblead fun y hy =>
        hfree y ((Leads.of_parent hab).trans hy)).symm
  · -- a root with the label of `r` is `r`
    have hunique : ∀ {x}, parent' x = none → label' x = some t → x = r := by
      intro x hx hlabel
      by_contra hxr
      have hlead : ¬ Leads parent' c x := fun hlead => by
        obtain ⟨rfl, hrc⟩ := hlowest hx hlead
        exact hxr hrc.symm
      rw [hrest x hlead hxr] at hlabel
      rcases hnew with ⟨hknown, hroots⟩ | ⟨hfresh, -⟩
      · have hold : parent r = none := by
          by_cases hrc : r = c
          · rw [hrc]
            exact hroots hrc
          · rw [hsame r hrc]
            exact hroot.2
        have hxc : x ≠ c := fun hxc => hlead (hxc ▸ .refl)
        exact hxr (h.roots ((hsame x hxc).trans hx) hold hlabel hknown)
      · exact hfresh x hlabel
    intro x y u hx hy hlx hly
    by_cases hxr : x = r
    · rw [hxr, htop] at hlx
      obtain rfl := Option.some.inj hlx
      rw [hxr, hunique hy hly]
    by_cases hyr : y = r
    · rw [hyr, htop] at hly
      obtain rfl := Option.some.inj hly
      rw [hyr, hunique hx hlx]
    have hlead : ∀ {z}, parent' z = none → z ≠ r → ¬ Leads parent' c z := by
      intro z hz hzr hlead
      obtain ⟨rfl, hrc⟩ := hlowest hz hlead
      exact hzr hrc.symm
    have hold : ∀ {z}, parent' z = none → z ≠ r → parent z = none := by
      intro z hz hzr
      have hzc : z ≠ c := fun hzc => hlead hz hzr (hzc ▸ .refl)
      exact (hsame z hzc).trans hz
    rw [hrest x (hlead hx hxr) hxr] at hlx
    rw [hrest y (hlead hy hyr) hyr] at hly
    exact h.roots (hold hx hxr) (hold hy hyr) hlx hly
  · intro x hx hclean
    by_cases hlead : Leads parent' c x
    · rw [hbelow x hlead]
      nofun
    by_cases hxr : x = r
    · rw [hxr, htop]
      nofun
    rw [hrest x hlead hxr]
    exact h.labelled hx (hmarked x (fun hxc => hlead (hxc ▸ .refl)) hclean)

/-- One element merges into another, which is marked together with the children that move to it.
When it was a child itself, no root may carry its label. -/
theorem contract [DecidableEq α] (h : Follows parent label elements marked) (hs : elements s)
    (hne : s ≠ r) (helements : ∀ x, elements' x ↔ elements x ∧ x ≠ r)
    (hlabel : ∀ x, x ≠ r → label' x = label x) (hremoved : label' r = none)
    (hmarked : ∀ x, x ≠ r → marked x ∨ parent x = some r ∨ x = s → marked' x)
    (hdetached : parent s = some r → ∀ q t, q ≠ r → parent q = none → label q = some t →
      label s ≠ some t) :
    Follows (Ordering.contract parent r s) label' elements' marked' := by
  -- chains without a mark avoid what moved
  have hkept : ∀ {a}, (∀ c, Leads (Ordering.contract parent r s) c a → ¬ marked' c) → a ≠ r →
      ∀ {y}, Leads parent y a → Leads (Ordering.contract parent r s) y a ∧ y ≠ r := by
    rintro a hfree har y ⟨n, hn⟩
    induction n generalizing a with
    | zero =>
        obtain rfl := Option.some.inj hn
        exact ⟨.refl, har⟩
    | succ n ih =>
        rw [ancestor_succ] at hn
        obtain ⟨p, hp, hn⟩ := Option.bind_eq_some_iff.mp hn
        have hpr : p ≠ r := by
          rintro rfl
          exact hfree a .refl (hmarked a har (.inr (.inl hp)))
        have hp' : Ordering.contract parent r s a = some p := by
          rw [contract_of_ne har (by rw [hp]; simpa using hpr), hp]
        obtain ⟨hlead, hyr⟩ := ih (fun c hc => hfree c ((Leads.of_parent hp').trans hc)) hpr hn
        exact ⟨(Leads.of_parent hp').trans hlead, hyr⟩
  refine ⟨?_, ?_, ?_, ?_⟩
  · intro a b hab
    have har : a ≠ r := by
      rintro rfl
      unfold Ordering.contract at hab
      rw [if_pos rfl] at hab
      cases hab
    rw [helements, helements]
    rcases parent_of_contract hab with hold | ⟨rfl, -, hold⟩
    · refine ⟨⟨(h.closed hold).1, har⟩, (h.closed hold).2, ?_⟩
      rintro rfl
      unfold Ordering.contract at hab
      rw [if_neg har, if_pos hold] at hab
      split at hab
      · cases hab
      · exact hne (Option.some.inj hab)
    · exact ⟨⟨(h.closed hold).1, har⟩, hs, hne⟩
  · intro a b hab hfree
    have har : a ≠ r := by
      rintro rfl
      unfold Ordering.contract at hab
      rw [if_pos rfl] at hab
      cases hab
    rcases parent_of_contract hab with hold | ⟨-, -, hold⟩
    · have hbr := (hkept hfree har (Leads.of_parent hold)).2
      rw [hlabel a har, hlabel b hbr]
      refine h.child hold fun y hy hm => ?_
      obtain ⟨hlead, hyr⟩ := hkept hfree har hy
      exact hfree y hlead (hmarked y hyr (.inl hm))
    · exact absurd (hmarked a har (.inr (.inl hold))) (hfree a .refl)
  · -- a root is a root from before or the element itself
    have hold : ∀ {x t}, Ordering.contract parent r s x = none → label' x = some t →
        x ≠ r ∧ label x = some t ∧ (parent x = none ∨ x = s ∧ parent s = some r) := by
      intro x t hx hl
      have hxr : x ≠ r := by
        rintro rfl
        rw [hremoved] at hl
        cases hl
      refine ⟨hxr, (hlabel x hxr).symm.trans hl, ?_⟩
      unfold Ordering.contract at hx
      rw [if_neg hxr] at hx
      split at hx
      next hchild =>
        split at hx
        next hxs => exact .inr ⟨hxs, hxs ▸ hchild⟩
        next => cases hx
      next => exact .inl hx
    intro x y t hx hy hlx hly
    obtain ⟨hxr, hlx, hxroot⟩ := hold hx hlx
    obtain ⟨hyr, hly, hyroot⟩ := hold hy hly
    rcases hxroot with hxroot | ⟨rfl, hchild⟩
    · rcases hyroot with hyroot | ⟨rfl, hchild⟩
      · exact h.roots hxroot hyroot hlx hly
      · exact absurd hly (hdetached hchild x t hxr hxroot hlx)
    · rcases hyroot with hyroot | ⟨rfl, -⟩
      · exact absurd hlx (hdetached hchild y t hyr hyroot hly)
      · rfl
  · intro x hx hclean
    obtain ⟨hin, hxr⟩ := (helements x).mp hx
    rw [hlabel x hxr]
    exact h.labelled hin fun hm => hclean (hmarked x hxr (.inl hm))

end Follows

end Ordering
