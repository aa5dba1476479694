import Mathlib.Data.Finset.Card
import MailTemplate.Proofs.Markup.Links
/-!
# Ways up

From parent to parent, a way up leads to the top of a tree, or in circles. In a document whose links form a forest
(`Document.IsForest`) every way up comes to an end, and it does so within as many steps as there are nodes
(`climb_size`). Hanging a node below one that is not below it closes no circle (`IsForest.relink`).
-/
namespace MailTemplate.Document

variable {g g' : Document} {i p q a : NodeId} {m n : Nat}

/-! ## Climbing -/

/-- The node that is `n` parents above a node, if there are so many. -/
def climb (g : Document) : (n : Nat) → NodeId → Option NodeId
  | 0, i => some i
  | n + 1, i => (g.parent? i).bind (g.climb n)

/-- Every chain of parents comes to an end. -/
def IsForest (g : Document) : Prop := ∀ i, ∃ n, g.climb n i = none

/-- Whether `a` is the node `i` or an ancestor of it. -/
def IsAtOrAbove (g : Document) (a i : NodeId) : Prop := ∃ n, g.climb n i = some a

theorem climb_of_none (h : g.parent? i = none) (n : Nat) : g.climb (n + 1) i = none := by
  rw [climb, h]
  rfl

theorem climb_of_some (h : g.parent? i = some p) (n : Nat) : g.climb (n + 1) i = g.climb n p := by
  rw [climb, h]
  rfl

theorem climb_add (g : Document) (m n : Nat) (i : NodeId) : g.climb (m + n) i = (g.climb m i).bind (g.climb n) := by
  induction m generalizing i with
  | zero => rw [Nat.zero_add, climb, Option.bind_some]
  | succ m ih =>
    rw [Nat.add_right_comm, climb, climb]
    cases g.parent? i with
    | none => rfl
    | some p => exact ih p

theorem climb_none_of_le (h : g.climb m i = none) (hmn : m ≤ n) : g.climb n i = none := by
  obtain ⟨k, rfl⟩ := Nat.exists_eq_add_of_le hmn
  rw [climb_add, h]
  rfl

/-- What is reached by climbing is the node itself, or is the parent of some node. -/
theorem eq_or_exists_of_climb (h : g.climb n i = some a) : a = i ∨ ∃ j, g.parent? j = some a := by
  induction n generalizing i with
  | zero => exact .inl (Option.some.inj h).symm
  | succ n ih =>
    cases hp : g.parent? i with
    | none =>
      rw [climb_of_none hp] at h
      cases h
    | some p =>
      rw [climb_of_some hp] at h
      rcases ih h with rfl | hj
      · exact .inr ⟨i, hp⟩
      · exact .inr hj

theorem IsAtOrAbove.refl (g : Document) (i : NodeId) : g.IsAtOrAbove i i := ⟨0, rfl⟩

theorem IsAtOrAbove.of_parent (h : g.parent? i = some p) (ha : g.IsAtOrAbove a p) : g.IsAtOrAbove a i := by
  obtain ⟨n, hn⟩ := ha
  exact ⟨n + 1, by rw [climb_of_some h, hn]⟩

/-- A node without a parent has nothing but itself above it. -/
theorem eq_of_isAtOrAbove (h : g.parent? i = none) (ha : g.IsAtOrAbove a i) : a = i := by
  obtain ⟨n, hn⟩ := ha
  cases n with
  | zero => exact (Option.some.inj hn).symm
  | succ n =>
    rw [climb_of_none h] at hn
    cases hn

theorem IsAtOrAbove.lt_size (hl : g.Linked) (hi : i < g.size) (ha : g.IsAtOrAbove a i) : a < g.size := by
  obtain ⟨n, hn⟩ := ha
  rcases eq_or_exists_of_climb hn with rfl | ⟨j, hj⟩
  · exact hi
  · exact hl.parent_lt_size hj

/-! ## How far up -/

/-- A way up that ends meets no node twice. -/
theorem climb_injOn (hn : g.climb n i = none) (hlt : ∀ m < n, g.climb m i ≠ none) {j k : Nat} (hjk : j < k) (hk : k < n) :
    g.climb j i ≠ g.climb k i := by
  intro he
  -- otherwise the way from the first meeting on is as short as that from the second
  have hshort : g.climb (j + (n - k)) i = none := by
    rw [climb_add, he, ← climb_add, Nat.add_sub_cancel' (Nat.le_of_lt hk), hn]
  exact hlt (j + (n - k)) (by omega) hshort

/-- In a forest no way up is longer than there are nodes. -/
theorem IsForest.climb_size (h : g.IsForest) (hl : g.Linked) (hi : i < g.size) : g.climb g.size i = none := by
  classical
  let n := Nat.find (h i)
  have hn : g.climb n i = none := Nat.find_spec (h i)
  have hlt : ∀ m < n, g.climb m i ≠ none := fun m hm => Nat.find_min (h i) hm
  have hbelow : ∀ m ∈ Finset.range n, (g.climb m i).getD 0 ∈ Finset.range g.size := by
    intro m hm
    obtain ⟨a, ha⟩ := Option.ne_none_iff_exists'.1 (hlt m (Finset.mem_range.1 hm))
    rw [ha, Option.getD_some, Finset.mem_range]
    exact IsAtOrAbove.lt_size hl hi ⟨m, ha⟩
  have hinj : Set.InjOn (fun m => (g.climb m i).getD 0) (Finset.range n) := by
    intro j hj k hk he
    rw [Finset.mem_coe, Finset.mem_range] at hj hk
    obtain ⟨a, ha⟩ := Option.ne_none_iff_exists'.1 (hlt j hj)
    obtain ⟨b, hb⟩ := Option.ne_none_iff_exists'.1 (hlt k hk)
    simp only [ha, hb, Option.getD_some] at he
    subst he
    rcases Nat.lt_trichotomy j k with hjk | rfl | hkj
    · exact absurd (ha.trans hb.symm) (climb_injOn hn hlt hjk hk)
    · rfl
    · exact absurd (hb.trans ha.symm) (climb_injOn hn hlt hkj hj)
  have hle : n ≤ g.size := by
    have hcard := Finset.card_le_card_of_injOn _ hbelow hinj
    rwa [Finset.card_range, Finset.card_range] at hcard
  exact climb_none_of_le hn hle

/-! ## New links -/

/-- Where a new link leads from `a` to `p`, a way up that does not come to `a` is one of before. -/
theorem exists_climb_none_of_not_above (hp : ∀ i q, g'.parent? i = some q → g.parent? i = some q ∨ i = a ∧ q = p)
    (hn : g.climb n i = none) (ha : ¬ g.IsAtOrAbove a i) : ∃ m, g'.climb m i = none := by
  induction n generalizing i with
  | zero => cases hn
  | succ n ih =>
    cases hq : g'.parent? i with
    | none => exact ⟨1, climb_of_none hq 0⟩
    | some q =>
      rcases hp i q hq with hold | ⟨rfl, -⟩
      · rw [climb_of_some hold] at hn
        obtain ⟨m, hm⟩ := ih hn fun hq => ha (.of_parent hold hq)
        exact ⟨m + 1, by rw [climb_of_some hq, hm]⟩
      · exact absurd (IsAtOrAbove.refl g i) ha

/-- A forest stays one when links are taken away, and when one is added from `a` to a node that is not below `a`. -/
theorem IsForest.relink (h : g.IsForest) (ha : ¬ g.IsAtOrAbove a p)
    (hp : ∀ i q, g'.parent? i = some q → g.parent? i = some q ∨ i = a ∧ q = p) : g'.IsForest := by
  intro i
  obtain ⟨n, hn⟩ := h i
  induction n generalizing i with
  | zero => cases hn
  | succ n ih =>
    cases hq : g'.parent? i with
    | none => exact ⟨1, climb_of_none hq 0⟩
    | some q =>
      rcases hp i q hq with hold | ⟨-, rfl⟩
      · rw [climb_of_some hold] at hn
        obtain ⟨m, hm⟩ := ih q hn
        exact ⟨m + 1, by rw [climb_of_some hq, hm]⟩
      · obtain ⟨k, hk⟩ := h q
        obtain ⟨m, hm⟩ := exists_climb_none_of_not_above hp hk ha
        exact ⟨m + 1, by rw [climb_of_some hq, hm]⟩

theorem IsForest.unlink (h : g.IsForest) (hp : ∀ i q, g'.parent? i = some q → g.parent? i = some q) : g'.IsForest := by
  intro i
  obtain ⟨n, hn⟩ := h i
  refine ⟨n, ?_⟩
  induction n generalizing i with
  | zero => cases hn
  | succ n ih =>
    cases hq : g'.parent? i with
    | none => exact climb_of_none hq n
    | some q =>
      rw [climb_of_some (hp i q hq)] at hn
      rw [climb_of_some hq, ih q hn]

/-- Where numbers grow on the way down, every way up ends. -/
theorem IsTree.isForest (h : g.IsTree) : g.IsForest := by
  intro i
  induction i using Nat.strong_induction_on with
  | _ i ih =>
    cases hp : g.parent? i with
    | none => exact ⟨1, climb_of_none hp 0⟩
    | some p =>
      have hi : Document.root < i := by
        refine Nat.pos_of_ne_zero ?_
        rintro rfl
        cases hp.symm.trans h.root
      obtain ⟨q, hq, hlt⟩ := h.below i hi (lt_size_of_parent? hp)
      obtain rfl := Option.some.inj (hp.symm.trans hq)
      obtain ⟨n, hn⟩ := ih p hlt
      exact ⟨n + 1, by rw [climb_of_some hp, hn]⟩

end MailTemplate.Document
