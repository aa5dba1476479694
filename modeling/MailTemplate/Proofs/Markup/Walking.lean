import MailTemplate.Proofs.Markup.Editing
import MailTemplate.Proofs.Markup.Surroundings
/-!
# Walking below a node

A walk takes the next node off a stack and puts its children in its place. In a document whose links form a forest the
stack is empty after at most as many steps as there are nodes, and the nodes have then been met in the order that is
explained by recursion over the children, each of them once (`IsForest.descendants_in_preorder`).
-/
namespace MailTemplate.Document

variable {g : Document} {i j p c c' : NodeId} {cs l : List NodeId} {k n : Nat}

/-! ## The stack of a walk -/

/-- The nodes that a walk has still to visit after some steps. -/
def stackAfter (g : Document) : (steps : Nat) → (stack : List NodeId) → List NodeId
  | 0, stack => stack
  | _ + 1, [] => []
  | steps + 1, i :: stack => g.stackAfter steps (g.children i ++ stack)

theorem walk_nil (g : Document) (n : Nat) : g.walk n [] = [] := by cases n <;> rfl

theorem stackAfter_nil (g : Document) (n : Nat) : g.stackAfter n [] = [] := by cases n <;> rfl

/-- A row of nodes, each followed by what is below it in the same order. -/
inductive Preorder (g : Document) : List NodeId → List NodeId → Prop
  | nil : Preorder g [] []
  | cons {c : NodeId} {cs below after : List NodeId} : Preorder g (g.children c) below → Preorder g cs after →
      Preorder g (c :: cs) (c :: (below ++ after))

namespace Preorder

/-- A walk takes a row off its stack in as many steps as there are nodes in the row and below it. -/
theorem walk (h : g.Preorder cs l) (k : Nat) (stack : List NodeId) :
    g.walk (l.length + k) (cs ++ stack) = l ++ g.walk k stack ∧
      g.stackAfter (l.length + k) (cs ++ stack) = g.stackAfter k stack := by
  -- first the children of the node on top, then what stood below it on the stack
  induction h generalizing k stack with
  | nil => simp
  | @cons c cs below after _ _ ihb iha =>
    have hlen : (c :: (below ++ after)).length + k = below.length + (after.length + k) + 1 := by
      rw [List.length_cons, List.length_append]
      omega
    rw [hlen, List.cons_append, Document.walk, stackAfter, (ihb _ _).1, (ihb _ _).2, (iha _ _).1, (iha _ _).2]
    simp

end Preorder

/-! ## Ways down -/

theorem isAtOrAbove_iff : g.IsAtOrAbove c j ↔ j = c ∨ g.IsAncestor c j := by
  constructor
  · rintro ⟨n, hn⟩
    cases n with
    | zero => exact .inl (Option.some.inj hn)
    | succ n => exact .inr ⟨n, hn⟩
  · rintro (rfl | ⟨n, hn⟩)
    · exact .refl g j
    · exact ⟨n + 1, hn⟩

/-- A proper ancestor has a child on the way. -/
theorem isAncestor_iff (hl : g.Linked) : g.IsAncestor i j ↔ ∃ c ∈ g.children i, g.IsAtOrAbove c j := by
  constructor
  · rintro ⟨n, hn⟩
    rw [climb_add] at hn
    obtain ⟨c, hc, hi⟩ := Option.bind_eq_some_iff.1 hn
    cases hp : g.parent? c with
    | none => simp [climb_of_none hp] at hi
    | some q =>
      rw [climb_of_some hp, climb] at hi
      obtain rfl := Option.some.inj hi
      exact ⟨c, (hl.links c q).2 hp, n, hc⟩
  · rintro ⟨c, hc, n, hn⟩
    refine ⟨n, ?_⟩
    rw [climb_add, hn, Option.bind_some, climb_of_some ((hl.links c i).1 hc), climb]

namespace IsForest

/-- Nothing hangs below itself. -/
theorem not_isAncestor_self (hf : g.IsForest) (i : NodeId) : ¬ g.IsAncestor i i := by
  rintro ⟨n, hn⟩
  -- going round `k` times one is where one was
  have hround : ∀ k, g.climb (k * (n + 1)) i = some i := by
    intro k
    induction k with
    | zero => rw [Nat.zero_mul, climb]
    | succ k ih => rw [Nat.succ_mul, climb_add, ih, Option.bind_some, hn]
  obtain ⟨m, hm⟩ := hf i
  have hnone := climb_none_of_le hm (Nat.le_mul_of_pos_right m (Nat.succ_pos n))
  rw [hround m] at hnone
  cases hnone

/-- What is below one node is below no other node of the same parent. -/
theorem eq_of_siblings (hf : g.IsForest) (hc : g.parent? c = some p) (hc' : g.parent? c' = some p)
    (h : g.IsAtOrAbove c j) (h' : g.IsAtOrAbove c' j) : c = c' := by
  obtain ⟨n, hn⟩ := h
  obtain ⟨m, hm⟩ := h'
  wlog hnm : n ≤ m generalizing c c' n m
  · exact (this hc' hc m hm n hn (Nat.le_of_not_le hnm)).symm
  obtain ⟨k, rfl⟩ := Nat.exists_eq_add_of_le hnm
  rw [climb_add, hn, Option.bind_some] at hm
  cases k with
  | zero => exact Option.some.inj hm
  | succ k =>
    -- otherwise the parent of both is above itself
    rw [climb_of_some hc] at hm
    refine absurd ⟨k, ?_⟩ (hf.not_isAncestor_self p)
    rw [climb_add, hm, Option.bind_some, climb_of_some hc', climb]

/-- The more is above a node, the less can be below it. -/
theorem acc_children (hf : g.IsForest) (hl : g.Linked) (hk : n + k = g.size) (h : ∃ a, g.climb n p = some a) :
    Acc (fun c p => c ∈ g.children p) p := by
  induction k generalizing n p with
  | zero =>
    refine ⟨p, fun c hc => ?_⟩
    obtain ⟨a, ha⟩ := h
    obtain rfl : n = g.size := hk
    rw [hf.climb_size hl (lt_size_of_mem_children hc)] at ha
    cases ha
  | succ k ih =>
    refine ⟨p, fun c hc => ih (n := n + 1) (by omega) ?_⟩
    rwa [climb_of_some ((hl.links c p).1 hc)]

theorem wellFounded_children (hf : g.IsForest) (hl : g.Linked) : WellFounded fun c p => c ∈ g.children p :=
  ⟨fun p => hf.acc_children hl (Nat.zero_add g.size) ⟨p, rfl⟩⟩

theorem exists_preorder (hf : g.IsForest) (hl : g.Linked) (i : NodeId) : ∃ l, g.Preorder (g.children i) l := by
  induction i using (hf.wellFounded_children hl).induction with
  | _ i ih =>
    -- a row of some of the children
    have hrow : ∀ cs : List NodeId, (∀ c ∈ cs, c ∈ g.children i) → ∃ l, g.Preorder cs l := by
      intro cs
      induction cs with
      | nil => exact fun _ => ⟨[], .nil⟩
      | cons c cs ihcs =>
        intro hcs
        obtain ⟨below, hbelow⟩ := ih c (hcs c List.mem_cons_self)
        obtain ⟨after, hafter⟩ := ihcs fun d hd => hcs d (List.mem_cons_of_mem c hd)
        exact ⟨_, .cons hbelow hafter⟩
    exact hrow (g.children i) fun _ => id

end IsForest

/-! ## What a row holds -/

namespace Preorder

theorem mem_iff (h : g.Preorder cs l) (hl : g.Linked) : j ∈ l ↔ ∃ c ∈ cs, g.IsAtOrAbove c j := by
  induction h with
  | nil => simp
  | cons _ _ ihb iha =>
    rw [List.mem_cons, List.mem_append, ihb, iha, ← isAncestor_iff hl, ← or_assoc, ← isAtOrAbove_iff]
    simp

theorem nodup (h : g.Preorder cs l) (hl : g.Linked) (hf : g.IsForest) (hcs : cs.Nodup)
    (hp : ∀ c ∈ cs, g.parent? c = some p) : l.Nodup := by
  induction h generalizing p with
  | nil => exact .nil
  | @cons c cs below after hbelow hafter ihb iha =>
    rw [List.nodup_cons] at hcs
    rw [List.forall_mem_cons] at hp
    -- what is at or below `c` is at or below no other node of the row
    have hother : ∀ j, g.IsAtOrAbove c j → j ∉ after := by
      intro j hj hmem
      obtain ⟨d, hd, hdj⟩ := (hafter.mem_iff hl).1 hmem
      obtain rfl := hf.eq_of_siblings hp.1 (hp.2 d hd) hj hdj
      exact hcs.1 hd
    have hunder : ∀ j ∈ below, g.IsAncestor c j := fun j hj => (isAncestor_iff hl).2 ((hbelow.mem_iff hl).1 hj)
    rw [List.nodup_cons, List.mem_append, not_or, List.nodup_append]
    refine ⟨⟨fun hc => hf.not_isAncestor_self c (hunder c hc), hother c (.refl g c)⟩,
      ihb (hl.nodup c) fun d hd => (hl.links d c).1 hd, iha hcs.2 hp.2, fun j hj d hd hjd => ?_⟩
    subst hjd
    exact hother j (isAtOrAbove_iff.2 (.inr (hunder j hj))) hd

end Preorder

/-! ## Descendants -/

namespace IsForest

/-- What is below a node is as much as there are nodes at most, so that a walk comes to its end. -/
theorem walk_eq_of_preorder (hf : g.IsForest) (hl : g.Linked) (h : g.Preorder (g.children i) l) (hn : g.size ≤ n) :
    g.walk n (g.children i) = l ∧ g.stackAfter n (g.children i) = [] := by
  have hnodup : l.Nodup := h.nodup hl hf (hl.nodup i) fun c hc => (hl.links c i).1 hc
  have hlt : l.toFinset ⊆ Finset.range g.size := by
    intro j hj
    obtain ⟨c, hc, m, hm⟩ := (h.mem_iff hl).1 (List.mem_toFinset.1 hj)
    rw [Finset.mem_range]
    cases m with
    | zero =>
      obtain rfl := Option.some.inj hm
      exact hl.child_lt_size hc
    | succ m =>
      cases hj : g.parent? j with
      | none => simp [climb_of_none hj] at hm
      | some q => exact lt_size_of_parent? hj
  have hlen : l.length ≤ g.size := by
    have hcard := Finset.card_le_card hlt
    rwa [List.toFinset_card_of_nodup hnodup, Finset.card_range] at hcard
  obtain ⟨k, rfl⟩ := Nat.exists_eq_add_of_le (Nat.le_trans hlen hn)
  obtain ⟨hwalk, hstack⟩ := h.walk k []
  rw [List.append_nil] at hwalk hstack
  rw [hwalk, hstack, walk_nil, stackAfter_nil, List.append_nil]
  exact ⟨rfl, rfl⟩

theorem preorder_descendants (hf : g.IsForest) (hl : g.Linked) (i : NodeId) :
    g.Preorder (g.children i) (g.descendants i) := by
  obtain ⟨l, h⟩ := hf.exists_preorder hl i
  rw [descendants, (hf.walk_eq_of_preorder hl h (Nat.le_refl _)).1]
  exact h

theorem eq_flatMap_of_preorder (hf : g.IsForest) (hl : g.Linked) (h : g.Preorder cs l) :
    l = cs.flatMap fun c => c :: g.descendants c := by
  induction h with
  | nil => rfl
  | cons hbelow _ _ iha =>
    rw [List.flatMap_cons, List.cons_append, ← iha, descendants,
      (hf.walk_eq_of_preorder hl hbelow (Nat.le_refl _)).1]

/-- The nodes below a node are its children in order, each followed by the nodes below it. -/
theorem descendants_eq_flatMap (hf : g.IsForest) (hl : g.Linked) (i : NodeId) :
    g.descendants i = (g.children i).flatMap fun c => c :: g.descendants c :=
  hf.eq_flatMap_of_preorder hl (hf.preorder_descendants hl i)

/-- Recursion over the children has one solution. -/
theorem eq_descendants (hf : g.IsForest) (hl : g.Linked) {f : NodeId → List NodeId}
    (h : ∀ i, f i = (g.children i).flatMap fun c => c :: f c) : f = g.descendants := by
  funext i
  induction i using (hf.wellFounded_children hl).induction with
  | _ i ih =>
    rw [h, hf.descendants_eq_flatMap hl, List.flatMap_def, List.flatMap_def]
    exact congrArg List.flatten (List.map_congr_left fun c hc => by rw [ih c hc])

/-- In a forest a walk empties its stack, and what it has met then is the one order that recursion over the children
yields. It meets the nodes below its start, each of them once. -/
theorem descendants_in_preorder (hf : g.IsForest) (hl : g.Linked) :
    (∀ f : NodeId → List NodeId, (∀ i, f i = (g.children i).flatMap fun c => c :: f c) ↔ f = g.descendants) ∧
    ∀ i, (∀ n, g.size ≤ n → g.walk n (g.children i) = g.descendants i ∧ g.stackAfter n (g.children i) = []) ∧
      (g.descendants i).Nodup ∧ ∀ j, j ∈ g.descendants i ↔ g.IsAncestor i j := by
  refine ⟨fun f => ⟨hf.eq_descendants hl, ?_⟩, fun i => ?_⟩
  · rintro rfl
    exact hf.descendants_eq_flatMap hl
  · have h := hf.preorder_descendants hl i
    refine ⟨fun n hn => hf.walk_eq_of_preorder hl h hn,
      h.nodup hl hf (hl.nodup i) fun c hc => (hl.links c i).1 hc, fun j => ?_⟩
    rw [h.mem_iff hl, isAncestor_iff hl]

end IsForest

/-- A row with a cell in it, and a row after it. -/
def twoRows : Forest :=
  [.element ⟨"tr".toList, [], false⟩ [.element ⟨"td".toList, [], false⟩ []], .element ⟨"tr".toList, [], false⟩ []]

/-- The first row has been put behind the second one. -/
def swappedRows : Document := (ofForest twoRows).edit (.append root 1)

theorem IsForest.descendants_in_preorder_swappedRows : swappedRows.IsForest ∧ swappedRows.Linked ∧
    swappedRows.descendants root = [3, 1, 2] ∧ swappedRows.stackAfter 4 (swappedRows.children root) = [] ∧
    ∀ j, j ∈ swappedRows.descendants root ↔ swappedRows.IsAncestor root j := by
  have htree := isTree_ofForest twoRows
  have hnodes : (ofForest twoRows).HasNodesOf (.append root 1) := by decide
  have hcircle : (ofForest twoRows).ClosesNoCircle (.append root 1) := by
    intro habove
    exact absurd (eq_of_isAtOrAbove htree.root habove) (by decide)
  have hf : swappedRows.IsForest := htree.isForest.edit htree.linked hnodes hcircle
  have hl : swappedRows.Linked := htree.linked.edit hnodes
  obtain ⟨hwalk, -, hmem⟩ := (hf.descendants_in_preorder hl).2 root
  exact ⟨hf, hl, by decide, (hwalk 4 (by decide)).2, hmem⟩

end MailTemplate.Document
