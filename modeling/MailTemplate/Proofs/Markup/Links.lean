import Mathlib.Data.List.Nodup
import MailTemplate.Proofs.Markup.Numbering
/-!
# What edits do to links

A document keeps its links twice, as parents and as children. In one where the two agree (`Document.Linked`), every edit
is summed up by the parents and the children that it leaves, one equation for each, and from these it is seen that they
still agree.
-/
namespace MailTemplate.Document

variable {g : Document} {i j p q c : NodeId}

/-! ## Setting one link -/

@[simp]
theorem size_setParent (g : Document) (i : NodeId) (p : Option NodeId) : (g.setParent i p).size = g.size := by
  simp [setParent, update, size]

@[simp]
theorem size_setChildren (g : Document) (i : NodeId) (cs : List NodeId) : (g.setChildren i cs).size = g.size := by
  simp [setChildren, update, size]

theorem lt_size_of_data? {data : NodeData} (h : g.data? i = some data) : i < g.size := by
  obtain ⟨n, hn, -⟩ := Option.map_eq_some_iff.1 h
  exact (Array.getElem?_eq_some_iff.1 hn).1

theorem lt_size_of_parent? (h : g.parent? i = some p) : i < g.size := by
  obtain ⟨n, hn, -⟩ := Option.bind_eq_some_iff.1 h
  exact (Array.getElem?_eq_some_iff.1 hn).1

theorem lt_size_of_mem_children (h : c ∈ g.children p) : p < g.size := by
  unfold children at h
  cases hn : g.nodes[p]? with
  | none => simp [hn] at h
  | some n => exact (Array.getElem?_eq_some_iff.1 hn).1

theorem parent?_setParent (hi : i < g.size) (p : Option NodeId) (j : NodeId) :
    (g.setParent i p).parent? j = if j = i then p else g.parent? j := by
  simp only [parent?, setParent, update, Array.getElem?_modify]
  split
  · next h =>
    subst h
    have hn : g.nodes[i]? = some g.nodes[i] := Array.getElem?_eq_getElem hi
    rw [if_pos rfl, hn]
    rfl
  · next h => rw [if_neg (Ne.symm h)]

@[simp]
theorem children_setParent (g : Document) (i : NodeId) (p : Option NodeId) (j : NodeId) :
    (g.setParent i p).children j = g.children j := by
  simp only [children, setParent, update, Array.getElem?_modify]
  split <;> cases g.nodes[j]? <;> rfl

@[simp]
theorem parent?_setChildren (g : Document) (i : NodeId) (cs : List NodeId) (j : NodeId) :
    (g.setChildren i cs).parent? j = g.parent? j := by
  simp only [parent?, setChildren, update, Array.getElem?_modify]
  split <;> cases g.nodes[j]? <;> rfl

theorem children_setChildren (hi : i < g.size) (cs : List NodeId) (j : NodeId) :
    (g.setChildren i cs).children j = if j = i then cs else g.children j := by
  simp only [children, setChildren, update, Array.getElem?_modify]
  split
  · next h =>
    subst h
    have hn : g.nodes[i]? = some g.nodes[i] := Array.getElem?_eq_getElem hi
    rw [if_pos rfl, hn]
    rfl
  · next h => rw [if_neg (Ne.symm h)]

theorem children_setChildren_nil (g : Document) (i j : NodeId) :
    (g.setChildren i []).children j = if j = i then [] else g.children j := by
  simp only [children, setChildren, update, Array.getElem?_modify]
  split
  · next h =>
    subst h
    rw [if_pos rfl]
    cases g.nodes[i]? <;> rfl
  · next h => rw [if_neg (Ne.symm h)]

/-! ## Links that agree -/

/-- Parents and children say the same, and no node is a child twice. -/
structure Linked (g : Document) : Prop where
  links : ∀ c p, c ∈ g.children p ↔ g.parent? c = some p
  nodup : ∀ p, (g.children p).Nodup

theorem IsTree.linked (h : g.IsTree) : g.Linked := ⟨fun c p => (h.links c p).symm, h.nodup⟩

theorem linked_empty : empty.Linked := (isTree_ofForest []).linked

namespace Linked

/-- A node hangs in one place at most. -/
theorem eq_of_mem_children (h : g.Linked) (hp : c ∈ g.children p) (hq : c ∈ g.children q) : p = q :=
  Option.some.inj (((h.links c p).1 hp).symm.trans ((h.links c q).1 hq))

theorem parent_lt_size (h : g.Linked) (hp : g.parent? c = some p) : p < g.size :=
  lt_size_of_mem_children ((h.links c p).2 hp)

theorem child_lt_size (h : g.Linked) (hc : c ∈ g.children p) : c < g.size :=
  lt_size_of_parent? ((h.links c p).1 hc)

/-! ## New nodes -/

@[simp]
theorem parent?_create (g : Document) (data : NodeData) (j : NodeId) : (g.create data).parent? j = g.parent? j := by
  simp only [parent?, create, Array.getElem?_push]
  split
  · next h =>
    subst h
    rw [Array.getElem?_eq_none (Nat.le_refl _)]
    rfl
  · rfl

@[simp]
theorem children_create (g : Document) (data : NodeData) (j : NodeId) :
    (g.create data).children j = g.children j := by
  simp only [children, create, Array.getElem?_push]
  split
  · next h =>
    subst h
    rw [Array.getElem?_eq_none (Nat.le_refl _)]
    rfl
  · rfl

@[simp]
theorem size_create (g : Document) (data : NodeData) : (g.create data).size = g.size + 1 := by
  simp [create, size]

theorem create (h : g.Linked) (data : NodeData) : (g.create data).Linked where
  links c p := by rw [children_create, parent?_create, h.links]
  nodup p := by rw [children_create]; exact h.nodup p

/-! ## Unlinking -/

@[simp]
theorem size_detach (g : Document) (i : NodeId) : (g.detach i).size = g.size := by
  unfold detach
  split
  · rfl
  · rw [size_setChildren, size_setParent]

theorem parent?_detach (g : Document) (i j : NodeId) :
    (g.detach i).parent? j = if j = i then none else g.parent? j := by
  unfold detach
  split
  · next hi =>
    split
    · next h => rw [h, hi]
    · rfl
  · next q hi => rw [parent?_setChildren, parent?_setParent (lt_size_of_parent? hi)]

theorem children_detach (h : g.Linked) (i p : NodeId) : (g.detach i).children p = (g.children p).filter (· != i) := by
  have hself : ∀ p, g.parent? i ≠ some p → (g.children p).filter (· != i) = g.children p := by
    intro p hp
    refine List.filter_eq_self.2 fun c hc => ?_
    rw [bne_iff_ne]
    rintro rfl
    exact hp ((h.links c p).1 hc)
  unfold detach
  split
  · next hi => exact (hself p (by rw [hi]; exact Option.some_ne_none p |>.symm)).symm
  · next q hi =>
    have hq : q < (g.setParent i none).size := by rw [size_setParent]; exact h.parent_lt_size hi
    rw [children_setChildren hq, children_setParent]
    split
    · next hp => rw [hp]
    · next hp =>
      refine (hself p fun hp' => hp ?_).symm
      exact Option.some.inj (hp'.symm.trans hi)

theorem detach (h : g.Linked) (i : NodeId) : (g.detach i).Linked where
  links c p := by
    rw [h.children_detach, parent?_detach, List.mem_filter, bne_iff_ne, h.links]
    by_cases hc : c = i <;> simp [hc]
  nodup p := by
    rw [h.children_detach]
    exact (h.nodup p).filter _

/-! ## Hanging a node somewhere else -/

theorem parent?_append (hc : c < g.size) (p j : NodeId) :
    (g.append p c).parent? j = if j = c then some p else g.parent? j := by
  have hc' : c < (g.detach c).size := by rwa [size_detach]
  rw [append, parent?_setChildren, parent?_setParent hc', parent?_detach]
  split <;> rfl

theorem children_append (h : g.Linked) (hp : p < g.size) (c q : NodeId) :
    (g.append p c).children q =
      if q = p then (g.children p).filter (· != c) ++ [c] else (g.children q).filter (· != c) := by
  have hp' : p < ((g.detach c).setParent c (some p)).size := by rwa [size_setParent, size_detach]
  rw [append, children_setChildren hp', children_setParent, children_setParent, h.children_detach, h.children_detach]

theorem append (h : g.Linked) (hp : p < g.size) (hc : c < g.size) : (g.append p c).Linked where
  links i q := by
    rw [h.children_append hp, parent?_append hc]
    by_cases hq : q = p
    · by_cases hi : i = c <;> simp [hq, hi, h.links]
    · by_cases hi : i = c <;> simp [hq, hi, h.links, Ne.symm hq]
  nodup q := by
    rw [h.children_append hp]
    split
    · have hno : c ∉ (g.children p).filter (· != c) := by simp
      have hnodup := ((h.nodup p).filter (· != c)).concat hno
      rwa [List.concat_eq_append] at hnodup
    · exact (h.nodup q).filter _

/-! ## Putting a node in the place of another -/

theorem replace_of_detached (h : g.parent? i = none) (j : NodeId) : g.replace i j = g := by
  rw [replace, h]

/-- A node that is to take its own place is only unlinked. -/
theorem replace_self (h : g.Linked) (hi : g.parent? i = some p) : g.replace i i = g.detach i := by
  have hno : ((g.detach i).children p).contains i = false := by
    rw [h.children_detach]
    simp
  rw [replace, hi]
  dsimp only
  rw [if_neg (by rw [hno]; exact Bool.false_ne_true)]

/-- In the place of another node: the new one hangs under its parent, where it stood. -/
theorem replace_of_ne (h : g.Linked) (hi : g.parent? i = some p) (hij : i ≠ j) :
    g.replace i j = (((g.detach j).setChildren p
      (((g.children p).filter (· != j)).map fun c => if c = i then j else c)).setParent j (some p)).setParent i none := by
  have hyes : ((g.detach j).children p).contains i = true := by
    rw [h.children_detach, List.contains_iff_mem, List.mem_filter, bne_iff_ne]
    exact ⟨(h.links i p).2 hi, hij⟩
  rw [replace, hi]
  dsimp only
  rw [if_pos hyes, h.children_detach]

theorem parent?_replace (h : g.Linked) (hi : g.parent? i = some p) (hj : j < g.size) (hij : i ≠ j) (c : NodeId) :
    (g.replace i j).parent? c = if c = i then none else if c = j then some p else g.parent? c := by
  have hi' : i < g.size := lt_size_of_parent? hi
  rw [h.replace_of_ne hi hij, parent?_setParent (by simpa using hi'), parent?_setParent (by simpa using hj),
    parent?_setChildren, parent?_detach]
  split
  · rfl
  · split <;> rfl

theorem children_replace (h : g.Linked) (hi : g.parent? i = some p) (hij : i ≠ j) (q : NodeId) :
    (g.replace i j).children q =
      if q = p then ((g.children p).filter (· != j)).map fun c => if c = i then j else c
      else (g.children q).filter (· != j) := by
  have hp : p < (g.detach j).size := by rw [size_detach]; exact h.parent_lt_size hi
  rw [h.replace_of_ne hi hij, children_setParent, children_setParent, children_setChildren hp, h.children_detach]

/-- What stands in a list in which `j` has been put in the place of `i`. -/
theorem mem_map_filter_iff {l : List NodeId} (hij : i ≠ j) :
    c ∈ (l.filter (· != j)).map (fun c => if c = i then j else c) ↔ c = j ∧ i ∈ l ∨ c ≠ i ∧ c ≠ j ∧ c ∈ l := by
  simp only [List.mem_map, List.mem_filter, bne_iff_ne]
  constructor
  · rintro ⟨d, ⟨hd, hdj⟩, rfl⟩
    by_cases hdi : d = i
    · subst hdi
      exact .inl ⟨if_pos rfl, hd⟩
    · rw [if_neg hdi]
      exact .inr ⟨hdi, hdj, hd⟩
  · rintro (⟨rfl, hi⟩ | ⟨hci, hcj, hc⟩)
    · exact ⟨i, ⟨hi, hij⟩, if_pos rfl⟩
    · exact ⟨c, ⟨hc, hcj⟩, if_neg hci⟩

theorem replace_of_parent (h : g.Linked) (hi : g.parent? i = some p) (hj : j < g.size) (hij : i ≠ j) :
    (g.replace i j).Linked where
  links c q := by
    rw [h.children_replace hi hij, h.parent?_replace hi hj hij]
    by_cases hq : q = p
    · subst hq
      rw [if_pos rfl, mem_map_filter_iff hij]
      have hin : i ∈ g.children q := (h.links i q).2 hi
      by_cases hci : c = i
      · simp [hci, hij]
      · by_cases hcj : c = j <;> simp [hci, hcj, hin, Ne.symm hij, h.links]
    · rw [if_neg hq, List.mem_filter, bne_iff_ne, h.links]
      by_cases hci : c = i
      · subst hci
        simp [hi, Ne.symm hq]
      · by_cases hcj : c = j <;> simp [hci, hcj, Ne.symm hij, Ne.symm hq]
  nodup q := by
    rw [h.children_replace hi hij]
    split
    · refine List.Nodup.map_on (fun c hc d hd hcd => ?_) ((h.nodup p).filter _)
      simp only [List.mem_filter, bne_iff_ne] at hc hd
      -- `j` itself is not in the list, and so comes from `i` alone
      by_cases hci : c = i <;> by_cases hdi : d = i <;> simp_all
    · exact (h.nodup q).filter _

theorem replace (h : g.Linked) (i : NodeId) (hj : j < g.size) : (g.replace i j).Linked := by
  cases hi : g.parent? i with
  | none => rwa [replace_of_detached hi]
  | some p =>
    by_cases hij : i = j
    · subst hij
      rw [h.replace_self hi]
      exact h.detach i
    · exact h.replace_of_parent hi hj hij

/-! ## Unlinking all children -/

theorem parent?_foldl_setParent {cs : List NodeId} (hcs : ∀ c ∈ cs, c < g.size) (j : NodeId) :
    (cs.foldl (fun g c => g.setParent c none) g).parent? j = if j ∈ cs then none else g.parent? j := by
  induction cs generalizing g with
  | nil => rfl
  | cons c cs ih =>
    have hc : c < g.size := hcs c List.mem_cons_self
    have hcs' : ∀ d ∈ cs, d < (g.setParent c none).size := by
      intro d hd
      rw [size_setParent]
      exact hcs d (List.mem_cons_of_mem c hd)
    rw [List.foldl_cons, ih hcs', parent?_setParent hc]
    by_cases hj : j = c <;> simp [hj]

theorem children_foldl_setParent (g : Document) (cs : List NodeId) (j : NodeId) :
    (cs.foldl (fun g c => g.setParent c none) g).children j = g.children j := by
  induction cs generalizing g with
  | nil => rfl
  | cons c cs ih => rw [List.foldl_cons, ih, children_setParent]

theorem parent?_clearChildren (h : g.Linked) (i j : NodeId) :
    (g.clearChildren i).parent? j = if j ∈ g.children i then none else g.parent? j := by
  have hcs : ∀ c ∈ g.children i, c < (g.setChildren i []).size := by
    intro c hc
    rw [size_setChildren]
    exact h.child_lt_size hc
  rw [clearChildren, parent?_foldl_setParent hcs, parent?_setChildren]

theorem children_clearChildren (g : Document) (i j : NodeId) :
    (g.clearChildren i).children j = if j = i then [] else g.children j := by
  rw [clearChildren, children_foldl_setParent, children_setChildren_nil]

theorem clearChildren (h : g.Linked) (i : NodeId) : (g.clearChildren i).Linked where
  links c p := by
    rw [children_clearChildren, h.parent?_clearChildren]
    by_cases hp : p = i
    · by_cases hc : c ∈ g.children i
      · simp [hp, hc]
      · have hpar : g.parent? c ≠ some i := fun hpar => hc ((h.links c i).2 hpar)
        simp [hp, hc, hpar]
    · by_cases hc : c ∈ g.children i
      · have hcp : c ∉ g.children p := fun hcp => hp (h.eq_of_mem_children hcp hc)
        simp [hp, hc, hcp]
      · simp [hp, hc, h.links]
  nodup p := by
    rw [children_clearChildren]
    split
    · exact .nil
    · exact h.nodup p

end Linked

end MailTemplate.Document
