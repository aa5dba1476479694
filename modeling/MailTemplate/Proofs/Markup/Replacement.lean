import MailTemplate.Proofs.Markup.Links
/-!
# One node in the place of another

Wherever the new node hung before, beside the old one, below it or nowhere, it stands afterwards exactly where the old
one stood; the links of these two nodes, of their parents and of nothing else change (`replace_frame`).
-/
namespace MailTemplate.Document

variable {g : Document} {old new p q : NodeId} {before after : List NodeId}

/-! ## Data -/

theorem data?_update (g : Document) (i : NodeId) {f : Node → Node} (hf : ∀ n, (f n).data = n.data) (j : NodeId) :
    (g.update i f).data? j = g.data? j := by
  simp only [data?, update, Array.getElem?_modify]
  split
  · rw [Option.map_map]
    exact congrFun (congrArg Option.map (funext hf)) _
  · rfl

@[simp]
theorem data?_setParent (g : Document) (i : NodeId) (p : Option NodeId) (j : NodeId) :
    (g.setParent i p).data? j = g.data? j := by
  rw [setParent, data?_update]
  exact fun _ => rfl

@[simp]
theorem data?_setChildren (g : Document) (i : NodeId) (cs : List NodeId) (j : NodeId) :
    (g.setChildren i cs).data? j = g.data? j := by
  rw [setChildren, data?_update]
  exact fun _ => rfl

theorem data?_detach (g : Document) (i j : NodeId) : (g.detach i).data? j = g.data? j := by
  unfold detach
  split
  · rfl
  · rw [data?_setChildren, data?_setParent]

theorem data?_replace (g : Document) (old new j : NodeId) : (g.replace old new).data? j = g.data? j := by
  unfold replace
  split
  · rfl
  · dsimp only
    split
    · rw [data?_setParent, data?_setParent, data?_setChildren, data?_detach]
    · exact data?_detach g new j

theorem size_replace (g : Document) (old new : NodeId) : (g.replace old new).size = g.size := by
  unfold replace
  split
  · rfl
  · dsimp only
    split
    · rw [size_setParent, size_setParent, size_setChildren, Linked.size_detach]
    · exact Linked.size_detach g new

/-! ## Rows of children -/

/-- In a row without repetitions one node takes the place of another. -/
theorem map_replace_eq (hno : old ∉ before ++ after) :
    (before ++ old :: after).map (fun c => if c = old then new else c) = before ++ new :: after := by
  rw [List.mem_append, not_or] at hno
  have hsame : ∀ l : List NodeId, old ∉ l → l.map (fun c => if c = old then new else c) = l := by
    intro l hl
    refine List.map_congr_left (fun c hc => if_neg ?_) |>.trans (List.map_id l)
    rintro rfl
    exact hl hc
  rw [List.map_append, List.map_cons, hsame before hno.1, hsame after hno.2, if_pos rfl]

/-- Taking out a node that a row has once leaves what stands before it and after it. -/
theorem filter_ne_eq (hno : new ∉ before ++ after) : (before ++ new :: after).filter (· != new) = before ++ after := by
  have hne : ∀ c ∈ before ++ after, (c != new) = true := by
    intro c hc
    rw [bne_iff_ne]
    rintro rfl
    exact hno hc
  rw [List.filter_append, List.filter_cons_of_neg (by simp), ← List.filter_append, List.filter_eq_self.2 hne]

theorem not_mem_append_of_nodup {i : NodeId} (h : (before ++ i :: after).Nodup) : i ∉ before ++ after :=
  (List.nodup_cons.1 (List.nodup_middle.1 h)).1

namespace Linked

/-- The new node stands under its new parent where the old one stood, once it has left its own place. -/
theorem exists_children_replace_eq (h : g.Linked) (hold : g.parent? old = some p) (hne : old ≠ new) :
    ∃ before after, (g.children p).filter (· != new) = before ++ old :: after ∧
      (g.replace old new).children p = before ++ new :: after := by
  have hmem : old ∈ (g.children p).filter (· != new) := by
    rw [List.mem_filter, bne_iff_ne]
    exact ⟨(h.links old p).2 hold, hne⟩
  obtain ⟨before, after, hrow⟩ := List.append_of_mem hmem
  have hnodup : (before ++ old :: after).Nodup := hrow ▸ (h.nodup p).filter _
  refine ⟨before, after, hrow, ?_⟩
  rw [h.children_replace hold hne, if_pos rfl, hrow, map_replace_eq (not_mem_append_of_nodup hnodup)]

/-- A former parent loses the new node alone. -/
theorem exists_children_former_eq (h : g.Linked) (hold : g.parent? old = some p) (hne : old ≠ new) (hq : q ≠ p)
    (hnew : g.parent? new = some q) : ∃ before after, g.children q = before ++ new :: after ∧
      (g.replace old new).children q = before ++ after := by
  obtain ⟨before, after, hrow⟩ := List.append_of_mem ((h.links new q).2 hnew)
  have hnodup : (before ++ new :: after).Nodup := hrow ▸ h.nodup q
  refine ⟨before, after, hrow, ?_⟩
  rw [h.children_replace hold hne, if_neg hq, hrow, filter_ne_eq (not_mem_append_of_nodup hnodup)]

theorem children_replace_of_ne (h : g.Linked) (hold : g.parent? old = some p) (hne : old ≠ new) (hq : q ≠ p)
    (hnew : g.parent? new ≠ some q) : (g.replace old new).children q = g.children q := by
  rw [h.children_replace hold hne, if_neg hq, List.filter_eq_self]
  intro c hc
  rw [bne_iff_ne]
  rintro rfl
  exact hnew ((h.links c q).1 hc)

/-- What a node in the place of another changes, and what it leaves alone: the row under the parent of the old node,
the row that the new node comes from, and the parents of the two. -/
theorem replace_frame (h : g.Linked) (hold : g.parent? old = some p) (hnew : new < g.size) (hne : new ≠ old) :
    (∃ before after, (g.children p).filter (· != new) = before ++ old :: after ∧
      (g.replace old new).children p = before ++ new :: after) ∧
    (g.replace old new).parent? new = some p ∧ (g.replace old new).parent? old = none ∧
    (∀ q, q ≠ p → g.parent? new = some q → ∃ before after, g.children q = before ++ new :: after ∧
      (g.replace old new).children q = before ++ after) ∧
    (∀ q, q ≠ p → g.parent? new ≠ some q → (g.replace old new).children q = g.children q) ∧
    (∀ c, c ≠ old → c ≠ new → (g.replace old new).parent? c = g.parent? c) ∧
    (∀ c, (g.replace old new).data? c = g.data? c) ∧ (g.replace old new).size = g.size := by
  have hparent := h.parent?_replace hold hnew hne.symm
  refine ⟨h.exists_children_replace_eq hold hne.symm, ?_, ?_, fun q hq => h.exists_children_former_eq hold hne.symm hq,
    fun q hq => h.children_replace_of_ne hold hne.symm hq, fun c hc hc' => ?_, g.data?_replace old new,
    g.size_replace old new⟩
  · rw [hparent, if_neg hne, if_pos rfl]
  · rw [hparent, if_pos rfl]
  · rw [hparent, if_neg hc, if_neg hc']

end Linked

/-- A row with a cell in it, before another row. -/
def nestedRows : Forest :=
  [.element ⟨"tr".toList, [], false⟩ [.leaf (.text "a".toList), .element ⟨"td".toList, [], false⟩ []],
    .element ⟨"tr".toList, [], false⟩ []]

/-- A node may take the place of the one that it hangs below, which then loses it. -/
theorem Linked.replace_frame_nestedRows : (ofForest nestedRows).Linked ∧ (ofForest nestedRows).parent? 1 = some root ∧
    3 < (ofForest nestedRows).size ∧ 3 ≠ 1 ∧ (ofForest nestedRows).parent? 3 = some 1 ∧
    (∃ before after, ((ofForest nestedRows).children root).filter (· != 3) = before ++ 1 :: after ∧
      ((ofForest nestedRows).replace 1 3).children root = before ++ 3 :: after) ∧
    ∃ before after, (ofForest nestedRows).children 1 = before ++ 3 :: after ∧
      ((ofForest nestedRows).replace 1 3).children 1 = before ++ after := by
  have hl : (ofForest nestedRows).Linked := (isTree_ofForest nestedRows).linked
  have hold : (ofForest nestedRows).parent? 1 = some root := by decide
  have hnew : 3 < (ofForest nestedRows).size := by decide
  have hformer : (ofForest nestedRows).parent? 3 = some 1 := by decide
  obtain ⟨hrow, -, -, hloses, -⟩ := hl.replace_frame hold hnew (by decide)
  exact ⟨hl, hold, hnew, by decide, hformer, hrow, hloses 1 (by decide) hformer⟩

end MailTemplate.Document
