import MailTemplate.Proofs.Markup.Replacement
import MailTemplate.Proofs.Markup.Showing
/-!
# New nodes

A new node can be hung below a node (`hang_frame`), take the place of all that is in one (`refill_frame`), or take the
place of one (`replace_new_frame`). What was there keeps what it holds, and no other row of children changes
(`ChangesOnly`); a forest stays a forest, since nothing is below a new node.
-/
namespace MailTemplate.Document

variable {g g' g'' : Document} {i j p : NodeId} {is ns ms : List NodeId} {f : Forest} {data : NodeData}

/-! ## What a change leaves alone -/

/-- Whether nothing changes but the rows of children of `ns`, and nodes that were not there before. -/
structure ChangesOnly (g g' : Document) (ns : List NodeId) : Prop where
  size : g.size ≤ g'.size
  data : ∀ i < g.size, g'.data? i = g.data? i
  children : ∀ i < g.size, i ∉ ns → g'.children i = g.children i

namespace ChangesOnly

theorem refl (g : Document) (ns : List NodeId) : g.ChangesOnly g ns :=
  ⟨Nat.le_refl _, fun _ _ => rfl, fun _ _ _ => rfl⟩

/-- Of two changes only the nodes matter that were there before both. -/
theorem trans (h : g.ChangesOnly g' ns) (h' : g'.ChangesOnly g'' ms) (hms : ∀ i ∈ ms, i < g.size → i ∈ ns) :
    g.ChangesOnly g'' ns where
  size := Nat.le_trans h.size h'.size
  data i hi := (h'.data i (Nat.lt_of_lt_of_le hi h.size)).trans (h.data i hi)
  children i hi hno := (h'.children i (Nat.lt_of_lt_of_le hi h.size) fun hmem => hno (hms i hmem hi)).trans
    (h.children i hi hno)

theorem mono (h : g.ChangesOnly g' ns) (hms : ∀ i ∈ ns, i ∈ ms) : g.ChangesOnly g' ms :=
  ⟨h.size, h.data, fun i hi hno => h.children i hi fun hmem => hno (hms i hmem)⟩

/-- What a row stands for stays if none of its nodes is concerned. -/
theorem shows (h : g.ChangesOnly g' ms) (hs : g.Shows is f ns) (hno : ∀ i ∈ ns, i ∉ ms) : g'.Shows is f ns :=
  hs.congr fun i hi => ⟨h.data i (hs.lt_size i hi), h.children i (hs.lt_size i hi) (hno i hi)⟩

theorem element? (h : g.ChangesOnly g' ms) (hi : i < g.size) : g'.element? i = g.element? i := by
  rw [Document.element?, Document.element?, h.data i hi]

end ChangesOnly

/-! ## What nodes hold -/

theorem data?_create (g : Document) (data : NodeData) (j : NodeId) :
    (g.create data).data? j = if j = g.size then some data else g.data? j := by
  rw [data?, create, Array.getElem?_push]
  by_cases h : j = g.nodes.size
  · rw [if_pos h, if_pos (show j = g.size from h)]
    rfl
  · rw [if_neg h, if_neg (show ¬ j = g.size from h)]
    rfl

theorem children_of_size_le (h : g.size ≤ i) : g.children i = [] := by
  rw [Document.children, Array.getElem?_eq_none h]
  rfl

theorem data?_append (g : Document) (p i j : NodeId) : (g.append p i).data? j = g.data? j := by
  rw [append, data?_setChildren, data?_setParent, data?_detach]

theorem data?_clearChildren (g : Document) (i j : NodeId) : (g.clearChildren i).data? j = g.data? j := by
  have hfold : ∀ (cs : List NodeId) (g : Document), (cs.foldl (fun g c => g.setParent c none) g).data? j = g.data? j := by
    intro cs
    induction cs with
    | nil => exact fun _ => rfl
    | cons c cs ih =>
      intro g
      rw [List.foldl_cons, ih, data?_setParent]
  rw [clearChildren, hfold, data?_setChildren]

theorem size_clearChildren (g : Document) (i : NodeId) : (g.clearChildren i).size = g.size := by
  have hfold : ∀ (cs : List NodeId) (g : Document), (cs.foldl (fun g c => g.setParent c none) g).size = g.size := by
    intro cs
    induction cs with
    | nil => exact fun _ => rfl
    | cons c cs ih =>
      intro g
      rw [List.foldl_cons, ih, size_setParent]
  rw [clearChildren, hfold, size_setChildren]

theorem size_append (g : Document) (p i : NodeId) : (g.append p i).size = g.size := by
  rw [append, size_setChildren, size_setParent, Linked.size_detach]

/-! ## Forests -/

theorem IsForest.detach (hf : g.IsForest) (i : NodeId) : (g.detach i).IsForest :=
  hf.unlink fun _ _ => parent?_of_detach

theorem IsForest.clearChildren (hf : g.IsForest) (hl : g.Linked) (i : NodeId) : (g.clearChildren i).IsForest := by
  refine hf.unlink fun j q hq => ?_
  rw [hl.parent?_clearChildren] at hq
  split at hq
  · cases hq
  · exact hq

/-- A new node is above nothing. -/
theorem Linked.not_isAtOrAbove_size (hl : g.Linked) (hp : p < g.size) : ¬ g.IsAtOrAbove g.size p :=
  fun h => Nat.lt_irrefl _ (h.lt_size hl hp)

/-- A new node is nobody's child. -/
theorem Linked.filter_children_size (hl : g.Linked) (q : NodeId) : (g.children q).filter (· != g.size) = g.children q := by
  rw [List.filter_eq_self]
  intro c hc
  rw [bne_iff_ne]
  exact Nat.ne_of_lt (hl.child_lt_size hc)

/-! ## Hanging a new node somewhere -/

/-- What a new node at the end of a row changes. -/
theorem Linked.hang_frame (hl : g.Linked) (hf : g.IsForest) (hp : p < g.size)
    (h : (g.create data).append p g.size = g') : g'.Linked ∧ g'.IsForest ∧ g'.size = g.size + 1 ∧
      (∀ j, g'.data? j = if j = g.size then some data else g.data? j) ∧
      ∀ q, g'.children q = if q = p then g.children p ++ [g.size] else g.children q := by
  subst h
  have hp' : p < (g.create data).size := by
    rw [size_create]
    exact Nat.lt_succ_of_lt hp
  have hnew : g.size < (g.create data).size := by
    rw [size_create]
    exact Nat.lt_succ_self _
  refine ⟨(hl.create data).append hp' hnew, hf.relink (hl.not_isAtOrAbove_size hp) fun j q hq => ?_, ?_, fun j => ?_,
    fun q => ?_⟩
  · have hlink := linksBut_append hnew j q hq
    rwa [parent?_create] at hlink
  · rw [size_append, size_create]
  · rw [data?_append, data?_create]
  · rw [(hl.create data).children_append hp', children_create, children_create, hl.filter_children_size,
      hl.filter_children_size]

/-- What a new node in the place of all that a node has in it changes. -/
theorem Linked.refill_frame (hl : g.Linked) (hf : g.IsForest) (hi : i < g.size)
    (h : ((g.clearChildren i).create data).append i (g.clearChildren i).size = g') : g'.Linked ∧ g'.IsForest ∧
      g.ChangesOnly g' [i] ∧ g'.data? g.size = some data ∧ g'.children i = [g.size] ∧ g'.children g.size = [] := by
  have hsize := g.size_clearChildren i
  obtain ⟨hlinked, hforest, hsize', hdata, hchildren⟩ :=
    (hl.clearChildren i).hang_frame (hf.clearChildren hl i) (hsize ▸ hi) h
  simp only [hsize, data?_clearChildren, children_clearChildren] at hsize' hdata hchildren
  have hother : ∀ q, q ≠ i → g'.children q = g.children q := fun q hq => by rw [hchildren, if_neg hq, if_neg hq]
  refine ⟨hlinked, hforest, ⟨?_, fun j hj => ?_, fun q _ hq => hother q (List.ne_of_not_mem_cons hq)⟩, ?_, ?_, ?_⟩
  · rw [hsize']
    exact Nat.le_succ _
  · rw [hdata, if_neg (Nat.ne_of_lt hj)]
  · rw [hdata, if_pos rfl]
  · rw [hchildren, if_pos rfl, if_pos trivial, List.nil_append]
  · rw [hother _ (Nat.ne_of_gt hi), children_of_size_le (Nat.le_refl _)]

/-- What a new node in the place of another one changes. -/
theorem Linked.replace_new_frame (hl : g.Linked) (hf : g.IsForest) {before after : List NodeId}
    (hi : g.children p = before ++ i :: after) (h : (g.create data).replace i g.size = g') : g'.Linked ∧ g'.IsForest ∧
      g.ChangesOnly g' [p] ∧ g'.data? g.size = some data ∧ g'.children p = before ++ g.size :: after ∧
      g'.children g.size = [] := by
  subst h
  have hmem : i ∈ g.children p := by simp [hi]
  have hp : p < g.size := lt_size_of_mem_children hmem
  have hparent : (g.create data).parent? i = some p := by
    rw [parent?_create]
    exact (hl.links i p).1 hmem
  have hne : i ≠ g.size := Nat.ne_of_lt (hl.child_lt_size hmem)
  have hnew : g.size < (g.create data).size := by
    rw [size_create]
    exact Nat.lt_succ_self _
  have hnodup := hl.nodup p
  rw [hi] at hnodup
  have hother : ∀ q, q ≠ p → ((g.create data).replace i g.size).children q = g.children q := fun q hq => by
    rw [(hl.create data).children_replace hparent hne, if_neg hq, children_create, hl.filter_children_size]
  refine ⟨(hl.create data).replace i hnew, hf.relink (hl.not_isAtOrAbove_size hp) fun j q hq => ?_,
    ⟨?_, fun j hj => ?_, fun q _ hq => hother q (List.ne_of_not_mem_cons hq)⟩, ?_, ?_, ?_⟩
  · have hlink := linksBut_replace (hl.create data) hparent hnew j q hq
    rwa [parent?_create] at hlink
  · rw [size_replace, size_create]
    exact Nat.le_succ _
  · rw [data?_replace, data?_create, if_neg (Nat.ne_of_lt hj)]
  · rw [data?_replace, data?_create, if_pos rfl]
  · rw [(hl.create data).children_replace hparent hne, if_pos rfl, children_create, hl.filter_children_size, hi,
      map_replace_eq (not_mem_append_of_nodup hnodup)]
  · rw [hother _ (Nat.ne_of_gt hp), children_of_size_le (Nat.le_refl _)]

end MailTemplate.Document
