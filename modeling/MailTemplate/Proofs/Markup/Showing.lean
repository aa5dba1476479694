import MailTemplate.Proofs.Markup.Walking
/-!
# What rows of nodes stand for

A row of nodes of a document stands for trees (`Document.Shows`). That depends on nothing but what these nodes and the nodes
below them hold (`Shows.congr`), so that it stays true while the document is changed elsewhere. The nodes of a document
that is made from trees stand for these (`shows_ofForest`), and in a document without circles a row below the root is all
that its trees say (`Shows.forest_eq`).
-/
namespace MailTemplate.Document

variable {g g' : Document} {p i : NodeId} {before is js after ns ms : List NodeId} {f k : Forest}

/-- A row of nodes stands for trees; `ns` are the nodes of the row and all nodes below them, in document order. -/
inductive Shows (g : Document) : List NodeId → Forest → List NodeId → Prop
  | nil : Shows g [] [] []
  | leaf {i : NodeId} {l : Leaf} {is ns : List NodeId} {f : Forest} : g.data? i = some (.leaf l) → g.children i = [] →
      Shows g is f ns → Shows g (i :: is) (.leaf l :: f) (i :: ns)
  | element {i : NodeId} {e : Element} {is inside ns : List NodeId} {content f : Forest} :
      g.data? i = some (.element e) → Shows g (g.children i) content inside → Shows g is f ns →
      Shows g (i :: is) (.element e content :: f) (i :: (inside ++ ns))

theorem element?_of_data? {e : Element} (h : g.data? i = some (.element e)) : g.element? i = some e := by
  rw [element?, h]

theorem element?_of_leaf {l : Leaf} (h : g.data? i = some (.leaf l)) : g.element? i = none := by
  rw [element?, h]

namespace Shows

theorem append (h : g.Shows is f ns) (h' : g.Shows js k ms) : g.Shows (is ++ js) (f ++ k) (ns ++ ms) := by
  induction h with
  | nil => exact h'
  | leaf hd hc _ ih => exact .leaf hd hc ih
  | @element i e is inside ns content f hd hc _ _ ih =>
    have hns : i :: (inside ++ ns) ++ ms = i :: (inside ++ (ns ++ ms)) := by simp
    rw [hns]
    exact .element hd hc ih

/-- What a row stands for is seen from the nodes in it and below it. -/
theorem congr (h : g.Shows is f ns) (hsame : ∀ i ∈ ns, g'.data? i = g.data? i ∧ g'.children i = g.children i) :
    g'.Shows is f ns := by
  induction h with
  | nil => exact .nil
  | leaf hd hc _ ih =>
    rw [List.forall_mem_cons] at hsame
    exact .leaf (hsame.1.1.trans hd) (hsame.1.2.trans hc) (ih hsame.2)
  | element hd _ _ ihc ih =>
    rw [List.forall_mem_cons, List.forall_mem_append] at hsame
    have hinside := ihc hsame.2.1
    rw [← hsame.1.2] at hinside
    exact .element (hsame.1.1.trans hd) hinside (ih hsame.2.2)

theorem preorder (h : g.Shows is f ns) : g.Preorder is ns := by
  induction h with
  | nil => exact .nil
  | @leaf i l is ns f _ hc _ ih =>
    have hbelow : g.Preorder (g.children i) [] := by
      rw [hc]
      exact .nil
    exact .cons hbelow ih
  | element _ _ _ ihc ih => exact .cons ihc ih

theorem lt_size (h : g.Shows is f ns) : ∀ i ∈ ns, i < g.size := by
  induction h with
  | nil => exact List.forall_mem_nil _
  | leaf hd _ _ ih => exact List.forall_mem_cons.2 ⟨lt_size_of_data? hd, ih⟩
  | element hd _ _ ihc ih =>
    exact List.forall_mem_cons.2 ⟨lt_size_of_data? hd, List.forall_mem_append.2 ⟨ihc, ih⟩⟩

/-! ## What is read off a row -/

/-- No row is deeper than it has nodes. -/
theorem flatMap_treesAt {depth : Nat} (h : g.Shows is f ns) (hd : ns.length ≤ depth) :
    is.flatMap (g.treesAt depth) = f := by
  induction h generalizing depth with
  | nil => rfl
  | leaf hdata _ _ ih =>
    rw [List.length_cons] at hd
    obtain ⟨depth, rfl⟩ := Nat.exists_eq_add_of_le' (Nat.le_trans (Nat.le_add_left 1 _) hd)
    rw [List.flatMap_cons, ih (by omega), treesAt, hdata]
    rfl
  | element hdata _ _ ihc ih =>
    rw [List.length_cons, List.length_append] at hd
    obtain ⟨depth, rfl⟩ := Nat.exists_eq_add_of_le' (show 1 ≤ depth by omega)
    rw [List.flatMap_cons, ih (by omega), treesAt, hdata]
    dsimp only
    rw [ihc (by omega)]
    rfl

theorem ownText_eq (h : g.Shows is f ns) :
    is.flatMap (fun c => ((g.data? c).map NodeData.ownText).getD []) = f.ownText := by
  unfold Forest.ownText
  induction h with
  | nil => rfl
  | leaf hd _ _ ih =>
    rw [List.flatMap_cons, List.flatMap_cons, ih, hd]
    rfl
  | element hd _ _ _ ih =>
    rw [List.flatMap_cons, List.flatMap_cons, ih, hd]
    rfl

/-- Whether a row has an element in it. -/
theorem isNone_find?_isElement (h : g.Shows is f ns) : (is.find? g.isElement).isNone = !f.any Tree.isElement := by
  induction h with
  | nil => rfl
  | leaf hd _ _ ih =>
    rw [List.find?_cons_of_neg (by simp [isElement, element?_of_leaf hd]), ih]
    rfl
  | element hd _ _ _ _ =>
    rw [List.find?_cons_of_pos (by simp [isElement, element?_of_data? hd])]
    rfl

/-- Below a row of leaves there is nothing, and none of them is an element. -/
theorem element?_eq_none (h : g.Shows is f ns) (hf : ∀ t ∈ f, t.isElement = false) : ∀ i ∈ ns, g.element? i = none := by
  induction h with
  | nil => exact List.forall_mem_nil _
  | leaf hd _ _ ih =>
    exact List.forall_mem_cons.2 ⟨element?_of_leaf hd, ih fun t ht => hf t (List.mem_cons_of_mem _ ht)⟩
  | element _ _ _ _ _ => cases hf _ List.mem_cons_self

end Shows

/-! ## Parts of a row of children -/

/-- A part `is` of the row of children of `p`, with what it stands for, in a document without circles. -/
structure RowAt (g : Document) (p : NodeId) (before is after : List NodeId) (f : Forest) (ns : List NodeId) : Prop where
  linked : g.Linked
  forest : g.IsForest
  children : g.children p = before ++ (is ++ after)
  shows : g.Shows is f ns

namespace RowAt

theorem mem_children (h : g.RowAt p before is after f ns) (hi : i ∈ is) : i ∈ g.children p := by
  rw [h.children]
  exact List.mem_append_right _ (List.mem_append_left _ hi)

theorem nodup (h : g.RowAt p before is after f ns) : ns.Nodup := by
  have hrow := h.linked.nodup p
  rw [h.children] at hrow
  exact h.shows.preorder.nodup h.linked h.forest hrow.of_append_right.of_append_left fun c hc =>
    (h.linked.links c p).1 (h.mem_children hc)

theorem isAncestor (h : g.RowAt p before is after f ns) (hi : i ∈ ns) : g.IsAncestor p i := by
  obtain ⟨c, hc, habove⟩ := (h.shows.preorder.mem_iff h.linked).1 hi
  exact (isAncestor_iff h.linked).2 ⟨c, h.mem_children hc, habove⟩

/-- No node is below itself. -/
theorem notMem (h : g.RowAt p before is after f ns) : p ∉ ns :=
  fun hp => h.forest.not_isAncestor_self p (h.isAncestor hp)

/-- What stands beside a part of a row is not below it. -/
theorem notMem_before (h : g.RowAt p before is after f ns) (hi : i ∈ before) : i ∉ ns := by
  intro hmem
  obtain ⟨c, hc, habove⟩ := (h.shows.preorder.mem_iff h.linked).1 hmem
  have hrow : i ∈ g.children p := by
    rw [h.children]
    exact List.mem_append_left _ hi
  obtain rfl := h.forest.eq_of_siblings ((h.linked.links c p).1 (h.mem_children hc)) ((h.linked.links i p).1 hrow) habove
    (.refl g i)
  have hnodup := h.linked.nodup p
  rw [h.children] at hnodup
  exact List.disjoint_of_nodup_append hnodup hi (List.mem_append_left _ hc)

/-- No node of the second part of a row is in the first part, or where the row is. -/
theorem notMem_of_right (h : g.RowAt p before is after f (ns ++ ms)) (hi : i ∈ ms) : i ∉ p :: ns := by
  intro hmem
  rcases List.mem_cons.1 hmem with rfl | hmem
  · exact h.notMem (List.mem_append_right _ hi)
  · exact List.disjoint_of_nodup_append h.nodup hmem hi

/-- What is below a node of a row is a row of its own. -/
theorem inside (h : g.RowAt p before is after f ns) {content : Forest} {inside : List NodeId}
    (hs : g.Shows (g.children i) content inside) : g.RowAt i [] (g.children i) [] content inside :=
  ⟨h.linked, h.forest, (List.append_nil _).symm, hs⟩

end RowAt

/-! ## Whole documents -/

namespace Shows

/-- Below the root there are fewer nodes than the document has. -/
theorem length_lt_size (hl : g.Linked) (hf : g.IsForest) (hroot : root < g.size) (h : g.Shows (g.children root) f ns) :
    ns.length < g.size := by
  have hrow : g.RowAt root [] (g.children root) [] f ns := ⟨hl, hf, (List.append_nil _).symm, h⟩
  have hsub : insert root ns.toFinset ⊆ Finset.range g.size := by
    intro j hj
    rw [Finset.mem_range]
    rcases Finset.mem_insert.1 hj with rfl | hj
    · exact hroot
    · exact h.lt_size j (List.mem_toFinset.1 hj)
  have hcard := Finset.card_le_card hsub
  rw [Finset.card_insert_of_notMem (by simpa using hrow.notMem), List.toFinset_card_of_nodup hrow.nodup,
    Finset.card_range] at hcard
  exact hcard

theorem forest_eq (hl : g.Linked) (hf : g.IsForest) (hroot : g.data? root = some .document)
    (h : g.Shows (g.children root) f ns) : g.forest = f := by
  have hlen := h.length_lt_size hl hf (lt_size_of_data? hroot)
  obtain ⟨n, hn⟩ := Nat.exists_eq_add_of_le' (Nat.one_le_of_lt hlen)
  rw [forest, hn, treesAt, hroot]
  exact h.flatMap_treesAt (by omega)

theorem descendants_eq (hl : g.Linked) (hf : g.IsForest) (h : g.Shows (g.children root) f ns) :
    g.descendants root = ns :=
  (hf.walk_eq_of_preorder hl h.preorder (Nat.le_refl _)).1

end Shows

theorem shows_roots {before after : List Node} (f : Forest) {p base : Nat}
    (h : g.nodes.toList = before ++ (Forest.nodes p base f ++ after)) (hb : before.length = base) :
    g.Shows (Forest.roots base f) f (List.range' base (Forest.size f)) := by
  induction f using Forest.induct generalizing p base before after with
  | nil => exact .nil
  | leaf l ts ih =>
    obtain ⟨hnode, hts⟩ := leaf_of_toList h hb
    rw [Forest.size_leaf, List.range'_succ, Forest.roots, Tree.size]
    exact .leaf (by rw [data?, hnode]; rfl) (by rw [children, hnode]; rfl) (ih hts (by simp [hb]))
  | element e content ts ihc iht =>
    obtain ⟨hnode, hc, hts⟩ := element_of_toList h hb
    have hchildren : g.children base = Forest.roots (base + 1) content := by rw [children, hnode]; rfl
    have hinside := ihc hc (by simp [hb])
    have hmore := iht hts (by simp [hb])
    rw [Forest.size_element, Nat.add_right_comm, List.range'_succ, ← List.range'_append_1, Forest.roots, Tree.size,
      ← Nat.add_assoc, Nat.add_right_comm _ _ 1]
    rw [← Nat.add_assoc, Nat.add_right_comm] at hmore
    exact .element (by rw [data?, hnode]; rfl) (hchildren ▸ hinside) hmore

/-- The nodes of a document that is made from trees stand for these. -/
theorem shows_ofForest (f : Forest) :
    (ofForest f).Shows ((ofForest f).children root) f ((ofForest f).descendants root) := by
  rw [children_root_ofForest, descendants_ofForest]
  exact shows_roots f (toList_nodes_ofForest_append f) rfl

end MailTemplate.Document
