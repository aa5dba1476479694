import MailTemplate.Markup.Document
import MailTemplate.Proofs.Markup.Invariant
/-!
# How a document numbers its trees

The nodes of a document that is made from trees stand in document order (`toList_nodes_ofForest`): its links agree in
both directions and make up one tree (`isTree_ofForest`), in which a node's number is its place in a walk from the root
(`descendants_ofForest`), and the trees can be had back (`forest_ofForest`).
-/
namespace MailTemplate

/-! ## Trees as rows of nodes -/

mutual

/-- How many nodes a tree takes. -/
def Tree.size : Tree → Nat
  | .leaf _ => 1
  | .element _ content => Forest.size content + 1

/-- How many nodes trees take. -/
def Forest.size : List Tree → Nat
  | [] => 0
  | t :: ts => t.size + Forest.size ts

end

/-- The numbers of trees side by side, the first of which is `base`. -/
def Forest.roots (base : Nat) : List Tree → List Nat
  | [] => []
  | t :: ts => base :: Forest.roots (base + t.size) ts

mutual

/-- The nodes of a tree in document order, the first of which is `base`. -/
def Tree.nodes (parent base : Nat) : Tree → List Node
  | .leaf l => [⟨.leaf l, some parent, []⟩]
  | .element e content =>
    ⟨.element e, some parent, Forest.roots (base + 1) content⟩ :: Forest.nodes base (base + 1) content

/-- The nodes of trees in document order, the first of which is `base`. -/
def Forest.nodes (parent base : Nat) : List Tree → List Node
  | [] => []
  | t :: ts => t.nodes parent base ++ Forest.nodes parent (base + t.size) ts

end

theorem Tree.size_pos (t : Tree) : 0 < t.size := by
  cases t with
  | leaf l => exact Nat.one_pos
  | element e content => exact Nat.succ_pos _

namespace Forest

variable {f ts content : Forest} {l : Leaf} {e : Element} {p base : Nat}

theorem size_leaf : Forest.size (.leaf l :: ts) = Forest.size ts + 1 := Nat.add_comm _ _

theorem size_element : Forest.size (.element e content :: ts) = Forest.size content + 1 + Forest.size ts := rfl

theorem nodes_leaf :
    Forest.nodes p base (.leaf l :: ts) = ⟨.leaf l, some p, []⟩ :: Forest.nodes p (base + 1) ts := rfl

theorem nodes_element : Forest.nodes p base (.element e content :: ts) =
    ⟨.element e, some p, roots (base + 1) content⟩ ::
      (Forest.nodes base (base + 1) content ++ Forest.nodes p (base + (Forest.size content + 1)) ts) := rfl

@[simp]
theorem length_nodes (f : Forest) (p base : Nat) : (Forest.nodes p base f).length = Forest.size f := by
  induction f using Forest.induct generalizing p base with
  | nil => rfl
  | leaf l ts ih => rw [nodes_leaf, List.length_cons, ih, size_leaf]
  | element e content ts ihc iht =>
    rw [nodes_element, List.length_cons, List.length_append, ihc, iht, size_element]
    omega

theorem le_of_mem_roots {i : Nat} (h : i ∈ roots base f) : base ≤ i := by
  induction f generalizing base with
  | nil => cases h
  | cons t ts ih =>
    rcases List.mem_cons.1 h with rfl | h
    · exact Nat.le_refl _
    · exact Nat.le_trans (Nat.le_add_right _ _) (ih h)

theorem nodup_roots (f : Forest) (base : Nat) : (roots base f).Nodup := by
  induction f generalizing base with
  | nil => exact .nil
  | cons t ts ih =>
    refine List.nodup_cons.2 ⟨fun h => ?_, ih _⟩
    have := le_of_mem_roots h
    have := t.size_pos
    omega

end Forest

/-! ## Making a document from trees -/

theorem modify_append_cons {α : Type} (f : α → α) (a b : List α) (x : α) :
    (a ++ x :: b).modify a.length f = a ++ f x :: b :=
  List.modifyTailIdx_add (List.modifyHead f) 0 a (x :: b)

namespace Document

variable {g : Document} {before after : List Node} {n : Node} {p : Nat}

theorem children_of_toList (h : g.nodes.toList = before ++ n :: after) (hp : before.length = p) :
    g.children p = n.children := by
  rw [children, ← Array.getElem?_toList, h, ← hp]
  simp

theorem size_of_toList (h : g.nodes.toList = before ++ n :: after) : g.size = before.length + 1 + after.length := by
  rw [size, ← Array.length_toList, h, List.length_append, List.length_cons]
  omega

theorem detach_create (g : Document) (data : NodeData) : (g.create data).detach g.size = g.create data := by
  have hp : (g.create data).parent? g.size = none := by simp [parent?, create, size]
  rw [detach, hp]

/-- A new node that is made the last child of a node. -/
theorem toList_append_create (data : NodeData) (h : g.nodes.toList = before ++ n :: after) (hp : before.length = p) :
    ((g.create data).append p g.size).nodes.toList =
      before ++ { n with children := n.children ++ [g.size] } :: (after ++ [⟨data, some p, []⟩]) := by
  have hparent : ((g.create data).setParent g.size (some p)).nodes.toList =
      before ++ n :: (after ++ [⟨data, some p, []⟩]) := by
    have hl : g.size = (before ++ n :: after).length := by rw [← h, Array.length_toList, size]
    rw [setParent, update, Array.toList_modify, create, Array.toList_push, h, hl, modify_append_cons]
    simp
  rw [append, detach_create, children_of_toList hparent hp, setChildren, update, Array.toList_modify, hparent, ← hp,
    modify_append_cons]

/-- What is added at the end of a node stands at the end of the document, in document order. -/
theorem toList_graftAll (f : Forest) (h : g.nodes.toList = before ++ n :: after) (hp : before.length = p) :
    (g.graftAll p f).nodes.toList =
      before ++ { n with children := n.children ++ Forest.roots g.size f } :: (after ++ Forest.nodes p g.size f) := by
  induction f using Forest.induct generalizing g before n after p with
  | nil => simpa [graftAll, Forest.roots, Forest.nodes] using h
  | leaf l ts ih =>
    have hg := toList_append_create (.leaf l) h hp
    have hsize : ((g.create (.leaf l)).append p g.size).size = g.size + 1 := by
      rw [size_of_toList hg, size_of_toList h]
      simp
      omega
    rw [graftAll, graft, ih hg hp, hsize, Forest.nodes_leaf, Forest.roots, Tree.size]
    simp
  | element e content ts ihc iht =>
    have hg := toList_append_create (.element e) h hp
    have hsize : ((g.create (.element e)).append p g.size).size = g.size + 1 := by
      rw [size_of_toList hg, size_of_toList h]
      simp
      omega
    have hlast : (before ++ { n with children := n.children ++ [g.size] } :: after).length = g.size := by
      rw [size_of_toList h, List.length_append, List.length_cons]
      omega
    -- the content goes into the node that was just added, which is the last one
    have hopen : ((g.create (.element e)).append p g.size).nodes.toList =
        (before ++ { n with children := n.children ++ [g.size] } :: after) ++ ⟨.element e, some p, []⟩ :: [] := by
      rw [hg, List.append_assoc, List.cons_append]
    have hc := ihc hopen hlast
    rw [hsize, List.append_assoc, List.cons_append] at hc
    have hsize' : (((g.create (.element e)).append p g.size).graftAll g.size content).size =
        g.size + (Forest.size content + 1) := by
      rw [size_of_toList hc, size_of_toList h]
      simp
      omega
    rw [graftAll, graft, iht hc hp, hsize', Forest.nodes_element, Forest.roots, Tree.size]
    simp

/-- The nodes of a document made from trees are those of the trees after the root. -/
theorem toList_nodes_ofForest (f : Forest) :
    (ofForest f).nodes.toList = ⟨.document, none, Forest.roots 1 f⟩ :: Forest.nodes root 1 f :=
  toList_graftAll f (show empty.nodes.toList = [] ++ ⟨.document, none, []⟩ :: [] from rfl) rfl

end Document

/-! ## Links -/

/-- In a row of nodes that begins with number `base`, the node `i` has a property. -/
def NodeAt (ns : List Node) (base i : Nat) (P : Node → Prop) : Prop := ∃ n, (n, i) ∈ ns.zipIdx base ∧ P n

/-- In a row of nodes that begins with number `base`, the parent of `i` is `q`. -/
def IsBelow (ns : List Node) (base i q : Nat) : Prop := NodeAt ns base i fun n => n.parent = some q

/-- In a row of nodes that begins with number `base`, `i` is a child of `q`. -/
def HasChild (ns : List Node) (base q i : Nat) : Prop := NodeAt ns base q fun n => i ∈ n.children

section Links

variable {ns ms : List Node} {n : Node} {base i q : Nat}

theorem nodeAt_cons {P : Node → Prop} : NodeAt (n :: ns) base i P ↔ (i = base ∧ P n) ∨ NodeAt ns (base + 1) i P := by
  simp only [NodeAt, List.zipIdx_cons, List.mem_cons, Prod.mk.injEq]
  constructor
  · rintro ⟨m, ⟨rfl, rfl⟩ | hm, hp⟩
    · exact .inl ⟨rfl, hp⟩
    · exact .inr ⟨m, hm, hp⟩
  · rintro (⟨rfl, hp⟩ | ⟨m, hm, hp⟩)
    · exact ⟨n, .inl ⟨rfl, rfl⟩, hp⟩
    · exact ⟨m, .inr hm, hp⟩

theorem nodeAt_append {P : Node → Prop} :
    NodeAt (ns ++ ms) base i P ↔ NodeAt ns base i P ∨ NodeAt ms (base + ns.length) i P := by
  simp only [NodeAt, List.zipIdx_append, List.mem_append, or_and_right, exists_or]

theorem isBelow_cons : IsBelow (n :: ns) base i q ↔ (i = base ∧ n.parent = some q) ∨ IsBelow ns (base + 1) i q :=
  nodeAt_cons

theorem isBelow_append : IsBelow (ns ++ ms) base i q ↔ IsBelow ns base i q ∨ IsBelow ms (base + ns.length) i q :=
  nodeAt_append

theorem hasChild_cons : HasChild (n :: ns) base q i ↔ (q = base ∧ i ∈ n.children) ∨ HasChild ns (base + 1) q i :=
  nodeAt_cons

theorem hasChild_append : HasChild (ns ++ ms) base q i ↔ HasChild ns base q i ∨ HasChild ms (base + ns.length) q i :=
  nodeAt_append

/-- Among the nodes of trees, parents and children say the same, but for the roots, whose parent is elsewhere. -/
theorem Forest.isBelow_nodes_iff (f : Forest) (p base i q : Nat) :
    IsBelow (Forest.nodes p base f) base i q ↔
      (q = p ∧ i ∈ Forest.roots base f) ∨ HasChild (Forest.nodes p base f) base q i := by
  induction f using Forest.induct generalizing p base with
  | nil => simp [IsBelow, HasChild, NodeAt, Forest.nodes, Forest.roots]
  | leaf l ts ih =>
    rw [nodes_leaf, isBelow_cons, hasChild_cons, ih, Forest.roots, Tree.size]
    simp only [Option.some.injEq, List.mem_cons, List.not_mem_nil, and_false, false_or]
    simp only [and_or_left, or_assoc, and_comm, eq_comm]
  | element e content ts ihc iht =>
    rw [nodes_element, isBelow_cons, hasChild_cons, isBelow_append, hasChild_append, length_nodes, ihc,
      show base + 1 + Forest.size content = base + (Forest.size content + 1) by omega, iht, Forest.roots, Tree.size]
    simp only [Option.some.injEq, List.mem_cons]
    constructor
    · rintro (⟨rfl, rfl⟩ | (⟨rfl, h⟩ | h) | ⟨rfl, h⟩ | h)
      · exact .inl ⟨rfl, .inl rfl⟩
      · exact .inr (.inl ⟨rfl, h⟩)
      · exact .inr (.inr (.inl h))
      · exact .inl ⟨rfl, .inr h⟩
      · exact .inr (.inr (.inr h))
    · rintro (⟨rfl, rfl | h⟩ | ⟨rfl, h⟩ | h | h)
      · exact .inl ⟨rfl, rfl⟩
      · exact .inr (.inr (.inl ⟨rfl, h⟩))
      · exact .inr (.inl (.inl ⟨rfl, h⟩))
      · exact .inr (.inl (.inr h))
      · exact .inr (.inr (.inr h))

/-- The parent of a node comes before it. -/
theorem Forest.exists_parent_of_mem_nodes {f : Forest} {p : Nat} (hp : p < base)
    (h : (n, i) ∈ (Forest.nodes p base f).zipIdx base) : ∃ q, n.parent = some q ∧ q < i := by
  induction f using Forest.induct generalizing p base with
  | nil => cases h
  | leaf l ts ih =>
    rw [nodes_leaf, List.zipIdx_cons] at h
    rcases List.mem_cons.1 h with he | h
    · obtain ⟨rfl, rfl⟩ := Prod.mk.inj he
      exact ⟨p, rfl, hp⟩
    · exact ih (Nat.lt_succ_of_lt hp) h
  | element e content ts ihc iht =>
    rw [nodes_element, List.zipIdx_cons, List.zipIdx_append, length_nodes] at h
    rcases List.mem_cons.1 h with he | h
    · obtain ⟨rfl, rfl⟩ := Prod.mk.inj he
      exact ⟨p, rfl, hp⟩
    · -- the content is numbered right after its element, and the trees beside it after that
      rcases List.mem_append.1 h with h | h
      · exact ihc (Nat.lt_succ_self _) h
      · rw [show base + 1 + Forest.size content = base + (Forest.size content + 1) by omega] at h
        exact iht (Nat.lt_of_lt_of_le hp (Nat.le_add_right _ _)) h

/-- What the node of a leaf and that of an element are like. -/
theorem Forest.cases_of_mem_nodes {f : Forest} {p : Nat} (h : n ∈ Forest.nodes p base f) :
    (∃ l q, n = ⟨.leaf l, some q, []⟩) ∨ ∃ e content q b, n = ⟨.element e, some q, Forest.roots b content⟩ := by
  induction f using Forest.induct generalizing p base with
  | nil => cases h
  | leaf l ts ih =>
    rcases List.mem_cons.1 h with rfl | h
    · exact .inl ⟨l, p, rfl⟩
    · exact ih h
  | element e content ts ihc iht =>
    rw [nodes_element] at h
    rcases List.mem_cons.1 h with rfl | h
    · exact .inr ⟨e, content, p, base + 1, rfl⟩
    · exact (List.mem_append.1 h).elim ihc iht

theorem Forest.nodup_of_mem_nodes {f : Forest} {p : Nat} (h : n ∈ Forest.nodes p base f) : n.children.Nodup := by
  rcases cases_of_mem_nodes h with ⟨l, q, rfl⟩ | ⟨e, content, q, b, rfl⟩
  · exact .nil
  · exact nodup_roots content b

theorem Forest.data_ne_of_mem_nodes {f : Forest} {p : Nat} (h : n ∈ Forest.nodes p base f) : n.data ≠ .document := by
  rcases cases_of_mem_nodes h with ⟨l, q, rfl⟩ | ⟨e, content, q, b, rfl⟩ <;> exact NodeData.noConfusion

end Links

namespace Document

theorem parent?_eq_some_iff {g : Document} {i q : Nat} : g.parent? i = some q ↔ IsBelow g.nodes.toList 0 i q := by
  simp only [parent?, IsBelow, NodeAt, List.mk_mem_zipIdx_iff_getElem?, Array.getElem?_toList, Option.bind_eq_some_iff]

theorem mem_children_iff {g : Document} {i q : Nat} : i ∈ g.children q ↔ HasChild g.nodes.toList 0 q i := by
  simp only [children, HasChild, NodeAt, List.mk_mem_zipIdx_iff_getElem?, Array.getElem?_toList]
  cases g.nodes[q]? <;> simp

/-- Parents and children say the same, each child stands once under its parent, and whoever goes up from a node comes to
the root, since numbers grow on the way down. -/
structure IsTree (g : Document) : Prop where
  document : ∀ i, g.data? i = some .document ↔ i = root
  root : g.parent? root = none
  links : ∀ i p, g.parent? i = some p ↔ i ∈ g.children p
  nodup : ∀ p, (g.children p).Nodup
  below : ∀ i, Document.root < i → i < g.size → ∃ p, g.parent? i = some p ∧ p < i

/-- The root of a document made from trees, and every other node of it. -/
theorem getElem?_ofForest {f : Forest} {i : Nat} {n : Node} :
    (ofForest f).nodes[i]? = some n ↔
      (n, i) = (⟨.document, none, Forest.roots 1 f⟩, root) ∨ (n, i) ∈ (Forest.nodes root 1 f).zipIdx 1 := by
  rw [← Array.getElem?_toList, ← List.mk_mem_zipIdx_iff_getElem?, toList_nodes_ofForest, List.zipIdx_cons, List.mem_cons]
  rfl

theorem isTree_ofForest (f : Forest) : (ofForest f).IsTree where
  document i := by
    rw [data?, Option.map_eq_some_iff]
    constructor
    · rintro ⟨n, hn, hd⟩
      rcases getElem?_ofForest.1 hn with he | hn
      · exact (Prod.mk.inj he).2
      · exact absurd hd (Forest.data_ne_of_mem_nodes (List.fst_mem_of_mem_zipIdx hn))
    · rintro rfl
      exact ⟨_, getElem?_ofForest.2 (.inl rfl), rfl⟩
  root := by
    rw [parent?, getElem?_ofForest.2 (.inl rfl)]
    rfl
  links i p := by
    rw [parent?_eq_some_iff, mem_children_iff, toList_nodes_ofForest, isBelow_cons, hasChild_cons,
      Forest.isBelow_nodes_iff]
    simp [root]
  nodup p := by
    rw [children]
    cases hn : (ofForest f).nodes[p]? with
    | none => exact .nil
    | some n =>
      rcases getElem?_ofForest.1 hn with he | hn
      · obtain ⟨rfl, -⟩ := Prod.mk.inj he
        exact Forest.nodup_roots f 1
      · exact Forest.nodup_of_mem_nodes (List.fst_mem_of_mem_zipIdx hn)
  below i hi hs := by
    have hn : (ofForest f).nodes[i]? = some (ofForest f).nodes[i] := Array.getElem?_eq_getElem hs
    rcases getElem?_ofForest.1 hn with he | hm
    · exact absurd (Prod.mk.inj he).2 (Nat.ne_of_gt hi)
    · obtain ⟨q, hq, hlt⟩ := Forest.exists_parent_of_mem_nodes (Nat.one_pos) hm
      exact ⟨q, by rw [parent?, hn, Option.bind_some, hq], hlt⟩

/-! ## Walking -/

variable {g : Document} {before after : List Node}

theorem leaf_of_toList {l : Leaf} {ts : Forest} {p base : Nat}
    (h : g.nodes.toList = before ++ (Forest.nodes p base (.leaf l :: ts) ++ after)) (hb : before.length = base) :
    g.nodes[base]? = some ⟨.leaf l, some p, []⟩ ∧
      g.nodes.toList = (before ++ [⟨.leaf l, some p, []⟩]) ++ (Forest.nodes p (base + 1) ts ++ after) := by
  rw [Forest.nodes_leaf] at h
  refine ⟨?_, by rw [h]; simp⟩
  rw [← Array.getElem?_toList, h, ← hb]
  simp

/-- Where the nodes of an element stand, its content comes after it, and then the trees beside it. -/
theorem element_of_toList {e : Element} {content ts : Forest} {p base : Nat}
    (h : g.nodes.toList = before ++ (Forest.nodes p base (.element e content :: ts) ++ after))
    (hb : before.length = base) :
    g.nodes[base]? = some ⟨.element e, some p, Forest.roots (base + 1) content⟩ ∧
      g.nodes.toList = (before ++ [⟨.element e, some p, Forest.roots (base + 1) content⟩]) ++
        (Forest.nodes base (base + 1) content ++ (Forest.nodes p (base + (Forest.size content + 1)) ts ++ after)) ∧
      g.nodes.toList = (before ++ ⟨.element e, some p, Forest.roots (base + 1) content⟩ ::
        Forest.nodes base (base + 1) content) ++ (Forest.nodes p (base + (Forest.size content + 1)) ts ++ after) := by
  rw [Forest.nodes_element] at h
  refine ⟨?_, by rw [h]; simp, by rw [h]; simp⟩
  rw [← Array.getElem?_toList, h, ← hb]
  simp

/-- A walk over trees meets their nodes in the order of their numbers. -/
theorem walk_roots (f : Forest) {p base : Nat} (h : g.nodes.toList = before ++ (Forest.nodes p base f ++ after))
    (hb : before.length = base) (k : Nat) (stack : List NodeId) :
    g.walk (Forest.size f + k) (Forest.roots base f ++ stack) =
      List.range' base (Forest.size f) ++ g.walk k stack := by
  -- one step a node: what is left of `k` and of the stack is for the nodes beside the trees
  induction f using Forest.induct generalizing p base before after k stack with
  | nil =>
    rw [Forest.size, Nat.zero_add]
    rfl
  | leaf l ts ih =>
    obtain ⟨hnode, hts⟩ := leaf_of_toList h hb
    rw [Forest.size_leaf, Nat.succ_add, Forest.roots, List.cons_append, walk, children, hnode, Option.map_some,
      Option.getD_some, List.nil_append, Tree.size, ih hts (by simp [hb]), List.range'_succ, List.cons_append]
  | element e content ts ihc iht =>
    obtain ⟨hnode, hc, hts⟩ := element_of_toList h hb
    have hlen : base + (Forest.size content + 1) = base + 1 + Forest.size content := by omega
    rw [Forest.size_element, show Forest.size content + 1 + Forest.size ts + k =
        (Forest.size content + (Forest.size ts + k)) + 1 by omega, Forest.roots, List.cons_append, walk, children,
      hnode, Option.map_some, Option.getD_some, ihc hc (by simp [hb]), Tree.size, iht hts (by simp [hb]), hlen,
      ← List.append_assoc, List.range'_append_1, Nat.add_right_comm _ 1, List.range'_succ, List.cons_append]

theorem size_ofForest (f : Forest) : (ofForest f).size = Forest.size f + 1 := by
  rw [size, ← Array.length_toList, toList_nodes_ofForest, List.length_cons, Forest.length_nodes]

theorem toList_nodes_ofForest_append (f : Forest) : (ofForest f).nodes.toList =
    [⟨.document, none, Forest.roots 1 f⟩] ++ (Forest.nodes root 1 f ++ []) := by
  rw [toList_nodes_ofForest, List.append_nil, List.singleton_append]

theorem children_root_ofForest (f : Forest) : (ofForest f).children root = Forest.roots 1 f := by
  rw [children, getElem?_ofForest.2 (.inl rfl)]
  rfl

/-- The nodes below the root are met in the order of their numbers, and none is left out. -/
theorem descendants_ofForest (f : Forest) : (ofForest f).descendants root = List.range' 1 (Forest.size f) := by
  have hw := walk_roots f (toList_nodes_ofForest_append f) rfl 1 []
  rw [List.append_nil] at hw
  rw [descendants, children_root_ofForest, size_ofForest, hw, walk, List.append_nil]

/-! ## The trees again -/

theorem treesAt_roots (f : Forest) {p base depth : Nat}
    (h : g.nodes.toList = before ++ (Forest.nodes p base f ++ after)) (hb : before.length = base)
    (hd : Forest.size f ≤ depth) : (Forest.roots base f).flatMap (g.treesAt depth) = f := by
  induction f using Forest.induct generalizing p base before after depth with
  | nil => rfl
  | leaf l ts ih =>
    obtain ⟨hnode, hts⟩ := leaf_of_toList h hb
    rw [Forest.size_leaf] at hd
    obtain ⟨depth, rfl⟩ := Nat.exists_eq_add_of_le' (Nat.le_trans (Nat.le_add_left 1 _) hd)
    have hleaf : g.treesAt (depth + 1) base = [.leaf l] := by rw [treesAt, data?, hnode]; rfl
    rw [Forest.roots, List.flatMap_cons, hleaf, Tree.size, ih hts (by simp [hb]) (by omega), List.singleton_append]
  | element e content ts ihc iht =>
    obtain ⟨hnode, hc, hts⟩ := element_of_toList h hb
    rw [Forest.size_element] at hd
    obtain ⟨depth, rfl⟩ := Nat.exists_eq_add_of_le' (show 1 ≤ depth by omega)
    -- the content has fewer nodes than the element, and so is no deeper than the depth that is left
    have helement : g.treesAt (depth + 1) base = [.element e content] := by
      have hcontent := ihc hc (by simp [hb]) (show Forest.size content ≤ depth by omega)
      rw [treesAt, data?, children, hnode]
      exact congrArg (fun f => [Tree.element e f]) hcontent
    rw [Forest.roots, List.flatMap_cons, helement, Tree.size, iht hts (by simp [hb]) (by omega), List.singleton_append]

/-- A document that was made from trees stands for them. -/
theorem forest_ofForest (f : Forest) : (ofForest f).forest = f := by
  have ht := treesAt_roots f (toList_nodes_ofForest_append f) rfl (Nat.le_refl _)
  have hroot : (ofForest f).data? root = some .document := ((isTree_ofForest f).document root).2 rfl
  rw [forest, size_ofForest, treesAt, hroot]
  dsimp only
  rw [children_root_ofForest, ht]

end Document

/-! ## Well-formed documents -/

theorem Forest.exists_tree_of_mem_nodes {f : Forest} {p base : Nat} {n : Node} (h : n ∈ Forest.nodes p base f) :
    ∃ t ∈ f, ∃ b, n ∈ t.nodes p b := by
  induction f generalizing base with
  | nil => cases h
  | cons t ts ih =>
    rcases List.mem_append.1 h with h | h
    · exact ⟨t, List.mem_cons_self, base, h⟩
    · obtain ⟨u, hu, hn⟩ := ih h
      exact ⟨u, List.mem_cons_of_mem t hu, hn⟩

/-- Only elements that are not void have anything in them. -/
theorem Tree.WellFormed.exists_element_of_mem_nodes {d : Dialect} {above : List Text} {t : Tree}
    (h : t.WellFormed d above) {p base : Nat} {n : Node} (hn : n ∈ t.nodes p base) (hc : n.children ≠ []) :
    ∃ e, n.data = .element e ∧ e.isVoid = false := by
  induction h generalizing p base with
  | leaf =>
    rw [List.mem_singleton.1 hn] at hc
    exact absurd rfl hc
  | void =>
    rw [List.mem_singleton.1 hn] at hc
    exact absurd rfl hc
  | @raw _ e _ _ _ hv _ hraw =>
    rcases List.mem_cons.1 hn with rfl | hn
    · exact ⟨e, rfl, hv⟩
    · rcases hraw with rfl | ⟨t, -, rfl, -⟩
      · cases hn
      · rw [List.mem_singleton.1 hn] at hc
        exact absurd rfl hc
  | @element _ e _ _ _ hv _ _ _ ih =>
    rcases List.mem_cons.1 hn with rfl | hn
    · exact ⟨e, rfl, hv⟩
    · obtain ⟨t, ht, b, hb⟩ := Forest.exists_tree_of_mem_nodes hn
      exact ih t ht hb

/-- Documents that a template can say. -/
structure Document.WellFormed (d : Dialect) (g : Document) : Prop where
  isTree : g.IsTree
  /-- The number of a node is its place in document order. -/
  inOrder : g.descendants root = List.range' 1 (g.size - 1)
  /-- Only the root and elements that are not void have children. -/
  childless : ∀ i, g.children i ≠ [] → i = root ∨ ∃ e, g.data? i = some (.element e) ∧ e.isVoid = false
  trees : Forest.WellFormed d [] g.forest

theorem Document.wellFormed_ofForest {d : Dialect} {f : Forest} (h : Forest.WellFormed d [] f) :
    (ofForest f).WellFormed d where
  isTree := isTree_ofForest f
  inOrder := by rw [descendants_ofForest, size_ofForest, Nat.add_sub_cancel]
  childless := by
    intro i hc
    rw [children, data?] at *
    cases hn : (ofForest f).nodes[i]? with
    | none =>
      rw [hn] at hc
      exact absurd rfl hc
    | some n =>
      rw [hn] at hc
      rcases getElem?_ofForest.1 hn with he | hm
      · exact .inl (Prod.mk.inj he).2
      · obtain ⟨t, ht, b, hb⟩ := Forest.exists_tree_of_mem_nodes (List.fst_mem_of_mem_zipIdx hm)
        obtain ⟨e, he, hv⟩ := (h.trees t ht).exists_element_of_mem_nodes hb hc
        exact .inr ⟨e, by rw [Option.map_some, he], hv⟩
  trees := by rwa [forest_ofForest]

end MailTemplate
