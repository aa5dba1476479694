import MailTemplate.Proofs.Css.Meaning
import MailTemplate.Proofs.Markup.Showing
import MailTemplate.Style.InPlace
/-!
# Styling a document

Styling changes what elements hold, and no links (`SameLinks`). What can be seen from a node does not change while
elements below it are styled (`SameLinks.levels_eq`), so that each node of a row is matched as the element is that it
stands for. What the row stands for afterwards are the styled trees (`RowAt.styled`).
-/
namespace MailTemplate.Document

variable {g g' g'' : Document} {p i j : NodeId} {before is ns ms : List NodeId} {f : Forest} {e : Element}

/-! ## What stays -/

/-- Whether two documents have the same links, and the same in all nodes but `ns`. -/
structure SameLinks (g g' : Document) (ns : List NodeId) : Prop where
  size : g'.size = g.size
  parent? : ∀ i, g'.parent? i = g.parent? i
  children : ∀ i, g'.children i = g.children i
  data : ∀ i, i ∉ ns → g'.data? i = g.data? i

namespace SameLinks

theorem refl (g : Document) (ns : List NodeId) : g.SameLinks g ns :=
  ⟨rfl, fun _ => rfl, fun _ => rfl, fun _ _ => rfl⟩

theorem trans (h : g.SameLinks g' ns) (h' : g'.SameLinks g'' ms) : g.SameLinks g'' (ns ++ ms) where
  size := h'.size.trans h.size
  parent? i := (h'.parent? i).trans (h.parent? i)
  children i := (h'.children i).trans (h.children i)
  data i hi := by
    rw [List.mem_append, not_or] at hi
    exact (h'.data i hi.2).trans (h.data i hi.1)

variable (h : g.SameLinks g' ns)

include h

theorem linked (hl : g.Linked) : g'.Linked where
  links c q := by rw [h.children, h.parent?, hl.links]
  nodup q := by
    rw [h.children]
    exact hl.nodup q

theorem isForest (hf : g.IsForest) : g'.IsForest := hf.unlink fun i q hq => by rwa [h.parent?] at hq

theorem shows (hs : g.Shows is f ms) (hno : ∀ i ∈ ms, i ∉ ns) : g'.Shows is f ms :=
  hs.congr fun i hi => ⟨h.data i (hno i hi), h.children i⟩

theorem element? (hi : i ∉ ns) : g'.element? i = g.element? i := by
  rw [Document.element?, Document.element?, h.data i hi]

theorem filterMap_element? (hno : ∀ i ∈ ms, i ∉ ns) : ms.filterMap g'.element? = ms.filterMap g.element? :=
  List.filterMap_congr fun i hi => h.element? (hno i hi)

theorem earlierSiblings (i : NodeId) : g'.earlierSiblings i = g.earlierSiblings i := by
  simp only [Document.earlierSiblings, h.parent?, h.children]

theorem laterSiblings (i : NodeId) : g'.laterSiblings i = g.laterSiblings i := by
  simp only [Document.laterSiblings, h.parent?, h.children]

end SameLinks

/-! ## What is seen from above -/

/-- A node that stands beside another one is not below it. -/
theorem IsForest.not_isAncestor_sibling (hf : g.IsForest) (hi : g.parent? i = some p) (hj : g.parent? j = some p) :
    ¬ g.IsAncestor i j := by
  intro h
  obtain rfl := hf.eq_of_siblings hi hj (isAtOrAbove_iff.2 (.inr h)) (.refl g j)
  exact hf.not_isAncestor_self i h

/-- The siblings of a node have its parent. -/
theorem Linked.parent?_of_mem_siblings (hl : g.Linked) (h : j ∈ g.earlierSiblings i ∨ j ∈ g.laterSiblings i) :
    ∃ p, g.parent? i = some p ∧ g.parent? j = some p := by
  obtain ⟨p, before, after, hrow, hearlier, hlater⟩ := hl.exists_siblings_eq h
  refine ⟨p, (hl.links i p).1 (by simp [hrow]), (hl.links j p).1 ?_⟩
  rw [hearlier, hlater, List.mem_reverse] at h
  rw [hrow]
  simp only [List.mem_append, List.mem_cons]
  exact h.imp_right .inr

/-- A node stands as it stood while only nodes below it change: none of these is beside it. -/
theorem SameLinks.level?_eq (h : g.SameLinks g' ns) (hl : g.Linked) (hf : g.IsForest)
    (hbelow : ∀ i ∈ ns, g.IsAncestor p i) : g'.level? p = g.level? p := by
  have hp : p ∉ ns := fun hmem => hf.not_isAncestor_self p (hbelow p hmem)
  have hsiblings : ∀ j, j ∈ g.earlierSiblings p ∨ j ∈ g.laterSiblings p → g'.element? j = g.element? j := by
    intro j hj
    obtain ⟨q, hq, hq'⟩ := hl.parent?_of_mem_siblings hj
    exact h.element? fun hmem => hf.not_isAncestor_sibling hq hq' (hbelow j hmem)
  have hearlier : (g.earlierSiblings p).filterMap g'.element? = (g.earlierSiblings p).filterMap g.element? :=
    List.filterMap_congr fun j hj => hsiblings j (.inl hj)
  have hlater : (g.laterSiblings p).find? g'.isElement = (g.laterSiblings p).find? g.isElement :=
    List.find?_congr fun j hj => congrArg Option.isSome (hsiblings j (.inr hj))
  rw [level?, level?, h.element? hp, nextElement?, nextElement?, h.earlierSiblings, h.laterSiblings, hearlier, hlater]

/-- What can be seen from a node does not change while only nodes below it do. -/
theorem SameLinks.levels_eq (h : g.SameLinks g' ns) (hl : g.Linked) (hf : g.IsForest)
    (hbelow : ∀ i ∈ ns, g.IsAncestor p i) (n : Nat) : g'.levels n p = g.levels n p := by
  induction n generalizing p with
  | zero => rfl
  | succ n ih =>
    have habove : (g'.parentElement? p).map (g'.levels n) = (g.parentElement? p).map (g.levels n) := by
      rw [parentElement?, parentElement?, h.parent?]
      cases hq : g.parent? p with
      | none => rfl
      | some q =>
        have hbelow' : ∀ i ∈ ns, g.IsAncestor q i := by
          intro i hi
          obtain ⟨m, hm⟩ := hbelow i hi
          refine ⟨m + 1, ?_⟩
          rw [climb_add, hm, Option.bind_some, climb_of_some hq, climb]
        have hno : q ∉ ns := fun hmem => hf.not_isAncestor_self q (hbelow' q hmem)
        have hkind : g'.isElement q = g.isElement q := congrArg Option.isSome (h.element? hno)
        rw [Option.filter_some, Option.filter_some, hkind]
        split
        · rw [Option.map_some, Option.map_some, ih hbelow']
        · rfl
    rw [levels, levels, h.level?_eq hl hf hbelow, habove]

/-! ## One element -/

section Element

variable {d : Dialect} {sheet : Css.Stylesheet} {more : Forest}

/-- What can be seen from an element of a row: what stands before it, whether an element comes after it, and what can be
seen from the node that the row is in. -/
theorem RowAt.levels_eq (h : g.RowAt p before (i :: is) [] f ns) (he : g.element? i = some e)
    (hs : g.Shows is more ms) : g.levels g.size i =
      ⟨e, before.reverse.filterMap g.element?, !more.any Tree.isElement⟩ :: g.levels g.size p := by
  have hrow : g.children p = before ++ i :: is := by
    rw [h.children, List.append_nil]
  obtain ⟨hearlier, hlater⟩ := h.linked.siblings_eq hrow
  have hp : g.parent? i = some p := (h.linked.links i p).1 (h.mem_children List.mem_cons_self)
  have habove : ((g.parentElement? i).map (g.levels g.size)).getD [] = g.levels g.size p := by
    rw [parentElement?, hp, Option.filter_some]
    split
    · rfl
    · next hno => exact (levels_of_no_element (by simpa [isElement] using hno) _).symm
  rw [levels_of_element? h.forest h.linked he, habove, hearlier, nextElement?, hlater, hs.isNone_find?_isElement]

theorem declarationsFor_eq (hl : g.Linked) (hf : g.IsForest) {q : Place} (hq : g.place? g.size i = some q) :
    g.declarationsFor d sheet i = MailTemplate.declarationsFor d sheet q := by
  have hselects : ∀ s : Css.Selector, s.selectsNode d g i = s.selects d q := by
    intro s
    rw [Css.Selector.selectsNode_eq hf hl, hq, Option.any_some]
  simp only [declarationsFor, MailTemplate.declarationsFor, hselects]

theorem data?_setElement (hi : i < g.size) (e : Element) (j : NodeId) :
    (g.setElement i e).data? j = if j = i then some (.element e) else g.data? j := by
  simp only [data?, setElement, update, Array.getElem?_modify]
  split
  · next h =>
    subst h
    have hn : g.nodes[i]? = some g.nodes[i] := Array.getElem?_eq_getElem hi
    rw [if_pos rfl, hn]
    rfl
  · next h => rw [if_neg (Ne.symm h)]

theorem sameLinks_setElement (hi : i < g.size) (e : Element) : g.SameLinks (g.setElement i e) [i] where
  size := by simp [size, setElement, update]
  parent? j := by
    simp only [Document.parent?, setElement, update, Array.getElem?_modify]
    split
    · cases g.nodes[j]? <;> rfl
    · rfl
  children j := by
    simp only [Document.children, setElement, update, Array.getElem?_modify]
    split
    · cases g.nodes[j]? <;> rfl
    · rfl
  data j hj := by rw [data?_setElement hi, if_neg (List.mem_singleton.not.1 hj)]

/-- Styling a node is styling the element at its place. -/
theorem styleAt_eq (hl : g.Linked) (hf : g.IsForest) {q : Place} (he : g.element? i = some q.element)
    (hq : g.place? g.size i = some q) : g.styleAt d sheet i =
      match styledElement? d sheet q with
      | none => (g, [])
      | some e => (g.setElement i e, [q.element.ownStyle d]) := by
  rw [styleAt, he, styledElement?, declarationsFor_eq hl hf hq]
  cases MailTemplate.declarationsFor d sheet q <;> rfl

theorem styleAt_frame (d : Dialect) (sheet : Css.Stylesheet) (hl : g.Linked) (hf : g.IsForest) {q : Place}
    (he : g.data? i = some (.element q.element)) (hq : g.place? g.size i = some q) : ∃ g', g.styleAt d sheet i =
      (g', if (styledElement? d sheet q).isSome then [q.element.ownStyle d] else []) ∧ g.SameLinks g' [i] ∧
        g'.data? i = some (.element ((styledElement? d sheet q).getD q.element)) := by
  rw [styleAt_eq hl hf (element?_of_data? he) hq]
  cases styledElement? d sheet q with
  | none => exact ⟨g, rfl, .refl g [i], he⟩
  | some e =>
    have hi : i < g.size := lt_size_of_data? he
    refine ⟨g.setElement i e, rfl, sameLinks_setElement hi e, ?_⟩
    rw [data?_setElement hi, if_pos rfl]
    rfl

end Element

/-! ## A row -/

theorem styleAll_append (d : Dialect) (sheet : Css.Stylesheet) (g : Document) (ns ms : List NodeId) :
    g.styleAll d sheet (ns ++ ms) =
      (((g.styleAll d sheet ns).1.styleAll d sheet ms).1,
        (g.styleAll d sheet ns).2 ++ ((g.styleAll d sheet ns).1.styleAll d sheet ms).2) := by
  induction ns generalizing g with
  | nil => rfl
  | cons i ns ih => simp only [List.cons_append, styleAll, ih, List.append_assoc]

/-- While only nodes of a row and below it change, the same is seen from where the row is, and the same before it. -/
theorem RowAt.seen {after : List NodeId} (h : g.RowAt p before is after f ns) (hsame : g.SameLinks g' ms)
    (hms : ∀ j ∈ ms, j ∈ ns) : g'.levels g'.size p = g.levels g.size p ∧
      before.reverse.filterMap g'.element? = before.reverse.filterMap g.element? := by
  refine ⟨?_, hsame.filterMap_element? fun j hj hmem => h.notMem_before (List.mem_reverse.1 hj) (hms j hmem)⟩
  rw [hsame.size, hsame.levels_eq h.linked h.forest fun j hj => h.isAncestor (hms j hj)]

/-- The nodes after the first one stand for what they stood for, whatever becomes of the first one. -/
theorem RowAt.rest {inside : List NodeId} {more : Forest} (h : g.RowAt p before (i :: is) [] f (i :: (inside ++ ns)))
    (hs : g.Shows is more ns) (hsame : g.SameLinks g' (i :: inside)) : g'.RowAt p (before ++ [i]) is [] more ns := by
  have hparts : g.RowAt p before (i :: is) [] f ((i :: inside) ++ ns) := h
  have hno : ∀ j ∈ ns, j ∉ i :: inside := fun j hj hmem => hparts.notMem_of_right hj (List.mem_cons_of_mem p hmem)
  refine ⟨hsame.linked h.linked, hsame.isForest h.forest, ?_, hsame.shows hs hno⟩
  rw [hsame.children, h.children, List.append_nil, List.append_nil, List.append_assoc]
  rfl

/-- Styling an element of a row: what is in it stands for what it stood for, and sees the element as it is styled. -/
theorem RowAt.styleAt (d : Dialect) (sheet : Css.Stylesheet) {inside : List NodeId} {content more : Forest}
    {above : List Level} {earlier : List Element}
    (h : g.RowAt p before (i :: is) [] (.element e content :: more) (i :: (inside ++ ns)))
    (hd : g.data? i = some (.element e)) (hc : g.Shows (g.children i) content inside) (hs : g.Shows is more ns)
    (habove : g.levels g.size p = above) (hearlier : before.reverse.filterMap g.element? = earlier) {styled : Option Element}
    (hstyled : styledElement? d sheet ⟨⟨e, earlier, !more.any Tree.isElement⟩, above⟩ = styled) :
    ∃ g', g.styleAt d sheet i = (g', if styled.isSome then [e.ownStyle d] else []) ∧ g.SameLinks g' [i] ∧
      g'.data? i = some (.element (styled.getD e)) ∧ g'.RowAt i [] (g'.children i) [] content inside ∧
      g'.levels g'.size i = ⟨styled.getD e, earlier, !more.any Tree.isElement⟩ :: above := by
  obtain ⟨hi, -⟩ := List.nodup_cons.1 h.nodup
  have hno : ∀ j ∈ inside ++ ns, j ∉ [i] := fun j hj hmem => hi (List.mem_singleton.1 hmem ▸ hj)
  have hlevels := h.levels_eq (element?_of_data? hd) hs
  rw [habove, hearlier] at hlevels
  have hplace : g.place? g.size i = some ⟨⟨e, earlier, !more.any Tree.isElement⟩, above⟩ := by
    rw [place?, hlevels]
    rfl
  obtain ⟨g', hat, hsame, hdata⟩ := styleAt_frame d sheet h.linked h.forest hd hplace
  rw [hstyled] at hat hdata
  dsimp only [Place.element] at hat hdata
  have hc' : g'.Shows (g'.children i) content inside := by
    rw [hsame.children]
    exact hsame.shows hc fun j hj => hno j (List.mem_append_left _ hj)
  have hs' : g'.Shows is more ns := hsame.shows hs fun j hj => hno j (List.mem_append_right _ hj)
  have hrow : g'.RowAt p before (i :: is) [] (.element (styled.getD e) content :: more) (i :: (inside ++ ns)) :=
    ⟨hsame.linked h.linked, hsame.isForest h.forest, (hsame.children p).trans h.children, .element hdata hc' hs'⟩
  refine ⟨g', hat, hsame, hdata, hrow.inside hc', ?_⟩
  obtain ⟨habove', hearlier'⟩ := h.seen hsame (by simp)
  rw [hrow.levels_eq (element?_of_data? hdata) hs', habove', hearlier', habove, hearlier]

/-- Whether styling the nodes of a row styles the trees that it stands for, which are seen from `above` and stand after
the elements `earlier`. -/
def StylesRow (d : Dialect) (sheet : Css.Stylesheet) (g : Document) (is ns : List NodeId) (above : List Level)
    (earlier : List Element) (f : Forest) : Prop :=
  ∃ g', g.styleAll d sheet ns = (g', (styleForest d sheet above earlier f).former) ∧ g.SameLinks g' ns ∧
    g'.Shows is (styleForest d sheet above earlier f).trees ns

section Row

variable {d : Dialect} {sheet : Css.Stylesheet} {above : List Level} {earlier : List Element} {more : Forest}
  (habove : g.levels g.size p = above) (hearlier : before.reverse.filterMap g.element? = earlier)

include habove hearlier

theorem RowAt.styled_leaf {l : Leaf} (h : g.RowAt p before (i :: is) [] (.leaf l :: more) (i :: ns))
    (hd : g.data? i = some (.leaf l)) (hc : g.children i = []) (hs : g.Shows is more ns)
    (ih : g.RowAt p (before ++ [i]) is [] more ns → g.levels g.size p = above →
      (before ++ [i]).reverse.filterMap g.element? = earlier → StylesRow d sheet g is ns above earlier more) :
    StylesRow d sheet g (i :: is) (i :: ns) above earlier (.leaf l :: more) := by
  have hsame : g.SameLinks g [i] := .refl g [i]
  have hrest : (before ++ [i]).reverse.filterMap g.element? = earlier := by
    rw [List.reverse_concat, List.filterMap_cons_none (element?_of_leaf hd), hearlier]
  obtain ⟨g', hrun, hframe, hshows⟩ := ih (h.rest hs hsame) habove hrest
  have hi : i ∉ ns := (List.nodup_cons.1 h.nodup).1
  rw [StylesRow, styleForest]
  refine ⟨g', ?_, hsame.trans hframe, .leaf ((hframe.data i hi).trans hd) ((hframe.children i).trans hc) hshows⟩
  rw [styleAll, Document.styleAt, element?_of_leaf hd]
  dsimp only
  rw [hrun]
  rfl

theorem RowAt.styled_element {inside : List NodeId} {content : Forest}
    (h : g.RowAt p before (i :: is) [] (.element e content :: more) (i :: (inside ++ ns)))
    (hd : g.data? i = some (.element e)) (hc : g.Shows (g.children i) content inside) (hs : g.Shows is more ns)
    (ihc : ∀ {g : Document} {above : List Level}, g.RowAt i [] (g.children i) [] content inside →
      g.levels g.size i = above → StylesRow d sheet g (g.children i) inside above [] content)
    (ih : ∀ {g : Document} {earlier : List Element}, g.RowAt p (before ++ [i]) is [] more ns →
      g.levels g.size p = above → (before ++ [i]).reverse.filterMap g.element? = earlier →
        StylesRow d sheet g is ns above earlier more) :
    StylesRow d sheet g (i :: is) (i :: (inside ++ ns)) above earlier (.element e content :: more) := by
  obtain ⟨hi, hnodup⟩ := List.nodup_cons.1 h.nodup
  rw [List.mem_append, not_or] at hi
  rw [StylesRow, styleForest]
  -- the element itself
  obtain ⟨g₁, hat, hsame₁, hdata₁, hrow₁, hlevels₁⟩ := h.styleAt d sheet hd hc hs habove hearlier rfl
  dsimp only
  generalize styledElement? d sheet ⟨⟨e, earlier, !more.any Tree.isElement⟩, above⟩ = styled at hat hdata₁ hlevels₁ ⊢
  generalize styled.getD e = e' at hdata₁ hlevels₁ ⊢
  -- what is in it
  obtain ⟨g₂, hrun₂, hsame₂, hshows₂⟩ := ihc hrow₁ hlevels₁
  have hdata₂ : g₂.data? i = some (.element e') := (hsame₂.data i hi.1).trans hdata₁
  -- what comes after it
  have hsame : g.SameLinks g₂ (i :: inside) := hsame₁.trans hsame₂
  obtain ⟨habove₂, hearlier₂⟩ := h.seen hsame fun j hj => by
    simp only [List.mem_cons, List.mem_append] at hj ⊢
    exact hj.imp_right .inl
  have hrest : (before ++ [i]).reverse.filterMap g₂.element? = e' :: earlier := by
    rw [List.reverse_concat, List.filterMap_cons_some (element?_of_data? hdata₂), hearlier₂, hearlier]
  obtain ⟨g₃, hrun₃, hsame₃, hshows₃⟩ := ih (h.rest hs hsame) (habove₂.trans habove) hrest
  have hinside := hsame₃.shows hshows₂ fun j hj => List.disjoint_of_nodup_append hnodup hj
  rw [← hsame₂.children, ← hsame₃.children] at hinside
  refine ⟨g₃, ?_, hsame.trans hsame₃, .element ((hsame₃.data i hi.2).trans hdata₂) hinside hshows₃⟩
  rw [styleAll, hat]
  dsimp only
  rw [styleAll_append, hrun₂]
  dsimp only
  rw [hrun₃, List.append_assoc]

end Row

/-- Styling the nodes of a row styles the trees that it stands for. -/
theorem RowAt.styled (d : Dialect) (sheet : Css.Stylesheet) (h : g.RowAt p before is [] f ns) {above : List Level}
    {earlier : List Element} (habove : g.levels g.size p = above)
    (hearlier : before.reverse.filterMap g.element? = earlier) : StylesRow d sheet g is ns above earlier f := by
  induction f using Forest.induct generalizing g p before is ns above earlier with
  | nil =>
    rw [StylesRow, styleForest]
    cases h.shows
    exact ⟨g, rfl, .refl g [], .nil⟩
  | leaf l ts ih =>
    cases h.shows with
    | leaf hd hc hs =>
      exact h.styled_leaf habove hearlier hd hc hs fun hrow hlevels hbefore => ih hrow hlevels hbefore
  | element e content ts ihc ih =>
    cases h.shows with
    | element hd hc hs =>
      exact h.styled_element habove hearlier hd hc hs (fun hrow hlevels => ihc hrow hlevels rfl)
        fun hrow hlevels hbefore => ih hrow hlevels hbefore

end MailTemplate.Document
