import MailTemplate.Css.Matching
import MailTemplate.Css.SelectorParser
import MailTemplate.Proofs.Markup.Names
import MailTemplate.Proofs.Markup.Surroundings
import MailTemplate.Proofs.Text.Cutting
/-!
# What selectors mean

A selector selects a node if there is a row of elements, ending in that node, of which each is as its compound says, and
stands to the next as the combinator between their compounds says (`Selector.Describes`). The search for such a row comes
to an end, and finds one if there is one (`selectsNode_iff`).
-/
namespace MailTemplate.Css

variable {g : Document} {d : Dialect} {i x y : NodeId} {p q : Place}

/-! ## Conditions -/

/-- Whether a value is as a comparison with `operand` wants it. -/
def Comparison.Holds (value operand : Text) : Comparison → Prop
  | equal => value = operand
  | word => operand ∈ Text.words value
  | dash => value = operand ∨ operand ++ ['-'] <+: value
  | start => operand ≠ [] ∧ operand <+: value
  | finish => operand ≠ [] ∧ operand <:+ value
  | within => operand ≠ [] ∧ operand <:+: value

/-- Whether a condition holds of a node that holds the element `e`. -/
def Simple.Describes (d : Dialect) (g : Document) (x : NodeId) (e : Element) : Simple → Prop
  | id name => e.attribute? "id".toList = some name
  | ofClass name => ∃ value, e.attribute? "class".toList = some value ∧ name ∈ Text.words value
  | present name => ∃ value, e.attributeIn? d name = some value
  | compare name k operand => ∃ value, e.attributeIn? d name = some value ∧ k.Holds value operand
  | firstChild => ∀ y between, g.StandsBefore y between x → g.isElement y = false
  | lastChild => ∀ y between, g.StandsBefore x between y → g.isElement y = false

/-- Whether a compound describes a node. -/
def Compound.Describes (d : Dialect) (g : Document) (c : Compound) (x : NodeId) : Prop :=
  ∃ e, g.element? x = some e ∧ (∀ name, c.type = some name → d.sameName name e.name = true) ∧
    ∀ s ∈ c.conditions, s.Describes d g x e

/-- How `x` stands to `y` where a combinator stands between their compounds; `IsAbove` says what counts as being above. -/
def Combinator.Relates (g : Document) (IsAbove : NodeId → NodeId → Prop) (x y : NodeId) : Combinator → Prop
  | descendant => IsAbove x y
  | child => g.parent? y = some x
  | adjacent => ∃ between, g.StandsBefore x between y ∧ ∀ z ∈ between, g.isElement z = false
  | sibling => ∃ between, g.StandsBefore x between y

/-! ## Selectors -/

/-- The compounds in the order in which they are written. -/
def Selector.compounds (s : Selector) : List Compound := (s.subject :: s.context.map Prod.snd).reverse

/-- The combinators in the order in which they are written, each between two compounds. -/
def Selector.combinators (s : Selector) : List Combinator := (s.context.map Prod.fst).reverse

/-- Whether nodes are, one by one, as the compounds say, and each stands to the next as the combinator between them
says. -/
structure Selector.Describes (d : Dialect) (g : Document) (IsAbove : NodeId → NodeId → Prop) (s : Selector)
    (xs : List NodeId) : Prop where
  compounds : List.Forall₂ (fun c x => c.Describes d g x) s.compounds xs
  combinators : ∀ n k x y, s.combinators[n]? = some k → xs[n]? = some x → xs[n + 1]? = some y → k.Relates g IsAbove x y

/-- Compounds and combinators are those that have been read, in order. -/
theorem Selector.parts_ofParts (source : Text) (c : Compound) (more : List (Combinator × Compound)) :
    (Selector.ofParts source c more).compounds = c :: more.map Prod.snd ∧
      (Selector.ofParts source c more).combinators = more.map Prod.fst := by
  have hfold : ∀ (last : Compound) (context : List (Combinator × Compound)),
      let parts := more.foldl (fun read part => (part.2, (part.1, read.1) :: read.2)) (last, context)
      (parts.1 :: parts.2.map Prod.snd).reverse = (last :: context.map Prod.snd).reverse ++ more.map Prod.snd ∧
        (parts.2.map Prod.fst).reverse = (context.map Prod.fst).reverse ++ more.map Prod.fst := by
    induction more with
    | nil => simp
    | cons part more ih =>
      intro last context
      obtain ⟨hcompounds, hcombinators⟩ := ih part.2 ((part.1, last) :: context)
      exact ⟨by simpa using hcompounds, by simpa using hcombinators⟩
  exact hfold c []

/-! ## What is looked at -/

theorem Comparison.holds_iff {k : Comparison} {value operand : Text} :
    k.holds value operand = true ↔ k.Holds value operand := by
  cases k with
  | equal => simp [holds, Holds]
  | word => simp [holds, Holds]
  | dash => simp [holds, Holds]
  | start => simp [holds, Holds]
  | finish => simp [holds, Holds]
  | within =>
    rw [holds, Holds, Bool.and_eq_true, ← Option.ne_none_iff_isSome, ne_eq, Text.cut?_eq_none_iff, not_not]
    simp

section Forest

variable (hf : g.IsForest) (hl : g.Linked)

include hf hl

theorem Simple.holds_iff (h : g.place? g.size x = some p) {s : Simple} :
    s.holds d p = true ↔ s.Describes d g x p.element := by
  obtain ⟨e, he, rfl⟩ := Document.exists_of_place? hf hl h
  cases s with
  | id name => exact beq_iff_eq
  | ofClass name =>
    simp only [holds, Describes, Element.hasClass, Place.element]
    cases e.attribute? "class".toList with
    | none => simp
    | some value => simp
  | present name => exact Option.isSome_iff_exists
  | compare name k operand =>
    simp only [holds, Describes, Place.element]
    cases e.attributeIn? d name with
    | none => simp
    | some value => simp [Comparison.holds_iff]
  | firstChild =>
    have hempty : ∀ ys : List NodeId, (ys.filterMap g.element?).isEmpty = true ↔ ∀ y ∈ ys, g.isElement y = false := by
      intro ys
      simp [Document.isElement]
    simp only [holds, Describes, hempty, hl.mem_earlierSiblings_iff, forall_exists_index]
  | lastChild =>
    have hnone : (g.nextElement? x).isNone = true ↔ ∀ y ∈ g.laterSiblings x, g.isElement y = false := by
      simp [Document.nextElement?]
    simp only [holds, Describes, hnone, hl.mem_laterSiblings_iff, forall_exists_index]

theorem Compound.holds_iff (h : g.place? g.size x = some p) {c : Compound} :
    c.holds d p = true ↔ c.Describes d g x := by
  obtain ⟨e, he, hp⟩ := Document.exists_of_place? hf hl h
  have helement : p.element = e := by rw [hp]; rfl
  have hconditions : (c.conditions.all (·.holds d p)) = true ↔ ∀ s ∈ c.conditions, s.Describes d g x e := by
    simp only [List.all_eq_true, Simple.holds_iff hf hl h, helement]
  rw [holds, Bool.and_eq_true, hconditions, Describes]
  simp only [he, Option.some.injEq, exists_eq_left']
  cases c.type with
  | none => simp
  | some name => simp [helement]

/-- The candidates for a compound are the places of the elements that stand as its combinator says. -/
theorem Combinator.mem_candidates_iff (h : g.place? g.size y = some p) {k : Combinator} :
    q ∈ k.candidates p ↔ ∃ x, k.Relates g g.Encloses x y ∧ g.place? g.size x = some q := by
  have hplace : ∀ {x}, g.place? g.size x = some q → g.isElement x = true := by
    intro x hx
    rw [← Document.isSome_place?_iff hf hl, hx]
    rfl
  cases k with
  | descendant => exact Document.mem_ancestors_iff hf hl h
  | child =>
    rw [candidates, Option.mem_toList, Document.parent?_of_place? hf hl h, Option.bind_eq_some_iff]
    constructor
    · rintro ⟨x, hx, hq⟩
      exact ⟨x, (Document.parentElement?_eq_some_iff.1 hx).1, hq⟩
    · rintro ⟨x, hx, hq⟩
      exact ⟨x, Document.parentElement?_eq_some_iff.2 ⟨hx, hplace hq⟩, hq⟩
  | adjacent =>
    rw [candidates, Option.mem_toList, Document.previous?_of_place? hf hl h, Option.bind_eq_some_iff]
    constructor
    · rintro ⟨x, hx, hq⟩
      exact ⟨x, (hl.previousElement?_eq_some_iff (hplace hq)).1 hx, hq⟩
    · rintro ⟨x, hx, hq⟩
      exact ⟨x, (hl.previousElement?_eq_some_iff (hplace hq)).2 hx, hq⟩
  | sibling =>
    rw [candidates, Document.earlier_of_place? hf hl h, List.mem_filterMap]
    simp only [hl.mem_earlierSiblings_iff, Relates]

/-! ## The search -/

omit hf hl in
/-- Whether nodes for the compounds before the one at `y` can be found. -/
def LeadsTo (d : Dialect) (g : Document) (IsAbove : NodeId → NodeId → Prop) (y : NodeId) :
    List (Combinator × Compound) → Prop
  | [] => True
  | (k, c) :: context => ∃ x, k.Relates g IsAbove x y ∧ c.Describes d g x ∧ LeadsTo d g IsAbove x context

theorem exists_place? {c : Compound} (h : c.Describes d g x) : ∃ q, g.place? g.size x = some q := by
  obtain ⟨e, he, -⟩ := h
  exact ⟨_, Document.place?_of_element? hf hl he⟩

theorem matchContext_iff (h : g.place? g.size y = some p) {context : List (Combinator × Compound)} :
    matchContext d p context = true ↔ LeadsTo d g g.Encloses y context := by
  induction context generalizing y p with
  | nil => simp [matchContext, LeadsTo]
  | cons part context ih =>
    obtain ⟨k, c⟩ := part
    rw [matchContext, List.any_eq_true, LeadsTo]
    constructor
    · rintro ⟨q, hq, hmatch⟩
      rw [Bool.and_eq_true] at hmatch
      obtain ⟨x, hx, hplace⟩ := (Combinator.mem_candidates_iff hf hl h).1 hq
      exact ⟨x, hx, (Compound.holds_iff hf hl hplace).1 hmatch.1, (ih hplace).1 hmatch.2⟩
    · rintro ⟨x, hx, hc, hcontext⟩
      obtain ⟨q, hplace⟩ := exists_place? hf hl hc
      refine ⟨q, (Combinator.mem_candidates_iff hf hl h).2 ⟨x, hx, hplace⟩, ?_⟩
      rw [Bool.and_eq_true]
      exact ⟨(Compound.holds_iff hf hl hplace).2 hc, (ih hplace).2 hcontext⟩

/-- No more is seen than there is. -/
theorem Selector.selectsNode_eq {s : Selector} : s.selectsNode d g i = (g.place? g.size i).any (s.selects d) := by
  have hsteps : g.place? (g.size * (s.context.length + 1)) i = g.place? g.size i := by
    rw [Document.place?, hf.levels_eq hl (Nat.le_mul_of_pos_right _ (Nat.succ_pos _)), Document.place?]
  rw [selectsNode, hsteps]
  cases g.place? g.size i <;> rfl

theorem Selector.selectsNode_iff_leadsTo {s : Selector} :
    s.selectsNode d g i = true ↔ s.subject.Describes d g i ∧ LeadsTo d g g.Encloses i s.context := by
  rw [selectsNode_eq hf hl]
  cases h : g.place? g.size i with
  | none =>
    constructor
    · intro hfalse
      cases hfalse
    · rintro ⟨hc, -⟩
      obtain ⟨q, hq⟩ := exists_place? hf hl hc
      rw [h] at hq
      cases hq
  | some p =>
    rw [Option.any_some]
    simp only [selects, Bool.and_eq_true, Compound.holds_iff hf hl h, matchContext_iff hf hl h]

end Forest

/-! ## Rows of elements -/

section Rows

variable {IsAbove : NodeId → NodeId → Prop} {ks : List Combinator} {xs : List NodeId} {k : Combinator}

/-- A row that goes on is as its combinators say if it was so before, and its last two nodes are too. -/
theorem relates_concat_iff (hlength : xs.length = ks.length + 1) :
    (∀ n k' a b, (ks ++ [k])[n]? = some k' → (xs ++ [y])[n]? = some a → (xs ++ [y])[n + 1]? = some b →
        k'.Relates g IsAbove a b) ↔
      (∀ n k' a b, ks[n]? = some k' → xs[n]? = some a → xs[n + 1]? = some b → k'.Relates g IsAbove a b) ∧
        ∀ x, xs.getLast? = some x → k.Relates g IsAbove x y := by
  have hlast : xs.getLast? = xs[ks.length]? := by
    rw [List.getLast?_eq_getElem?, hlength, Nat.add_sub_cancel]
  constructor
  · intro h
    constructor
    · intro n k' a b hk ha hb
      have hn : n < ks.length := (List.getElem?_eq_some_iff.1 hk).1
      apply h n k' a b
      · rwa [List.getElem?_append_left hn]
      · rwa [List.getElem?_append_left (by omega)]
      · rwa [List.getElem?_append_left (by omega)]
    · intro x hx
      apply h ks.length k x y
      · simp
      · rwa [List.getElem?_append_left (by omega), ← hlast]
      · simp [← hlength]
  · rintro ⟨h, hx⟩ n k' a b hk ha hb
    have hn : n < ks.length + 1 := by simpa using (List.getElem?_eq_some_iff.1 hk).1
    by_cases hlt : n < ks.length
    · rw [List.getElem?_append_left hlt] at hk
      rw [List.getElem?_append_left (by omega)] at ha hb
      exact h n k' a b hk ha hb
    · obtain rfl : n = ks.length := by omega
      obtain rfl : k = k' := by simpa using hk
      obtain rfl : y = b := by simpa [← hlength] using hb
      rw [List.getElem?_append_left (by omega), ← hlast] at ha
      exact hx a ha

/-- The row of a selector is that of the selector without its last compound, and one more node. -/
theorem Selector.describes_concat_iff {subject c : Compound} {context : List (Combinator × Compound)} {source : Text} :
    Selector.Describes d g IsAbove ⟨subject, (k, c) :: context, source⟩ (xs ++ [y]) ↔
      Selector.Describes d g IsAbove ⟨c, context, source⟩ xs ∧ subject.Describes d g y ∧
        ∀ x, xs.getLast? = some x → k.Relates g IsAbove x y := by
  have hcompounds : List.Forall₂ (fun c x => c.Describes d g x)
        (Selector.compounds ⟨subject, (k, c) :: context, source⟩) (xs ++ [y]) ↔
      List.Forall₂ (fun c x => c.Describes d g x) (Selector.compounds ⟨c, context, source⟩) xs ∧
        subject.Describes d g y := by
    rw [compounds, compounds, ← List.forall₂_reverse_iff, ← @List.forall₂_reverse_iff _ _ _ _ xs]
    simp [and_comm]
  have hcombinators : Selector.combinators ⟨subject, (k, c) :: context, source⟩ =
      Selector.combinators ⟨c, context, source⟩ ++ [k] := by simp [combinators]
  constructor
  · rintro ⟨hc, hk⟩
    obtain ⟨hc, hy⟩ := hcompounds.1 hc
    have hlength : xs.length = (Selector.combinators ⟨c, context, source⟩).length + 1 := by
      rw [← hc.length_eq]
      simp [compounds, combinators]
    rw [hcombinators, relates_concat_iff hlength] at hk
    exact ⟨⟨hc, hk.1⟩, hy, hk.2⟩
  · rintro ⟨⟨hc, hk⟩, hy, hx⟩
    have hlength : xs.length = (Selector.combinators ⟨c, context, source⟩).length + 1 := by
      rw [← hc.length_eq]
      simp [compounds, combinators]
    refine ⟨hcompounds.2 ⟨hc, hy⟩, ?_⟩
    rw [hcombinators, relates_concat_iff hlength]
    exact ⟨hk, hx⟩

theorem leadsTo_iff {subject : Compound} {context : List (Combinator × Compound)} {source : Text} :
    subject.Describes d g i ∧ LeadsTo d g IsAbove i context ↔
      ∃ xs, Selector.Describes d g IsAbove ⟨subject, context, source⟩ xs ∧ xs.getLast? = some i := by
  induction context generalizing subject i with
  | nil =>
    constructor
    · rintro ⟨hc, -⟩
      exact ⟨[i], ⟨.cons hc .nil, by simp [Selector.combinators]⟩, rfl⟩
    · rintro ⟨xs, ⟨hc, -⟩, hi⟩
      cases hc with
      | cons hc hnil =>
        cases hnil with
        | nil => exact ⟨Option.some.inj hi ▸ hc, trivial⟩
  | cons part context ih =>
    obtain ⟨k, c⟩ := part
    rw [LeadsTo]
    constructor
    · rintro ⟨hi, x, hx, hcontext⟩
      obtain ⟨xs, hxs, hlast⟩ := ih.1 hcontext
      refine ⟨xs ++ [i], Selector.describes_concat_iff.2 ⟨hxs, hi, fun z hz => ?_⟩, List.getLast?_concat⟩
      rwa [← Option.some.inj (hlast.symm.trans hz)]
    · rintro ⟨zs, hzs, hlast⟩
      obtain ⟨xs, rfl⟩ := List.getLast?_eq_some_iff.1 hlast
      obtain ⟨hxs, hi, hrelates⟩ := Selector.describes_concat_iff.1 hzs
      have hne : xs ≠ [] := by
        rintro rfl
        simpa [Selector.compounds] using hxs.compounds.length_eq
      have hx := List.getLast?_eq_some_getLast hne
      exact ⟨hi, xs.getLast hne, hrelates _ hx, ih.2 ⟨xs, hxs, hx⟩⟩

end Rows

/-! ## The meaning of a selector -/

/-- In a forest a selector selects a node if a row of elements that is as the selector says ends in the node, where an
element is above another if it encloses it; where the root hangs nowhere, these are its ancestors. The search goes from
parent to parent and from sibling to sibling, and neither way is endless. -/
theorem selectsNode_iff (hl : g.Linked) (hf : g.IsForest) (hp : g.NestsInElements) (d : Dialect) (s : Selector)
    (i : NodeId) :
    (s.selectsNode d g i = true ↔ ∃ xs, s.Describes d g g.Encloses xs ∧ xs.getLast? = some i) ∧
    (g.parent? Document.root = none →
      (s.selectsNode d g i = true ↔ ∃ xs, s.Describes d g g.IsAncestor xs ∧ xs.getLast? = some i)) ∧
    (WellFounded fun x y => g.parentElement? y = some x) ∧ WellFounded fun x y => g.previousElement? y = some x := by
  have hiff : s.selectsNode d g i = true ↔ ∃ xs, s.Describes d g g.Encloses xs ∧ xs.getLast? = some i := by
    rw [Selector.selectsNode_iff_leadsTo hf hl, leadsTo_iff]
  refine ⟨hiff, fun hroot => ?_, hf.wellFounded_parentElement?, hl.wellFounded_previousElement?⟩
  have habove : g.Encloses = g.IsAncestor := by
    funext x y
    exact propext (Document.encloses_iff_isAncestor hp hroot)
  rwa [habove] at hiff

/-- A row of a table with three cells. -/
def cellsInRow : Document :=
  let cell : Tree := .element ⟨"td".toList, [], false⟩ []
  .ofForest [.element ⟨"table".toList, [], false⟩ [.element ⟨"tr".toList, [], false⟩ [cell, cell, cell]]]

/-- `table tr > td ~ * + :last-child` -/
def lastInRow : Selector :=
  .ofParts [] ⟨some "table".toList, []⟩ [(.descendant, ⟨some "tr".toList, []⟩), (.child, ⟨some "td".toList, []⟩),
    (.sibling, ⟨none, []⟩), (.adjacent, ⟨none, [.lastChild]⟩)]

theorem selectsNode_iff_cellsInRow : cellsInRow.Linked ∧ cellsInRow.IsForest ∧ cellsInRow.NestsInElements ∧
    cellsInRow.parent? Document.root = none ∧
    ∃ xs, lastInRow.Describes .jelly cellsInRow cellsInRow.IsAncestor xs ∧ xs.getLast? = some 5 := by
  have htree : cellsInRow.IsTree := Document.isTree_ofForest _
  have hnests : cellsInRow.NestsInElements := by decide +kernel
  have hiff := (selectsNode_iff htree.linked htree.isForest hnests .jelly lastInRow 5).2.1 htree.root
  exact ⟨htree.linked, htree.isForest, hnests, htree.root, hiff.1 (by decide +kernel)⟩

/-- The root hangs below an element, and has another below it. -/
def rootBelowElement : Document :=
  (((Document.empty.create (.element ⟨"x".toList, [], false⟩)).create (.element ⟨"c".toList, [], false⟩)).append
    Document.root 2).append 1 Document.root

theorem isForest_rootBelowElement : rootBelowElement.IsForest := by
  intro i
  refine ⟨3, ?_⟩
  by_cases hi : i < 3
  · have hall : ∀ i < 3, rootBelowElement.climb 3 i = none := by decide
    exact hall i hi
  · apply Document.climb_of_none
    cases hp : rootBelowElement.parent? i with
    | none => rfl
    | some p => exact absurd (Document.lt_size_of_parent? hp) hi

/-- Where the root hangs below an element, that is not found above what hangs below the root. -/
theorem not_forall_selectsNode_iff : ¬ ∀ (d : Dialect) (g : Document) (text : Text) (s : Selector) (i : NodeId),
    g.Linked → g.IsForest → g.NestsInElements → Selector.parse text = .ok s →
    (s.selectsNode d g i = true ↔ ∃ xs, s.Describes d g g.IsAncestor xs ∧ xs.getLast? = some i) := by
  intro h
  have hlinked : rootBelowElement.Linked :=
    (((Document.linked_empty.create _).create _).append (by decide) (by decide)).append (by decide) (by decide)
  have hparse : Selector.parse "x c".toList =
      .ok (.ofParts "x c".toList ⟨some "x".toList, []⟩ [(.descendant, ⟨some "c".toList, []⟩)]) := by decide +kernel
  have hiff := h .jelly rootBelowElement "x c".toList _ 2 hlinked isForest_rootBelowElement (by decide) hparse
  obtain ⟨hcompounds, hcombinators⟩ := Selector.parts_ofParts "x c".toList ⟨some "x".toList, []⟩
    [(.descendant, ⟨some "c".toList, []⟩)]
  have hrow : Selector.Describes .jelly rootBelowElement rootBelowElement.IsAncestor
      (.ofParts "x c".toList ⟨some "x".toList, []⟩ [(.descendant, ⟨some "c".toList, []⟩)]) [1, 2] := by
    constructor
    · rw [hcompounds]
      refine .cons ⟨_, rfl, ?_, List.forall_mem_nil _⟩ (.cons ⟨_, rfl, ?_, List.forall_mem_nil _⟩ .nil)
      · rintro name ⟨⟩
        decide
      · rintro name ⟨⟩
        decide
    · intro n k x y hk hx hy
      rw [hcombinators] at hk
      cases n with
      | zero =>
        obtain rfl := Option.some.inj hk
        obtain rfl := Option.some.inj hx
        obtain rfl := Option.some.inj hy
        exact ⟨1, by decide⟩
      | succ n => cases hk
  have hselected := hiff.2 ⟨[1, 2], hrow, rfl⟩
  revert hselected
  decide +kernel

end MailTemplate.Css
