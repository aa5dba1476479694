import MailTemplate.Proofs.Css.Merging
import MailTemplate.Proofs.Style.Frame
/-!
# What wins

An element takes on the declarations of all rules that select it, in the order of the rules, and then its own, which win
(`Element.TakesOn`). Styling does so with one element after the other, and counts them (`cascades_style`).
-/
namespace MailTemplate

open Css Declaration

variable {d : Dialect} {sheet : Stylesheet} {e e' : Element}

/-- An element with declarations merged into its attribute `style`. The first such attribute has got a new value, or one
has been added at the end; each property stands there once, and one that was there before has the value it had last. -/
structure Element.TakesOn (d : Dialect) (found : List Declaration) (e e' : Element) : Prop where
  name : e'.name = e.name
  isVoid : e'.isVoid = e.isVoid
  attributes : StyleWritten d e.attributes e'.attributes
  merged : ∃ merged, e'.attributeIn? d "style".toList = some (printAll merged) ∧
    IsMergeOf (found ++ parseBlock (e.ownStyle d)) merged ∧ Survive (parseBlock (e.ownStyle d)) merged

/-- Trees below `above`, after the elements `before`, of which every element that rules have declarations for has taken
these on; `count` is the number of these elements. Rules look at elements that come before as they have become. -/
inductive Cascades (d : Dialect) (sheet : Stylesheet) : List Level → List Element → Forest → Forest → Nat → Prop
  | nil {above : List Level} {before : List Element} : Cascades d sheet above before [] [] 0
  | leaf {above : List Level} {before : List Element} {f g : Forest} {count : Nat} (l : Leaf) :
      Cascades d sheet above before f g count → Cascades d sheet above before (.leaf l :: f) (.leaf l :: g) count
  | unchanged {above : List Level} {before : List Element} {f g content content' : Forest} {e : Element} {isLast : Bool}
      {inside rest : Nat} : (!f.any Tree.isElement) = isLast →
      declarationsFor d sheet ⟨⟨e, before, isLast⟩, above⟩ = [] →
      Cascades d sheet (⟨e, before, isLast⟩ :: above) [] content content' inside →
      Cascades d sheet above (e :: before) f g rest →
      Cascades d sheet above before (.element e content :: f) (.element e content' :: g) (inside + rest)
  | changed {above : List Level} {before : List Element} {f g content content' : Forest} {e e' : Element} {isLast : Bool}
      {inside rest : Nat} {found : List Declaration} : (!f.any Tree.isElement) = isLast →
      declarationsFor d sheet ⟨⟨e, before, isLast⟩, above⟩ = found → found ≠ [] → e.TakesOn d found e' →
      Cascades d sheet (⟨e', before, isLast⟩ :: above) [] content content' inside →
      Cascades d sheet above (e' :: before) f g rest →
      Cascades d sheet above before (.element e content :: f) (.element e' content' :: g) (1 + inside + rest)

/-! ## One element -/

/-- What an attribute was set to is read back. -/
theorem Element.attributeIn?_setAttributeIn (d : Dialect) (e : Element) (name value : Text) :
    (e.setAttributeIn d name value).attributeIn? d name = some value := by
  unfold attributeIn? find? setAttributeIn
  dsimp only
  induction e.attributes with
  | nil => simp [assign, Attribute.text, Dialect.sameName_self]
  | cons a as ih =>
    rw [assign]
    split
    · next ha => simp [ha, Attribute.text]
    · next ha => rwa [List.find?_cons_of_neg (by simpa using ha)]

theorem styledElement?_eq_none {p : Place} (h : declarationsFor d sheet p = []) : styledElement? d sheet p = none := by
  unfold styledElement?
  rw [h]

theorem styledElement?_eq_some {p : Place} (h : declarationsFor d sheet p ≠ []) : styledElement? d sheet p =
    some (p.element.setAttributeIn d "style".toList (printAll (mergeAll []
      (declarationsFor d sheet p ++ parseBlock (p.element.ownStyle d))))) := by
  unfold styledElement?
  split
  · next hnil => exact absurd hnil h
  · rfl

theorem Element.takesOn_setAttributeIn (d : Dialect) (e : Element) (found : List Declaration) :
    e.TakesOn d found (e.setAttributeIn d "style".toList (printAll (mergeAll []
      (found ++ parseBlock (e.ownStyle d))))) where
  name := rfl
  isVoid := rfl
  attributes := styleWritten_assign d _ e.attributes
  merged := by
    have hmerge := isMergeOf_mergeAll (found ++ parseBlock (e.ownStyle d))
    exact ⟨_, Element.attributeIn?_setAttributeIn d e _ _, hmerge, hmerge.survive⟩

/-! ## All elements -/

theorem cascades_styleForest (d : Dialect) (sheet : Stylesheet) (above : List Level) (before : List Element)
    (f : Forest) :
    Cascades d sheet above before f (styleForest d sheet above before f).trees
      (styleForest d sheet above before f).count := by
  induction f using Forest.induct generalizing above before with
  | nil =>
    rw [styleForest]
    exact .nil
  | leaf l more ih =>
    rw [styleForest]
    exact .leaf l (ih above before)
  | element e content more ihc ihm =>
    rw [styleForest]
    dsimp only [Styled.count]
    by_cases h : declarationsFor d sheet ⟨⟨e, before, !more.any Tree.isElement⟩, above⟩ = []
    · rw [styledElement?_eq_none h]
      simp only [Option.getD_none, Option.isSome_none, Bool.false_eq_true, if_false, List.nil_append, List.length_append]
      exact .unchanged rfl h (ihc _ _) (ihm _ _)
    · rw [styledElement?_eq_some h]
      simp only [Option.getD_some, Option.isSome_some, if_true, List.length_append, List.length_singleton]
      exact .changed rfl rfl h (e.takesOn_setAttributeIn d _) (ihc _ _) (ihm _ _)

/-- Every element takes on what the rules that select it declare, and nothing else changes. -/
theorem cascades_style (d : Dialect) (sheet : Stylesheet) (f : Forest) :
    Cascades d sheet [] [] f (style d sheet f).trees (style d sheet f).count :=
  cascades_styleForest d sheet [] [] f

-- two rules declare `color`, and the paragraph itself has `margin` twice
example : style .jelly (.parse "p\x7bcolor:red;margin:0\x7d.x\x7bcolor:blue\x7d".toList)
      [.element ⟨"p".toList, [⟨"class".toList, some "x".toList⟩,
        ⟨"style".toList, some "margin:1px;top:0;margin:2px".toList⟩], false⟩ []] =
    ⟨[.element ⟨"p".toList, [⟨"class".toList, some "x".toList⟩,
        ⟨"style".toList, some "color: blue; margin: 2px; top: 0".toList⟩], false⟩ []],
      ["margin:1px;top:0;margin:2px".toList]⟩ := by
  rw [style, styleForest]
  have h : styledElement? .jelly (.parse "p\x7bcolor:red;margin:0\x7d.x\x7bcolor:blue\x7d".toList)
      ⟨⟨⟨"p".toList, [⟨"class".toList, some "x".toList⟩,
        ⟨"style".toList, some "margin:1px;top:0;margin:2px".toList⟩], false⟩, [], true⟩, []⟩ =
      some ⟨"p".toList, [⟨"class".toList, some "x".toList⟩,
        ⟨"style".toList, some "color: blue; margin: 2px; top: 0".toList⟩], false⟩ := by decide +kernel
  simp only [List.any_nil, Bool.not_false, h, styleForest]
  rfl

end MailTemplate
