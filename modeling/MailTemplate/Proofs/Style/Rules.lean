import MailTemplate.Proofs.Markup.WellFormed
import MailTemplate.Style.Styling
/-!
# Rules for an element

Styling looks at each element once: it finds the rules for it and writes their declarations (`trees_styleForest_element`).
Where no rule has declarations for it, an element stays as it is.
-/
namespace MailTemplate

open Css

variable {d : Dialect} {sheet : Stylesheet} {e : Element}

/-- The rules of a sheet that select the element at a place, in order. -/
def rulesFor (d : Dialect) (sheet : Stylesheet) (p : Place) : List Rule :=
  sheet.rules.filter fun r => r.selectors.any (·.selects d p)

/-- An element with the declarations of rules, if they have any, written before its own. -/
def Element.withRules (d : Dialect) (e : Element) (rules : List Rule) : Element :=
  match rules.flatMap Rule.declarations with
  | [] => e
  | found =>
    let merged := Declaration.mergeAll [] (found ++ Declaration.parseBlock (e.ownStyle d))
    e.setAttributeIn d "style".toList (Declaration.printAll merged)

theorem Element.withRules_of_nil {rules : List Rule} (h : rules.flatMap Rule.declarations = []) :
    e.withRules d rules = e := by
  unfold Element.withRules
  rw [h]

theorem Element.exists_withRules_eq {rules : List Rule} (h : rules.flatMap Rule.declarations ≠ []) :
    ∃ value, e.withRules d rules = e.setAttributeIn d "style".toList value := by
  unfold Element.withRules
  split
  · next h' => exact absurd h' h
  · exact ⟨_, rfl⟩

theorem styledElement?_getD (d : Dialect) (sheet : Stylesheet) (p : Place) :
    (styledElement? d sheet p).getD p.element = p.element.withRules d (rulesFor d sheet p) := by
  have hfound : declarationsFor d sheet p = (rulesFor d sheet p).flatMap Rule.declarations := rfl
  unfold styledElement? Element.withRules
  rw [hfound]
  cases (rulesFor d sheet p).flatMap Rule.declarations with
  | nil => rfl
  | cons first more => rfl

theorem trees_styleForest_nil (d : Dialect) (sheet : Stylesheet) (above : List Level) (before : List Element) :
    (styleForest d sheet above before []).trees = [] := by
  rw [styleForest]

theorem trees_styleForest_leaf (d : Dialect) (sheet : Stylesheet) (above : List Level) (before : List Element) (l : Leaf)
    (more : Forest) : (styleForest d sheet above before (.leaf l :: more)).trees =
      .leaf l :: (styleForest d sheet above before more).trees := by
  rw [styleForest]

theorem trees_styleForest_element (d : Dialect) (sheet : Stylesheet) (above : List Level) (before : List Element)
    (e : Element) (content more : Forest) {e' : Element} {isLast : Bool} (hl : (!more.any Tree.isElement) = isLast)
    (he : e.withRules d (rulesFor d sheet ⟨⟨e, before, isLast⟩, above⟩) = e') :
    (styleForest d sheet above before (.element e content :: more)).trees =
      .element e' (styleForest d sheet (⟨e', before, isLast⟩ :: above) [] content).trees ::
        (styleForest d sheet above (e' :: before) more).trees := by
  subst hl
  have hstyled := styledElement?_getD d sheet ⟨⟨e, before, !more.any Tree.isElement⟩, above⟩
  change (styledElement? d sheet _).getD e = e.withRules d _ at hstyled
  rw [he] at hstyled
  rw [styleForest]
  dsimp only
  rw [hstyled]

/-- Without rules everything stays as it is. -/
theorem trees_styleForest_of_no_rules (h : sheet.rules = []) (above : List Level) (before : List Element) (f : Forest) :
    (styleForest d sheet above before f).trees = f := by
  induction f using Forest.induct generalizing above before with
  | nil => exact trees_styleForest_nil d sheet above before
  | leaf l more ih => rw [trees_styleForest_leaf, ih]
  | element e content more ihc ihm =>
    have he : e.withRules d (rulesFor d sheet ⟨⟨e, before, !more.any Tree.isElement⟩, above⟩) = e := by
      refine Element.withRules_of_nil ?_
      rw [rulesFor, h]
      rfl
    rw [trees_styleForest_element d sheet above before e content more rfl he, ihc, ihm]

end MailTemplate
