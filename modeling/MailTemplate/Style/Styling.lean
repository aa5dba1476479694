import MailTemplate.Css.Matching
import MailTemplate.Css.Stylesheet

/-!
# Styling elements

The declarations of every rule that selects an element are written into its `style` attribute, in the order of the rules
and before what the attribute said already. Elements are styled in document order, and each rule is matched against the
template as it stands by then: with the attributes of ancestors and of earlier elements already written.
-/
namespace MailTemplate

open Css

/-- The declarations that a sheet has for the element at a place, in order. -/
def declarationsFor (d : Dialect) (sheet : Stylesheet) (p : Place) : List Declaration :=
  (sheet.rules.filter fun r => r.selectors.any (·.selects d p)).flatMap Rule.declarations

/-- The text of an element's own `style` attribute; empty where it has none. -/
def Element.ownStyle (d : Dialect) (e : Element) : Text := (e.attributeIn? d "style".toList).getD []

/-- The element at a place with the declarations for it, if there are any, written before its own. -/
def styledElement? (d : Dialect) (sheet : Stylesheet) (p : Place) : Option Element :=
  match declarationsFor d sheet p with
  | [] => none
  | found =>
    let merged := Declaration.mergeAll [] (found ++ Declaration.parseBlock (p.element.ownStyle d))
    some (p.element.setAttributeIn d "style".toList (Declaration.printAll merged))

/-- Trees after styling, and the `style` attributes that were there before of all elements that got declarations. -/
structure Styled where
  trees : Forest
  former : List Text

/-- How many elements got declarations. -/
def Styled.count (s : Styled) : Nat := s.former.length

/-- Styles trees that stand below `above`, after the elements `before`. -/
def styleForest (d : Dialect) (sheet : Stylesheet) (above : List Level) (before : List Element) : List Tree → Styled
  | [] => ⟨[], []⟩
  | .leaf l :: more =>
    let rest := styleForest d sheet above before more
    ⟨.leaf l :: rest.trees, rest.former⟩
  | .element e content :: more =>
    let isLast := !more.any Tree.isElement
    let styled := styledElement? d sheet ⟨⟨e, before, isLast⟩, above⟩
    let e' := styled.getD e
    let inside := styleForest d sheet (⟨e', before, isLast⟩ :: above) [] content
    let rest := styleForest d sheet above (e' :: before) more
    ⟨.element e' inside.trees :: rest.trees,
      (if styled.isSome then [e.ownStyle d] else []) ++ inside.former ++ rest.former⟩

/-- Styles a whole template. -/
def style (d : Dialect) (sheet : Stylesheet) (f : Forest) : Styled := styleForest d sheet [] [] f

end MailTemplate
