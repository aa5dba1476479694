import MailTemplate.Markup.Document

/-!
# Places

An element together with what can be seen from it: its ancestors, and on every level the elements before it. A place is
all that decides which selectors match.
-/
namespace MailTemplate

/-- An element among the elements under its parent. -/
structure Level where
  element : Element
  /-- The elements before it, nearest first. -/
  before : List Element
  /-- Whether no element comes after it. -/
  isLast : Bool
  deriving Repr, DecidableEq

/-- An element and its ancestor elements, innermost first. -/
structure Place where
  here : Level
  above : List Level
  deriving Repr, DecidableEq

namespace Place

def element (p : Place) : Element := p.here.element

/-- The places of nested levels, innermost first. -/
def ofLevels : List Level → List Place
  | [] => []
  | l :: above => ⟨l, above⟩ :: ofLevels above

/-- The places of the ancestors, innermost first. -/
def ancestors (p : Place) : List Place := ofLevels p.above

/-- The place of the parent. -/
def parent? (p : Place) : Option Place := p.ancestors.head?

/-- The places of elements before another one, given nearest first, all of them below `above`. -/
def ofEarlier (above : List Level) : List Element → List Place
  | [] => []
  | e :: before => ⟨⟨e, before, false⟩, above⟩ :: ofEarlier above before

/-- The places of the elements before this one, nearest first. -/
def earlier (p : Place) : List Place := ofEarlier p.above p.here.before

/-- The place of the nearest element before this one. -/
def previous? (p : Place) : Option Place := p.earlier.head?

end Place

namespace Document

/-- The level of an element under its parent. -/
def level? (d : Document) (i : NodeId) : Option Level :=
  (d.element? i).map fun e => ⟨e, (d.earlierSiblings i).filterMap d.element?, (d.nextElement? i).isNone⟩

/-- The levels of an element and of its ancestors, as far as these are elements, at most `steps` of them. -/
def levels (d : Document) : (steps : Nat) → NodeId → List Level
  | 0, _ => []
  | steps + 1, i =>
    match d.level? i with
    | none => []
    | some l => l :: ((d.parentElement? i).map (d.levels steps)).getD []

/-- The place of an element, with at most `steps` levels. -/
def place? (d : Document) (steps : Nat) (i : NodeId) : Option Place := (Place.ofLevels (d.levels steps i)).head?

end Document

end MailTemplate
