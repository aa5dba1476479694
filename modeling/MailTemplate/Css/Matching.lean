import MailTemplate.Css.Selector
import MailTemplate.Markup.Place

/-!
# Matching

A selector matches a place if its subject describes the element there and each compound before it describes an element
that stands to the next one as the combinator between them says. The search goes from the end of the selector to its
start and tries every element that a combinator allows.
-/
namespace MailTemplate.Css

/-- Whether a value passes a comparison. No value begins with, ends with or contains the empty text here. -/
def Comparison.holds (k : Comparison) (value operand : Text) : Bool :=
  match k with
  | equal => value == operand
  | word => (Text.words value).contains operand
  | dash => value == operand || (operand ++ ['-']).isPrefixOf value
  | start => !operand.isEmpty && operand.isPrefixOf value
  | finish => !operand.isEmpty && operand.isSuffixOf value
  | within => !operand.isEmpty && (Text.cut? operand value).isSome

/-- Whether a condition holds at a place. -/
def Simple.holds (d : Dialect) (p : Place) : Simple → Bool
  | id name => p.element.attribute? "id".toList == some name
  | ofClass name => p.element.hasClass name
  | present name => (p.element.attributeIn? d name).isSome
  | compare name k operand =>
    match p.element.attributeIn? d name with
    | none => false
    | some value => k.holds value operand
  | firstChild => p.here.before.isEmpty
  | lastChild => p.here.isLast

/-- Whether a compound describes the element at a place. -/
def Compound.holds (d : Dialect) (c : Compound) (p : Place) : Bool :=
  (match c.type with
    | none => true
    | some name => d.sameName name p.element.name) && c.conditions.all (·.holds d p)

/-- The places that a combinator allows for the compound before it, where `p` is the place for the one after it. -/
def Combinator.candidates (p : Place) : Combinator → List Place
  | descendant => p.ancestors
  | child => p.parent?.toList
  | adjacent => p.previous?.toList
  | sibling => p.earlier

/-- Whether places for the compounds before the one at `p` can be found. -/
def matchContext (d : Dialect) (p : Place) : List (Combinator × Compound) → Bool
  | [] => true
  | (k, c) :: context => (k.candidates p).any fun q => c.holds d q && matchContext d q context

/-- Whether the selector selects the element at a place. -/
def Selector.selects (d : Dialect) (s : Selector) (p : Place) : Bool :=
  s.subject.holds d p && matchContext d p s.context

/-- Whether the selector selects a node. Each compound looks at most as far up as there are nodes. -/
def Selector.selectsNode (d : Dialect) (s : Selector) (doc : Document) (i : NodeId) : Bool :=
  match doc.place? (doc.size * (s.context.length + 1)) i with
  | none => false
  | some p => s.selects d p

end MailTemplate.Css
