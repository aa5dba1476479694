import MailTemplate.Text.Basic

/-!
# Selectors

The part of the selector language that mail templates use: types, ids, classes, attribute tests, the first and the last
child, and the four combinators. Whatever lies outside it is refused with a reason.
-/
namespace MailTemplate.Css

/-- How an attribute test compares the value of the attribute. -/
inductive Comparison where
  /-- `[a=v]`: is `v`. -/
  | equal
  /-- `[a~=v]`: has `v` among its words. -/
  | word
  /-- `[a|=v]`: is `v`, or begins with `v` and a dash. -/
  | dash
  /-- `[a^=v]`: begins with `v`. -/
  | start
  /-- `[a$=v]`: ends with `v`. -/
  | finish
  /-- `[a*=v]`: contains `v`. -/
  | within
  deriving Repr, DecidableEq

/-- A condition on an element. -/
inductive Simple where
  | id (name : Text)
  | ofClass (name : Text)
  /-- `[a]`: the attribute is there. -/
  | present (name : Text)
  | compare (name : Text) (comparison : Comparison) (value : Text)
  | firstChild
  | lastChild
  deriving Repr, DecidableEq

/-- Conditions that hold of one element together, such as `td.total#sum`. -/
structure Compound where
  /-- The name of the element; `none` where any will do. -/
  type : Option Text
  conditions : List Simple
  deriving Repr, DecidableEq

/-- How the elements of two neighbouring compounds stand to each other. -/
inductive Combinator where
  /-- `a b` -/
  | descendant
  /-- `a > b` -/
  | child
  /-- `a + b` -/
  | adjacent
  /-- `a ~ b` -/
  | sibling
  deriving Repr, DecidableEq

/-- A selector, read from its end: the compound of the selected element, and the compounds before it, last first, each
with the combinator that follows it. -/
structure Selector where
  subject : Compound
  context : List (Combinator × Compound)
  /-- The selector as it was written, trimmed. -/
  source : Text
  deriving Repr, DecidableEq

/-! ## Refusals -/

/-- Why a selector is refused; `rest` is what was left to read. -/
inductive Refusal where
  | danglingEscape
  | expectedName (rest : Text)
  | unknownComparison
  | malformedTest
  | unterminatedString
  | expectedBracket
  | pseudoElement
  | pseudoClass (name : Text)
  | unexpected (rest : Text)
  deriving Repr, DecidableEq

/-- The byte offset in `source` of its rest. -/
def offset (source rest : Text) : Nat := Text.byteSize source - Text.byteSize rest

/-- The reason for refusing `source`, in words. -/
def Refusal.describe (source : Text) : Refusal → String
  | danglingEscape => "dangling escape"
  | expectedName rest => s!"expected a name at offset {offset source rest}"
  | unknownComparison => "unknown attribute matcher"
  | malformedTest => "malformed attribute selector"
  | unterminatedString => "unterminated string"
  | expectedBracket => "expected ']'"
  | pseudoElement => "pseudo-elements cannot be inlined"
  | pseudoClass name => "pseudo-class :" ++ String.ofList name
  | unexpected rest => s!"unexpected character at offset {offset source rest}"

/-- A selector that was refused, as it was written, and the reason. -/
structure Refused where
  source : Text
  refusal : Refusal
  deriving Repr, DecidableEq

def Refused.reason (r : Refused) : String := r.refusal.describe r.source

end MailTemplate.Css
