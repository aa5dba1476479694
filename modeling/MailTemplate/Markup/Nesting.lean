import MailTemplate.Markup.Token

/-!
# Nesting

Tokens are put together into trees with a stack of open elements. End tags may be missing, repeated or out of place:
an end tag closes the nearest open element of its name with all that was opened in it, and one that closes nothing is
passed over; a start tag of an element that may not nest first closes an open element of the same name.
-/
namespace MailTemplate

/-- An element whose end has not been read, with what stands before it under the same parent, latest first. -/
structure OpenElement where
  element : Element
  before : Forest

/-- What has been put together so far: the open elements, innermost first, and the content of the innermost of them,
latest first. -/
structure Nesting where
  opened : List OpenElement
  content : Forest

namespace Nesting

def empty : Nesting := ⟨[], []⟩

/-! ## Adding -/

/-- Adds a tree to the innermost open element. -/
def add (n : Nesting) (t : Tree) : Nesting := { n with content := t :: n.content }

/-- Adds character data, which joins with character data just before it. -/
def addText (n : Nesting) (t : Text) : Nesting :=
  if t = [] then n
  else match n.content with
    | .leaf (.text u) :: before => { n with content := .leaf (.text (u ++ t)) :: before }
    | _ => n.add (.leaf (.text t))

def addLeaf (n : Nesting) : Leaf → Nesting
  | .text t => n.addText t
  | l => n.add (.leaf l)

/-! ## Opening and closing -/

/-- Opens an element in the innermost open one. -/
def enter (n : Nesting) (e : Element) : Nesting := ⟨⟨e, n.content⟩ :: n.opened, []⟩

/-- Closes the innermost open element. -/
def leave (n : Nesting) : Nesting :=
  match n.opened with
  | [] => n
  | o :: outer => ⟨outer, .element o.element n.content.reverse :: o.before⟩

/-- Closes the `k` innermost open elements. -/
def close (n : Nesting) : Nat → Nesting
  | 0 => n
  | k + 1 => n.leave.close k

/-- How many elements have to be closed to close the nearest one called `name`, if one is open. -/
def levels? (d : Dialect) (name : Text) : List OpenElement → Option Nat
  | [] => none
  | o :: outer => if d.sameName o.element.name name then some 1 else (levels? d name outer).map (· + 1)

/-- How many elements a start tag for `name` closes, if it may not nest and one of that name is open. An element that
may nest hides what is open around it, so that a row of an inner table leaves the rows of the outer one open. -/
def repeatedLevels? (d : Dialect) (name : Text) : List OpenElement → Option Nat
  | [] => none
  | o :: outer =>
    if d.sameName o.element.name name then some 1
    else if d.isNestable o.element.name then none
    else (repeatedLevels? d name outer).map (· + 1)

/-- Closes what a start tag for `name` closes. -/
def makeRoom (d : Dialect) (n : Nesting) (name : Text) : Nesting :=
  if d.isNestable name then n else n.close ((repeatedLevels? d name n.opened).getD 0)

/-- Closes what an end tag for `name` closes. -/
def closeNamed (d : Dialect) (n : Nesting) (name : Text) : Nesting := n.close ((levels? d name n.opened).getD 0)

/-! ## Tokens -/

/-- What an element that holds raw text contains. -/
def rawContent (content : Text) : Forest := if content = [] then [] else [.leaf (.raw content)]

/-- Adds one token. -/
def step (d : Dialect) (n : Nesting) : Token → Nesting
  | .leaf l => n.addLeaf l
  | .startTag e => if e.isVoid then (n.makeRoom d e.name).add (.element e []) else (n.makeRoom d e.name).enter e
  | .rawElement e content => (n.makeRoom d e.name).add (.element e (rawContent content))
  | .endTag name => n.closeNamed d name

/-- Adds tokens in order. -/
def steps (d : Dialect) (n : Nesting) (ts : List Token) : Nesting := ts.foldl (step d) n

/-- The trees, once every open element is closed. -/
def finish (n : Nesting) : Forest := (n.close n.opened.length).content.reverse

/-- The names of the end tags that close nothing, in order. -/
def strayEndTags (d : Dialect) (n : Nesting) : List Token → List Text
  | [] => []
  | t :: ts =>
    let stray := match t with
      | .endTag name => if (levels? d name n.opened).isNone then [name] else []
      | _ => []
    stray ++ strayEndTags d (n.step d t) ts

end Nesting

end MailTemplate
