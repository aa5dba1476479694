import MailTemplate.Markup.Tree

/-!
# Documents

A document numbers its nodes, so that a tree can be edited and looked around in. Node 0 is the root; a new node gets the
next number and hangs nowhere. Nodes are never taken away, only unlinked. Parents and children are kept in both
directions, and every operation below changes both.
-/
namespace MailTemplate

/-- The number of a node. -/
abbrev NodeId := Nat

/-- What a node holds. -/
inductive NodeData where
  | document
  | element (e : Element)
  | leaf (l : Leaf)
  deriving Repr, DecidableEq

/-- What a node holds, and its links. -/
structure Node where
  data : NodeData
  parent : Option NodeId
  children : List NodeId
  deriving Repr, DecidableEq

/-- Numbered nodes. -/
structure Document where
  nodes : Array Node
  deriving Repr, DecidableEq

namespace Document

/-- The document that has only its root. -/
def empty : Document := ⟨#[⟨.document, none, []⟩]⟩

def root : NodeId := 0

/-- How many nodes there are, linked or not; also the number that the next node gets. -/
def size (d : Document) : Nat := d.nodes.size

/-! ## Looking at a node -/

def data? (d : Document) (i : NodeId) : Option NodeData := d.nodes[i]?.map Node.data

def parent? (d : Document) (i : NodeId) : Option NodeId := d.nodes[i]?.bind Node.parent

def children (d : Document) (i : NodeId) : List NodeId := (d.nodes[i]?.map Node.children).getD []

def element? (d : Document) (i : NodeId) : Option Element :=
  match d.data? i with
  | some (.element e) => some e
  | _ => none

def isElement (d : Document) (i : NodeId) : Bool := (d.element? i).isSome

/-- The parent, if it is an element. -/
def parentElement? (d : Document) (i : NodeId) : Option NodeId := (d.parent? i).filter d.isElement

/-- What stands before a node under its parent, nearest first. -/
def earlierSiblings (d : Document) (i : NodeId) : List NodeId :=
  match d.parent? i with
  | none => []
  | some p => ((d.children p).takeWhile (· != i)).reverse

/-- What stands after a node under its parent, nearest first. -/
def laterSiblings (d : Document) (i : NodeId) : List NodeId :=
  match d.parent? i with
  | none => []
  | some p => ((d.children p).dropWhile (· != i)).drop 1

/-- The nearest element before a node under its parent. -/
def previousElement? (d : Document) (i : NodeId) : Option NodeId := (d.earlierSiblings i).find? d.isElement

/-- The nearest element after a node under its parent. -/
def nextElement? (d : Document) (i : NodeId) : Option NodeId := (d.laterSiblings i).find? d.isElement

/-- The character data of a node. -/
def NodeData.ownText : NodeData → Text
  | .leaf l => l.contentText
  | .document | .element _ => []

/-- The character data directly inside a node. -/
def textContent (d : Document) (i : NodeId) : Text :=
  (d.children i).flatMap fun c => ((d.data? c).map NodeData.ownText).getD []

/-! ## Walking -/

/-- The nodes reached from a stack of nodes to visit, each followed by what is below it, in at most `steps` steps. -/
def walk (d : Document) : (steps : Nat) → (stack : List NodeId) → List NodeId
  | 0, _ => []
  | _ + 1, [] => []
  | steps + 1, i :: stack => i :: d.walk steps (d.children i ++ stack)

/-- The nodes below a node, in document order. In a document without cycles no node is met twice, so that as many steps
as there are nodes suffice. -/
def descendants (d : Document) (i : NodeId) : List NodeId := d.walk d.size (d.children i)

/-- The trees that a node stands for, to a depth: an element with its content, a leaf alone, and for a document node
what is below it. -/
def treesAt (d : Document) : (depth : Nat) → NodeId → Forest
  | 0, _ => []
  | depth + 1, i =>
    match d.data? i with
    | none => []
    | some .document => (d.children i).flatMap (d.treesAt depth)
    | some (.element e) => [.element e ((d.children i).flatMap (d.treesAt depth))]
    | some (.leaf l) => [.leaf l]

/-- The trees below the root. No path in a document without cycles is longer than its number of nodes. -/
def forest (d : Document) : Forest := d.treesAt d.size root

/-! ## Editing -/

/-- Changes a node. -/
def update (d : Document) (i : NodeId) (f : Node → Node) : Document := ⟨d.nodes.modify i f⟩

def setParent (d : Document) (i : NodeId) (p : Option NodeId) : Document := d.update i fun n => { n with parent := p }

def setChildren (d : Document) (i : NodeId) (cs : List NodeId) : Document :=
  d.update i fun n => { n with children := cs }

/-- Adds a node that hangs nowhere; its number is the former size. -/
def create (d : Document) (data : NodeData) : Document := ⟨d.nodes.push ⟨data, none, []⟩⟩

/-- Unlinks a node from its parent. -/
def detach (d : Document) (i : NodeId) : Document :=
  match d.parent? i with
  | none => d
  | some p => (d.setParent i none).setChildren p ((d.children p).filter (· != i))

/-- Makes `child` the last child of `parent`, wherever it hung before. -/
def append (d : Document) (parent child : NodeId) : Document :=
  let d := (d.detach child).setParent child (some parent)
  d.setChildren parent (d.children parent ++ [child])

/-- Adds character data at the end of `parent`: to the last child, if that is character data, else as a new node. -/
def appendText (d : Document) (parent : NodeId) (t : Text) : Document :=
  if t = [] then d
  else
    let last := (d.children parent).getLast?
    match last, last.bind d.data? with
    | some i, some (.leaf (.text u)) => d.update i fun n => { n with data := .leaf (.text (u ++ t)) }
    | _, _ => (d.create (.leaf (.text t))).append parent d.size

/-- Puts `new` in the place of `old`, which is unlinked. Where `old` hangs nowhere nothing happens; where unlinking `new`
takes `old` out of its place, `new` is only unlinked. -/
def replace (d : Document) (old new : NodeId) : Document :=
  match d.parent? old with
  | none => d
  | some p =>
    let d := d.detach new
    if (d.children p).contains old then
      ((d.setChildren p ((d.children p).map fun c => if c = old then new else c)).setParent new (some p)).setParent
        old none
    else d

/-- Unlinks all children of a node. -/
def clearChildren (d : Document) (i : NodeId) : Document :=
  (d.children i).foldl (fun d c => d.setParent c none) (d.setChildren i [])

/-- Sets an attribute of an element. -/
def setAttribute (d : Document) (i : NodeId) (name value : Text) : Document :=
  d.update i fun n => match n.data with
    | .element e => { n with data := .element (e.setAttribute name value) }
    | _ => n

/-! ## From trees -/

mutual

/-- Adds a tree at the end of `parent`. -/
def graft (d : Document) (parent : NodeId) : Tree → Document
  | .leaf l => (d.create (.leaf l)).append parent d.size
  | .element e content => graftAll ((d.create (.element e)).append parent d.size) d.size content

/-- Adds trees at the end of `parent`. -/
def graftAll (d : Document) (parent : NodeId) : List Tree → Document
  | [] => d
  | t :: ts => graftAll (d.graft parent t) parent ts

end

/-- The document of some trees; the numbers follow document order. -/
def ofForest (f : Forest) : Document := empty.graftAll root f

end Document

end MailTemplate
