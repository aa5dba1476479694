import MailTemplate.Markup.Element

/-!
# Trees

What a template says once its tags are matched up: elements with their content, and leaves.
-/
namespace MailTemplate

/-- What stands in a template beside elements. -/
inductive Leaf where
  /-- Character data, with its entities decoded. -/
  | text (t : Text)
  /-- The content of an element that holds raw text. -/
  | raw (t : Text)
  | comment (t : Text)
  | cdata (t : Text)
  /-- What stands between `<!` and `>`. -/
  | declaration (t : Text)
  /-- What stands between `<?` and `?>`. -/
  | instruction (t : Text)
  deriving Repr, DecidableEq

/-- A leaf, or an element with its content. -/
inductive Tree where
  | leaf (l : Leaf)
  | element (e : Element) (content : List Tree)

/-- Trees side by side. -/
abbrev Forest := List Tree

/-- The character data of a leaf that counts as content: text, raw text and CDATA sections. -/
def Leaf.contentText : Leaf → Text
  | .text t | .raw t | .cdata t => t
  | .comment _ | .declaration _ | .instruction _ => []

namespace Tree

/-- The character data of the tree itself; that inside an element is not its own. -/
def ownText : Tree → Text
  | .leaf l => l.contentText
  | .element .. => []

def isElement : Tree → Bool
  | .leaf _ => false
  | .element .. => true

end Tree

/-- The character data directly in the forest. -/
def Forest.ownText (f : Forest) : Text := f.flatMap Tree.ownText

end MailTemplate
