import MailTemplate.Markup.Tree
import MailTemplate.Text.WhiteSpace

/-!
# Writing a template

Trees are written compactly, as they would be read back, or laid out with one node a line and one space of indentation a
level. Only `<` is escaped in character data; `&` is written as it is.
-/
namespace MailTemplate

/-! ## Leaves and tags -/

/-- Character data with each `<` escaped. -/
def escapeText (t : Text) : Text := t.flatMap fun c => if c = '<' then "&lt;".toList else [c]

/-- A leaf as it is written. -/
def Leaf.print : Leaf → Text
  | .text t => escapeText t
  | .raw t => t
  | .comment t => "<!--".toList ++ t ++ "-->".toList
  | .cdata t => "<![CDATA[".toList ++ t ++ "]]>".toList
  | .declaration t => "<!".toList ++ t ++ ">".toList
  | .instruction t => "<?".toList ++ t ++ "?>".toList

/-- An attribute value between quotes: double ones where that can be, single ones where only that can be, and double
ones with the inner double quotes escaped where neither can be. -/
def quoteValue (v : Text) : Text :=
  if v.contains '"' then
    if v.contains '\'' then
      ['"'] ++ v.flatMap (fun c => if c = '"' then "&quot;".toList else [c]) ++ ['"']
    else ['\''] ++ v ++ ['\'']
  else ['"'] ++ v ++ ['"']

/-- An attribute with the space before it. -/
def Attribute.print (a : Attribute) : Text :=
  match a.value with
  | none => ' ' :: a.name
  | some v => ' ' :: a.name ++ '=' :: quoteValue v

namespace Element

def startTag (e : Element) : Text :=
  '<' :: e.name ++ e.attributes.flatMap Attribute.print ++ if e.isVoid then " />".toList else ">".toList

def endTag (e : Element) : Text := "</".toList ++ e.name ++ ">".toList

end Element

/-! ## Trees -/

mutual

/-- A tree in compact form. -/
def Tree.compact : Tree → Text
  | .leaf l => l.print
  | .element e content => if e.isVoid then e.startTag else e.startTag ++ Forest.compact content ++ e.endTag

/-- Trees in compact form. -/
def Forest.compact : List Tree → Text
  | [] => []
  | t :: ts => t.compact ++ Forest.compact ts

end

/-- A line of the layout at a depth. -/
def layoutLine (depth : Nat) (t : Text) : Text := List.replicate depth ' ' ++ t ++ ['\n']

/-- A leaf as the layout has it at a depth: character data is trimmed, raw text keeps its indentation, and either is
left out where only white space remains. -/
def Leaf.layout (depth : Nat) : Leaf → Text
  | .text t => if Text.trim t = [] then [] else layoutLine depth (escapeText (Text.trim t))
  | .raw t => if Text.trim t = [] then [] else layoutLine 0 (Text.strip (fun c => c == '\n' || c == '\r') t)
  | l => layoutLine depth l.print

mutual

/-- A tree laid out at a depth. -/
def Tree.layout (depth : Nat) : Tree → Text
  | .leaf l => l.layout depth
  | .element e content =>
    if e.isVoid then layoutLine depth e.startTag
    else if isPreformatted e.name then layoutLine depth (e.startTag ++ Forest.compact content ++ e.endTag)
    else layoutLine depth e.startTag ++ Forest.layout (depth + 1) content ++ layoutLine depth e.endTag

/-- Trees laid out at a depth. -/
def Forest.layout (depth : Nat) : List Tree → Text
  | [] => []
  | t :: ts => t.layout depth ++ Forest.layout depth ts

end

/-- Trees as they are written, laid out or compactly. -/
def Forest.print (pretty : Bool) (f : Forest) : Text := if pretty then Forest.layout 0 f else Forest.compact f

end MailTemplate
