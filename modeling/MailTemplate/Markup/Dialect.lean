import MailTemplate.Text.Basic

/-!
# Dialects

How the names of a template are compared, which elements hold nothing, which may stand inside an element of their own
name, and which hold raw text.
-/
namespace MailTemplate

/-- The rules for names that a template is read by. -/
structure Dialect where
  caseSensitive : Bool
  /-- Elements that hold nothing, beside those of HTML. -/
  selfClosing : List Text
  /-- Elements that may stand inside an open element of the same name. -/
  nestable : List Text
  deriving Repr

namespace Dialect

/-- Two names that the dialect takes for one. -/
def sameName (d : Dialect) (a b : Text) : Bool := if d.caseSensitive then a == b else Text.sameLetters a b

/-- A name as the dialect keeps it. -/
def keep (d : Dialect) (name : Text) : Text := if d.caseSensitive then name else Text.lower name

def isSelfClosing (d : Dialect) (name : Text) : Bool := d.selfClosing.any (d.sameName · name)

def isNestable (d : Dialect) (name : Text) : Bool := d.nestable.any (d.sameName · name)

/-- The dialect of Jelly mail templates. -/
def jelly : Dialect where
  caseSensitive := false
  selfClosing := ["j:set".toList, "j:getstatic".toList, "br".toList]
  nestable := ["j:if".toList, "j:foreach".toList, "table".toList]

end Dialect

/-- The elements of HTML that hold nothing, in every dialect. -/
def htmlVoidNames : List Text :=
  ["area", "base", "br", "col", "embed", "hr", "img", "input", "link", "meta", "param", "source", "track",
    "wbr"].map String.toList

/-- Whether `name` is one of `names`, the case of ASCII letters aside. -/
def isAmong (names : List Text) (name : Text) : Bool := names.any (Text.sameLetters · name)

/-- Elements whose content is raw text, up to their end tag. -/
def holdsRawText (name : Text) : Bool := isAmong ["style".toList, "script".toList] name

/-- Elements whose content keeps its white space when a tree is laid out. -/
def isPreformatted (name : Text) : Bool := isAmong ["pre".toList, "textarea".toList] name

/-- Whether an element of this name holds nothing in the dialect. -/
def Dialect.isVoid (d : Dialect) (name : Text) : Bool := isAmong htmlVoidNames name || d.isSelfClosing name

end MailTemplate
