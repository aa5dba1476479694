import MailTemplate.Text.Basic

/-!
# Faults of a template

The only templates that cannot be read are those that end inside a construct. A fault is reported at the line and the
byte column, counted from one, where that construct begins.
-/
namespace MailTemplate

/-- A place in a text: a line and a byte within it, both counted from one. -/
structure Position where
  line : Nat
  column : Nat
  deriving Repr, DecidableEq

/-- The place just after `t`. -/
def Position.after (t : Text) : Position where
  line := t.count '\n' + 1
  column := Text.byteSize (t.reverse.takeWhile (· != '\n')) + 1

/-- What may be left open at the end of a template. -/
inductive Construct where
  | comment
  | cdata
  | declaration
  | instruction
  | tag
  deriving Repr, DecidableEq

def Construct.describe : Construct → String
  | comment => "comment"
  | cdata => "CDATA section"
  | declaration => "declaration"
  | instruction => "processing instruction"
  | tag => "tag"

/-- Why a template cannot be read. -/
inductive Fault where
  /-- The template ends inside a construct. -/
  | unterminated (c : Construct)
  /-- An element that holds raw text has no end tag. -/
  | unclosed (name : Text)
  deriving Repr, DecidableEq

def Fault.describe : Fault → String
  | unterminated c => "unterminated " ++ c.describe
  | unclosed name => "unclosed <" ++ String.ofList name ++ "> element"

/-- A fault and the place of the construct that has it. -/
structure ParseError where
  position : Position
  fault : Fault
  deriving Repr, DecidableEq

def ParseError.message (e : ParseError) : String :=
  s!"parse error at line {e.position.line}, column {e.position.column}: {e.fault.describe}"

end MailTemplate
