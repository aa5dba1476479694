import MailTemplate.Markup.Nesting

/-!
# Reading a template

A template is read as a row of tokens, which are then put together into trees. The first token that cannot be read is
reported where it stands, and nothing else makes a template unreadable.
-/
namespace MailTemplate

/-- The place in `src` of the rest that a fault points at. -/
def FaultAt.error (f : FaultAt) (src : Text) : ParseError where
  position := Position.after (src.take (src.length - f.rest.length))
  fault := f.fault

/-- The trees that a row of tokens stands for. -/
def Forest.ofTokens (d : Dialect) (ts : List Token) : Forest := (Nesting.empty.steps d ts).finish

/-- Reads a template. -/
def Forest.parse (d : Dialect) (src : Text) : Except ParseError Forest :=
  let row := Token.readAll d src
  match row.fault? with
  | some f => .error (f.error src)
  | none => .ok (Forest.ofTokens d row.tokens)

end MailTemplate
