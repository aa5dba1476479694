import MailTemplate.Correction
import MailTemplate.Markup.Parser
import MailTemplate.Markup.Printer
import MailTemplate.Style.Source
import MailTemplate.Style.Styling

/-!
# Inlining

A template is read, its sheets are taken out, its elements are styled, and it is written again. The first source that
cannot be read ends all of it.
-/
namespace MailTemplate

/-- All sheets of a template as one, in document order. -/
def Forest.sheet (s : Settings) (dir : Option Path) (read : Reader) (f : Forest) : Css.Stylesheet :=
  .concat ((Forest.sources (Source.of? s dir) f).filterMap (·.sheet? read))

/-- A template after inlining, all sources being readable. -/
def Forest.inlined (s : Settings) (dir : Option Path) (read : Reader) (f : Forest) : Styled :=
  style s.dialect (f.sheet s dir read) (Forest.withoutSheets (Source.of? s dir) (·.sheet? read) f)

/-- Inlines the sheets of a template; `dir` is the directory that relative paths are meant from. -/
def inline (s : Settings) (dir : Option Path) (read : Reader) (src : Text) : Except Failure Text :=
  match Forest.parse s.dialect src with
  | .error e => .error (.parse e)
  | .ok f =>
    match (Forest.sources (Source.of? s dir) f).findSome? (·.failure? read) with
    | some failure => .error failure
    | none => .ok ((f.inlined s dir read).trees.print s.pretty)

/-- Inlines the sheets of a template and corrects the result. -/
def process (s : Settings) (dir : Option Path) (read : Reader) (corrections : List Correction) (src : Text) :
    Except Failure Text :=
  (inline s dir read src).map (Correction.applyAll corrections)

end MailTemplate
