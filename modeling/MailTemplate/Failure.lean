import MailTemplate.Markup.Fault
import MailTemplate.Store
import MailTemplate.Url.Basic

/-!
# Failures

Everything that ends a run without a result.
-/
namespace MailTemplate

def FileFault.describe : FileFault → String
  | notFound => "no such file or directory"
  | isDirectory => "is a directory"
  | notDirectory => "not a directory"
  | invalidData => "the file does not hold UTF-8"
  | invalidInput => "the path has a byte that no name can have"
  | nameTooLong => "the path is too long"

/-- Why a run has no result. -/
inductive Failure where
  | file (path : Path) (fault : FileFault)
  /-- A style sheet could not be fetched. -/
  | fetch (url : Url)
  | parse (e : ParseError)
  deriving DecidableEq

namespace Failure

/-- What failed; the reason follows where the failure came from outside. -/
def headline : Failure → String
  | file path _ => "io error on " ++ String.ofList path.shown ++ ": "
  | fetch url => "could not fetch stylesheet " ++ String.ofList url.print ++ ": "
  | parse e => e.message

/-- The reason that came from outside. -/
def detail : Failure → String
  | file _ fault => fault.describe
  | fetch _ => "no connection"
  | parse _ => ""

def message (f : Failure) : String := f.headline ++ f.detail

end Failure

end MailTemplate
