import MailTemplate.Css.Stylesheet
import MailTemplate.Failure
import MailTemplate.Markup.Tree
import MailTemplate.Style.Link

/-!
# Sources of style

Every style element and every link to a style sheet is a source. The sheets are taken out of the template in document
order; of each, only its at-rules stay, in a style element at the place of the source.
-/
namespace MailTemplate

/-- What gives style to a template. -/
inductive Source where
  /-- The content of a style element. -/
  | embedded (css : Text)
  | linked (location : Location)
  /-- A link that stays, since it names no sheet that can be read. -/
  | left (problem : LinkProblem)
  deriving DecidableEq

/-- A way to read what is at a location. -/
abbrev Reader := Location → Except Failure Text

namespace Source

/-- The source that an element is, with the character data in it. A link without an address is none. -/
def ofElement? (s : Settings) (dir : Option Path) (e : Element) (css : Text) : Option Source :=
  if Text.sameLetters e.name "style".toList then some (.embedded css)
  else if Text.sameLetters e.name "link".toList && isStylesheetLink s.dialect e then
    match e.attributeIn? s.dialect "href".toList with
    | none => none
    | some href =>
      match Location.ofHref s.urls s.baseUrl dir href with
      | .ok location => some (.linked location)
      | .error problem => some (.left problem)
  else none

/-- The source that an element is, with its content. -/
def of? (s : Settings) (dir : Option Path) (e : Element) (content : Forest) : Option Source :=
  ofElement? s dir e content.ownText

/-- Why a source cannot be read. -/
def failure? (read : Reader) : Source → Option Failure
  | linked location =>
    match read location with
    | .ok _ => none
    | .error f => some f
  | embedded _ | left _ => none

/-- The sheet of a source that can be read. -/
def sheet? (read : Reader) : Source → Option Css.Stylesheet
  | embedded css => some (.parse css)
  | linked location => (read location).toOption.map .parse
  | left _ => none

end Source

/-! ## All sources -/

mutual

/-- The sources in a tree, in document order; there are none inside a source that is read. -/
def Tree.sources (of? : Element → Forest → Option Source) : Tree → List Source
  | .leaf _ => []
  | .element e content =>
    match of? e content with
    | none => Forest.sources of? content
    | some (.left problem) => .left problem :: Forest.sources of? content
    | some source => [source]

def Forest.sources (of? : Element → Forest → Option Source) : List Tree → List Source
  | [] => []
  | t :: ts => t.sources of? ++ Forest.sources of? ts

end

/-! ## Taking sheets out -/

/-- The style element that keeps the at-rules of a sheet, each on a line of its own; nothing where there are none. -/
def keepAtRules (e : Element) (sheet : Css.Stylesheet) : Forest :=
  if sheet.atRules = [] then []
  else [.element e [.leaf (.raw (['\n'] ++ Text.join ['\n'] sheet.atRules ++ ['\n']))]]

/-- What stays of a source that has been read: of a style element the element itself, of a link a new style element. -/
def Source.remains (e : Element) (sheet : Css.Stylesheet) : Source → Forest
  | embedded _ => keepAtRules e sheet
  | linked _ | left _ => keepAtRules ⟨"style".toList, [], false⟩ sheet

mutual

/-- What stays of a tree when the sheets of its sources are taken out. -/
def Tree.withoutSheets (of? : Element → Forest → Option Source) (sheet? : Source → Option Css.Stylesheet) : Tree → Forest
  | .leaf l => [.leaf l]
  | .element e content =>
    match of? e content with
    | none => [.element e (Forest.withoutSheets of? sheet? content)]
    | some source =>
      match sheet? source with
      | none => [.element e (Forest.withoutSheets of? sheet? content)]
      | some sheet => source.remains e sheet

def Forest.withoutSheets (of? : Element → Forest → Option Source) (sheet? : Source → Option Css.Stylesheet) :
    List Tree → Forest
  | [] => []
  | t :: ts => t.withoutSheets of? sheet? ++ Forest.withoutSheets of? sheet? ts

end

end MailTemplate
