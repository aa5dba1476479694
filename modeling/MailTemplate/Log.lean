import MailTemplate.Style.Inline
import MailTemplate.Text.Quoted

/-!
# What a run reports

Beside its result a run reports what it read and wrote, what it passed over and why. Each report has a level, so that
the less important ones can be left out.
-/
namespace MailTemplate

inductive LogLevel where
  | warn
  | info
  | debug
  deriving Repr, DecidableEq

def LogLevel.name : LogLevel → String
  | warn => "WARN"
  | info => "INFO"
  | debug => "DEBUG"

/-- How little a level matters. -/
def LogLevel.rank : LogLevel → Nat
  | warn => 0
  | info => 1
  | debug => 2

/-- Something that a run reports. -/
inductive Event where
  | readFile (bytes : Nat) (path : Path)
  | wroteFile (bytes : Nat) (path : Path)
  | strayEndTag (name : Text)
  | leftOpen (elements : Nat)
  | readingSheet (path : Path)
  | fetchingSheet (url : Url)
  | ignoredLink (problem : LinkProblem)
  | refusedSelector (r : Css.Refused)
  | trailingCss (text : Text)
  | valuelessDeclaration (text : Text)
  | collected (rules atRules : Nat)
  | inlined (elements : Nat)
  | corrected (count : Nat) (c : Correction)
  deriving DecidableEq

/-- A text between quotes, for a message. -/
def shown (t : Text) : String := String.ofList (Text.quoted t)

/-- The message for a selector that was refused. -/
def Css.Refused.message (r : Css.Refused) : String := "unsupported selector " ++ shown r.source ++ ": " ++ r.reason

/-- The message for a link that stays; one that becomes no URL even with a scheme is passed over in silence. -/
def LinkProblem.message? : LinkProblem → Option String
  | malformed href e => some ("ignoring stylesheet link " ++ shown href ++ ": " ++ e.describe)
  | malformedHost => none
  | notJoined href base e =>
    some ("cannot join stylesheet " ++ shown href ++ " onto " ++ String.ofList base.print ++ ": " ++ e.describe)
  | notLocal url => some ("ignoring stylesheet link " ++ String.ofList url.print ++ ": not a local path")
  | unsupportedScheme url =>
    some ("ignoring stylesheet link " ++ String.ofList url.print ++ ": unsupported scheme " ++ String.ofList url.scheme)

namespace Event

def level : Event → LogLevel
  | ignoredLink _ | refusedSelector _ | trailingCss _ => .warn
  | readFile .. | wroteFile .. | fetchingSheet _ | inlined _ => .info
  | strayEndTag _ | leftOpen _ | readingSheet _ | valuelessDeclaration _ | collected .. | corrected .. => .debug

/-- The message of an event, if it has one. -/
def message? : Event → Option String
  | readFile bytes path => some ("read " ++ toString bytes ++ " bytes from " ++ String.ofList path.shown)
  | wroteFile bytes path => some ("wrote " ++ toString bytes ++ " bytes to " ++ String.ofList path.shown)
  | strayEndTag name => some ("ignoring stray end tag </" ++ String.ofList name ++ ">")
  | leftOpen elements => some ("closing " ++ toString elements ++ " element(s) left open at end of input")
  | readingSheet path => some ("reading linked stylesheet " ++ String.ofList path.shown)
  | fetchingSheet url => some ("fetching linked stylesheet " ++ String.ofList url.print)
  | ignoredLink problem => problem.message?
  | refusedSelector r => some (r.message ++ "; skipping it")
  | trailingCss text => some ("ignoring trailing css text " ++ shown text)
  | valuelessDeclaration text => some ("ignoring declaration without a value: " ++ shown text)
  | collected rules atRules =>
    some ("collected " ++ toString rules ++ " rule(s), " ++ toString atRules ++ " at-rule(s)")
  | inlined elements => some ("inlined styles into " ++ toString elements ++ " element(s)")
  | corrected count c =>
    some ("replaced " ++ toString count ++ " x " ++ shown c.pattern ++ " -> " ++ shown c.replacement)

end Event

/-- The levels and messages of the events that matter at least as much as `level`. -/
def messages (level : LogLevel) (events : List Event) : List (LogLevel × String) :=
  events.filterMap fun e => if e.level.rank ≤ level.rank then e.message?.map fun m => (e.level, m) else none

/-! ## Events of each step -/

/-- What reading a template reports. -/
def parseEvents (d : Dialect) (src : Text) : List Event :=
  let row := Token.readAll d src
  let left := (Nesting.empty.steps d row.tokens).opened.length
  (Nesting.strayEndTags d .empty row.tokens).map .strayEndTag ++
    if row.fault?.isSome || left == 0 then [] else [.leftOpen left]

/-- What reading a declaration block reports. -/
def blockEvents (block : Text) : List Event :=
  ((Css.split ';' block).filterMap Css.Declaration.valueless?).map .valuelessDeclaration

/-- What an item of a sheet reports. The block of a rule is not looked at where all its selectors are refused. -/
def itemEvents : Css.Item → List Event
  | .rule prelude body =>
    let refused := (Css.Selector.parseGroup prelude).filterMap fun
      | .ok _ => none
      | .error r => some (.refusedSelector r)
    refused ++ if Css.acceptedSelectors prelude = [] then [] else blockEvents body
  | .atRule _ => []
  | .trailing text => [.trailingCss text]

/-- What reading a sheet reports. -/
def sheetEvents (css : Text) : List Event := (Css.items (Css.stripComments css)).flatMap itemEvents

/-- What is reported before a linked sheet is read. -/
def Location.reading : Location → Event
  | .file path => .readingSheet path
  | .remote url => .fetchingSheet url

/-- What reading sources reports, up to the first that cannot be read. -/
def sourceEvents (read : Reader) : List Source → List Event
  | [] => []
  | .embedded css :: more => sheetEvents css ++ sourceEvents read more
  | .left problem :: more => .ignoredLink problem :: sourceEvents read more
  | .linked location :: more =>
    location.reading :: match read location with
      | .error _ => []
      | .ok css => sheetEvents css ++ sourceEvents read more

/-- What styling reports: the `style` attributes of styled elements are read as blocks. -/
def styleEvents (styled : Styled) : List Event := styled.former.flatMap blockEvents ++ [.inlined styled.count]

/-- What inlining reports. -/
def inlineEvents (s : Settings) (dir : Option Path) (read : Reader) (src : Text) : List Event :=
  parseEvents s.dialect src ++
    match Forest.parse s.dialect src with
    | .error _ => []
    | .ok f =>
      let sources := Forest.sources (Source.of? s dir) f
      sourceEvents read sources ++
        match sources.findSome? (·.failure? read) with
        | some _ => []
        | none =>
          let sheet := f.sheet s dir read
          .collected sheet.rules.length sheet.atRules.length :: styleEvents (f.inlined s dir read)

/-- What corrections report: each that replaces something. -/
def correctionEvents (corrections : List Correction) (t : Text) : List Event :=
  match corrections with
  | [] => []
  | c :: more =>
    (if c.count t = 0 then [] else [.corrected (c.count t) c]) ++ correctionEvents more (c.apply t)

/-- What inlining and correcting reports. -/
def processEvents (s : Settings) (dir : Option Path) (read : Reader) (corrections : List Correction) (src : Text) :
    List Event :=
  inlineEvents s dir read src ++
    match inline s dir read src with
    | .error _ => []
    | .ok t => correctionEvents corrections t

end MailTemplate
