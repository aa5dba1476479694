import MailTemplate.Markup.Element
import MailTemplate.Text.WhiteSpace
import MailTemplate.Url.FilePath

/-!
# Links to style sheets

A link names a sheet by an absolute URL, by one that is relative to a base URL, or, where there is no base, by a path
beside the template. Links that name neither a file nor a page of the web are left where they are.
-/
namespace MailTemplate

/-- How URLs are read. Which file or page a link names is decided by it alone, and nothing else looks into a URL further
than its scheme. -/
structure UrlReading where
  parse : Text → Except UrlError Url
  /-- The URL that a text names from another one. -/
  join : Url → Text → Except UrlError Url
  /-- The file that a URL names on this machine. -/
  filePath? : Url → Option Path

/-- URLs as the web has them. -/
def UrlReading.web : UrlReading := ⟨Url.parse, Url.join, Url.filePath?⟩

/-- How a template is inlined. -/
structure Settings where
  dialect : Dialect
  /-- Whether the result is laid out, one node a line. -/
  pretty : Bool
  /-- What relative links are joined onto. -/
  baseUrl : Option Url
  urls : UrlReading

/-- Jelly templates, laid out, with sheets beside the template. -/
def Settings.jelly : Settings := ⟨.jelly, true, none, .web⟩

/-- Where a linked sheet is. -/
inductive Location where
  | file (path : Path)
  | remote (url : Url)
  deriving DecidableEq

/-- Why a link names no sheet that can be read. -/
inductive LinkProblem where
  | malformed (href : Text) (e : UrlError)
  /-- A link without a scheme that becomes no URL with one either. -/
  | malformedHost
  | notJoined (href : Text) (base : Url) (e : UrlError)
  | notLocal (url : Url)
  | unsupportedScheme (url : Url)
  deriving DecidableEq

namespace Location

variable (urls : UrlReading)

/-- Where the sheet of an absolute URL is. -/
def ofUrl (u : Url) : Except LinkProblem Location :=
  if u.scheme = "http".toList ∨ u.scheme = "https".toList then .ok (.remote u)
  else if isFileScheme u.scheme then
    match urls.filePath? u with
    | none => .error (.notLocal u)
    | some path => .ok (.file path)
  else .error (.unsupportedScheme u)

/-- Where the sheet of a link without a scheme is. Without a base URL, two slashes begin a host, and anything else is a
path from the directory of the template. -/
def ofRelative (base : Option Url) (dir : Option Path) (href : Text) : Except LinkProblem Location :=
  match base with
  | some b =>
    match urls.join b href with
    | .ok u => ofUrl urls u
    | .error e => .error (.notJoined href b e)
  | none =>
    if "//".toList.isPrefixOf href then
      match urls.parse ("https:".toList ++ href) with
      | .ok u => ofUrl urls u
      | .error _ => .error .malformedHost
    else .ok (.file (Path.join (dir.getD []) (Text.bytes href)))

/-- Where the sheet of a link is; `dir` is the directory of the template. -/
def ofHref (base : Option Url) (dir : Option Path) (href : Text) : Except LinkProblem Location :=
  let href := Text.trim href
  match urls.parse href with
  | .ok u => ofUrl urls u
  | .error .relativeWithoutBase => ofRelative urls base dir href
  | .error e => .error (.malformed href e)

end Location

/-- Whether a link is one to a style sheet. -/
def isStylesheetLink (d : Dialect) (e : Element) : Bool :=
  match e.attributeIn? d "rel".toList with
  | none => false
  | some rel => isAmong (Text.words rel) "stylesheet".toList

end MailTemplate
