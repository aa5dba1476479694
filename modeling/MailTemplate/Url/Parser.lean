import MailTemplate.Url.Host
import MailTemplate.Url.Segments

/-!
# Reading URLs

A text is a URL by itself, or relative to a base. Both are read by the rules of the web: blanks around a URL and line
breaks in it do not count, backslashes are slashes in the web's own schemes, and every part is escaped as it is read.
-/
namespace MailTemplate

namespace Url

/-! ## Parts of the text -/

/-- The text without the control characters and spaces around it, and without tabs and line breaks. -/
def clean (s : Text) : Text := (Text.strip (·.toNat ≤ 0x20) s).filter fun c => !(c == '\t' || c == '\n' || c == '\r')

/-- The scheme at the start, in lower case, and what follows its colon. -/
def scheme? (s : Text) : Option (Text × Text) :=
  match s with
  | [] => none
  | c :: _ =>
    let isSchemeChar (c : Char) : Bool := c.isAlphanum || c == '+' || c == '-' || c == '.'
    if c.isAlpha then
      match s.dropWhile isSchemeChar with
      | ':' :: rest => some (Text.lower (s.takeWhile isSchemeChar), rest)
      | _ => none
    else none

/-- Whether the character ends a path. -/
def endsPath (c : Char) : Bool := c == '?' || c == '#'

/-- Gives a URL the fragment that follows a `#`. -/
def withFragment (u : Url) (s : Text) : Url := { u with fragment := some (percentEncode UrlPart.fragment s) }

/-- Gives a URL the query and the fragment that the text, which comes after a path, begins with. -/
def withTail (u : Url) (s : Text) : Url :=
  let escaped := if isSpecialScheme u.scheme then UrlPart.specialQuery else UrlPart.query
  let query := match s with
    | '?' :: query => some (percentEncode escaped (query.takeWhile (· != '#')))
    | _ => none
  match s.dropWhile (· != '#') with
  | '#' :: fragment => withFragment { u with query } fragment
  | _ => { u with query, fragment := none }

/-- Gives a URL the path that `read` makes of the start of the text, and then query and fragment. -/
def withPathBy (u : Url) (read : Text → List Text) (s : Text) : Url :=
  let u := { u with path := .rooted (read (s.takeWhile (!endsPath ·))) }
  u.withTail (s.dropWhile (!endsPath ·))

/-- Reads the path segments at the start of the text onto `path`, and then query and fragment. -/
def withPath (u : Url) (path : List Text) (s : Text) : Url := u.withPathBy (Segments.append u.scheme path) s

/-! ## Authorities -/

/-- The text before the last `@`, if there is one, and the text after it. -/
def cutCredentials (s : Text) : Option Text × Text :=
  let back := s.reverse
  match back.dropWhile (· != '@') with
  | [] => (none, s)
  | _ :: before => (some before.reverse, (back.takeWhile (· != '@')).reverse)

/-- The text up to the first colon outside square brackets, and the text from that colon on. -/
def cutPort (bracketed : Bool) : Text → Text × Text
  | [] => ([], [])
  | c :: s =>
    if c = ':' ∧ bracketed = false then ([], c :: s)
    else
      let (host, port) := cutPort (if c = '[' then true else if c = ']' then false else bracketed) s
      (c :: host, port)

/-- Reads a port with the colon before it; the port that the scheme uses by itself is left out. -/
def parsePort (scheme : Text) (s : Text) : Except UrlError (Option Nat) :=
  let digits := s.drop 1
  let port := digits.foldl (fun n c => n * 10 + (c.toNat - '0'.toNat)) 0
  if !digits.all Char.isDigit || 65535 < port then .error .invalidPort
  else if digits = [] ∨ defaultPort? scheme = some port then .ok none
  else .ok (some port)

/-- Whether the character ends an authority. -/
def endsAuthority (scheme : Text) (c : Char) : Bool := Segments.isSlash scheme c || endsPath c

/-- The authority at the start of a text, and what follows it. Within a port, a backslash ends it in all schemes. -/
def cutAuthority (scheme : Text) (s : Text) : Text × Text :=
  let text := s.takeWhile (!endsAuthority scheme ·)
  let after := (cutPort false (cutCredentials text).2).2.dropWhile (· != '\\')
  (text.take (text.length - after.length), after ++ s.dropWhile (!endsAuthority scheme ·))

/-- Reads an authority from its text; `atEnd` says whether anything follows it. -/
def parseAuthority (scheme : Text) (s : Text) (atEnd : Bool) : Except UrlError Authority :=
  let (credentials, place) := cutCredentials s
  let (hostText, portText) := cutPort false place
  let username := percentEncode UrlPart.credentials ((credentials.getD []).takeWhile (· != ':'))
  let password := percentEncode UrlPart.credentials (((credentials.getD []).dropWhile (· != ':')).drop 1)
  if credentials = some [] ∧ place = [] ∧ atEnd = false then .error .emptyHost
  else if isSpecialScheme scheme && hostText.isEmpty then .error .emptyHost
  else
    match Host.parse (isSpecialScheme scheme) hostText with
    | .error e => .error e
    | .ok host =>
      if hostText.isEmpty && (!portText.isEmpty || !(username.isEmpty && password.isEmpty)) then .error .emptyHost
      else (parsePort scheme portText).map fun port => ⟨username, password, host, port⟩

/-- The text without a slash at its start. -/
def dropSlash (scheme : Text) (s : Text) : Text := if s.head?.any (Segments.isSlash scheme) then s.drop 1 else s

/-- Reads a URL from after the two slashes before its authority. In the web's own schemes a path is never empty. -/
def parseFromAuthority (scheme : Text) (s : Text) : Except UrlError Url :=
  let (text, rest) := cutAuthority scheme s
  match parseAuthority scheme text rest.isEmpty with
  | .error e => .error e
  | .ok authority =>
    let u : Url := ⟨scheme, some authority, .rooted (if isSpecialScheme scheme then [[]] else []), none, none⟩
    .ok (if rest.head?.all endsPath then u.withTail rest else u.withPath [] (dropSlash scheme rest))

/-! ## File URLs -/

/-- A file URL with only a host; this machine is the empty host. -/
def ofFileHost (host : Host) : Url := ⟨"file".toList, some ⟨[], [], host, none⟩, .rooted [[]], none, none⟩

/-- The host of a URL; it is empty where there is no authority. -/
def host (u : Url) : Host := (u.authority.map Authority.host).getD (.named [])

/-- The segments of a path that has some. -/
def segments (u : Url) : List Text :=
  match u.path with
  | .rooted segments => segments
  | .rootless _ => []

/-- The drive letter that the path of a file URL begins with. -/
def drive (u : Url) : List Text := (u.segments.take 1).filter Segments.isNormalDrive

/-- Whether the path at the start of a text has a drive letter for its first segment. -/
def hasDrive (s : Text) : Bool :=
  (Segments.read "file".toList [] (s.takeWhile (!endsPath ·))).head?.any Segments.isDriveLetter

/-- Reads a file URL from after its two slashes. This machine is the empty host, as it is beside a drive letter. Only after
the name of a host does the path begin behind its slash, so that a drive letter can be its first segment. -/
def parseFileFromHost (s : Text) : Except UrlError Url :=
  let ends := endsAuthority "file".toList
  let hostText := s.takeWhile (!ends ·)
  let rest := s.dropWhile (!ends ·)
  let here := ofFileHost (.named [])
  if Segments.isDriveLetter hostText then .ok (here.withPath [] s)
  else if hostText = [] then .ok (here.withPath [] rest)
  else
    match Host.parse true hostText with
    | .error e => .error e
    | .ok host =>
      if host = .named "localhost".toList then .ok (here.withPath [] rest)
      else
        let path := dropSlash "file".toList rest
        .ok ((if hasDrive path then here else ofFileHost host).withPath [] path)

/-! ## Relative to a base -/

/-- Reads a path from after its one slash. In file URLs the drive of the base is kept where the path names none. -/
def fromRoot (base : Url) (s : Text) : Url :=
  if isFileScheme base.scheme then
    if Segments.startsWithDrive s then (ofFileHost (.named [])).withPath [] s
    else if base.drive = [] then (ofFileHost base.host).withPath [] s
    else (ofFileHost (.named [])).withPath base.drive s
  else base.withPath [] s

/-- Reads a path onto that of the base, whose last segment it replaces. -/
def fromHere (base : Url) (s : Text) : Url :=
  if isFileScheme base.scheme && Segments.startsWithDrive s then (ofFileHost (.named [])).withPath [] s
  else base.withPathBy (Segments.replace base.scheme base.segments) s

/-- Whether the character is a slash or a backslash. -/
def isEitherSlash (c : Char) : Bool := c == '/' || c == '\\'

/-- Reads a URL that begins with two slashes of any kind, onto the scheme of the base. -/
def fromScheme (base : Url) (s : Text) : Except UrlError Url :=
  if isFileScheme base.scheme then parseFileFromHost (s.drop 2)
  else
    match Text.after? "//".toList s with
    | some rest => parseFromAuthority base.scheme rest
    | none => parseFromAuthority base.scheme (s.dropWhile isEitherSlash)

/-- Reads a text without a scheme against a base that has segments. -/
def relative (base : Url) (s : Text) : Except UrlError Url :=
  match s with
  | [] => .ok { base with fragment := none }
  | '#' :: fragment => .ok (base.withFragment fragment)
  | '?' :: _ => .ok (base.withTail s)
  | c :: rest =>
    if isEitherSlash c then
      if rest.head?.any isEitherSlash then base.fromScheme s else .ok (base.fromRoot rest)
    else .ok (base.fromHere s)

/-! ## Whole URLs -/

/-- Reads a URL from after its scheme. -/
def ofScheme (scheme : Text) (s : Text) : Except UrlError Url :=
  if isFileScheme scheme then relative (ofFileHost (.named [])) s
  else if isSpecialScheme scheme then parseFromAuthority scheme (s.dropWhile isEitherSlash)
  else
    match Text.after? "//".toList s with
    | some rest => parseFromAuthority scheme rest
    | none =>
      let u : Url := ⟨scheme, none, .rooted [], none, none⟩
      match s with
      | '/' :: path => .ok (u.withPath [] path)
      | _ =>
        let u := { u with path := .rootless (percentEncode UrlPart.control (s.takeWhile (!endsPath ·))) }
        .ok (u.withTail (s.dropWhile (!endsPath ·)))

/-- Reads a URL that stands by itself. -/
def parse (s : Text) : Except UrlError Url :=
  match scheme? (clean s) with
  | none => .error .relativeWithoutBase
  | some (scheme, rest) => ofScheme scheme rest

/-- Reads a URL that may be relative to `base`. -/
def join (base : Url) (s : Text) : Except UrlError Url :=
  match scheme? (clean s) with
  | some (scheme, rest) =>
    if scheme = base.scheme ∧ isSpecialScheme scheme ∧ (rest.takeWhile isEitherSlash).length < 2 then
      base.relative rest
    else ofScheme scheme rest
  | none =>
    match clean s, base.path with
    | '#' :: fragment, _ => .ok (base.withFragment fragment)
    | _, .rootless _ => .error .relativeToRootless
    | s, .rooted _ => base.relative s

end Url

end MailTemplate
