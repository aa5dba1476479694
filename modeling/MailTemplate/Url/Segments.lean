import MailTemplate.Url.Percent

/-!
# Path segments

A path is read segment by segment: a dot segment adds nothing and a double-dot segment takes the one before it away.
A drive letter is never taken away.
-/
namespace MailTemplate

/-- The schemes of the web and the ports that they use by themselves; `file` has none. -/
def specialSchemes : List (Text × Option Nat) :=
  [("ftp".toList, some 21), ("file".toList, none), ("http".toList, some 80), ("https".toList, some 443),
    ("ws".toList, some 80), ("wss".toList, some 443)]

/-- Whether a scheme is one of the web's own. -/
def isSpecialScheme (scheme : Text) : Bool := specialSchemes.any (·.1 == scheme)

def defaultPort? (scheme : Text) : Option Nat := (specialSchemes.find? (·.1 == scheme)).bind (·.2)

def isFileScheme (scheme : Text) : Bool := scheme == "file".toList

namespace Segments

/-- Marks between segments; a backslash is one in the web's own schemes. -/
def isSlash (scheme : Text) (c : Char) : Bool := c == '/' || (isSpecialScheme scheme && c == '\\')

def isDriveLetter : Text → Bool
  | [a, b] => a.isAlpha && (b == ':' || b == '|')
  | _ => false

/-- A drive letter as a path has it. -/
def normalDrive (s : Text) : Text := s.take 1 ++ [':']

/-- Whether the text is a drive letter as a path has it. -/
def isNormalDrive (s : Text) : Bool := isDriveLetter s && s == normalDrive s

/-- Whether the text begins with a drive letter that stands by itself. -/
def startsWithDrive (s : Text) : Bool :=
  isDriveLetter (s.take 2) && (s.drop 2).head?.all ['/', '\\', '?', '#'].contains

/-- Whether a segment is a dot, escaped or not. -/
def isDot (s : Text) : Bool := [".", "%2e"].any (·.toList == Text.lower s)

/-- Whether a segment is two dots, escaped or not. -/
def isDoubleDot (s : Text) : Bool := ["..", ".%2e", "%2e.", "%2e%2e"].any (·.toList == Text.lower s)

/-- The path without its last segment; a drive letter stays. -/
def shorten (path : List Text) : List Text :=
  if path.getLast?.any startsWithDrive then path else path.dropLast

/-- A segment as the path has it, where `path` comes before it. -/
def spell (scheme : Text) (path : List Text) (s : Text) : Text :=
  if isFileScheme scheme && path.isEmpty && isDriveLetter s then normalDrive s else percentEncode UrlPart.path s

/-- The path after the segments of `more`, the last of which no slash follows. -/
def extend (scheme : Text) (path : List Text) : List Text → List Text
  | [] => path
  | [s] =>
    if isDoubleDot s then shorten path ++ [[]]
    else if isDot s then path ++ [[]]
    else path ++ [spell scheme path s]
  | s :: more =>
    if isDoubleDot s then extend scheme (shorten path) more
    else if isDot s then extend scheme path more
    else extend scheme (path ++ [spell scheme path s]) more

/-- Paths of file URLs do not begin with empty segments. -/
def tidy (scheme : Text) (path : List Text) : List Text :=
  if isFileScheme scheme then
    match path.dropWhile List.isEmpty with
    | [] => [[]]
    | path => path
  else path

/-- The path after the text `s`, whose segments stand between slashes, as it is before `tidy`. -/
def read (scheme : Text) (path : List Text) (s : Text) : List Text :=
  extend scheme path (Text.fields (isSlash scheme) s)

/-- The path after the text `s`, whose segments stand between slashes. -/
def append (scheme : Text) (path : List Text) (s : Text) : List Text := tidy scheme (read scheme path s)

/-- The path after segments of which the first one, unless it is made of dots, goes on where the last segment of `path`
ends. -/
def resume (scheme : Text) (path : List Text) : List Text → List Text
  | [] => path
  | s :: more =>
    if isDoubleDot s then extend scheme path more
    else if isDot s then extend scheme path (if more.isEmpty then [[]] else more)
    else extend scheme (path.dropLast ++ [path.getLast?.getD [] ++ percentEncode UrlPart.path s]) more

/-- The path that the text `s` makes where it takes the place of the last segment of `path`. In file URLs a drive letter
keeps its place; one that is not the whole path is gone on with. -/
def replace (scheme : Text) (path : List Text) (s : Text) : List Text :=
  if isFileScheme scheme && path.getLast?.any isNormalDrive then
    if path.length = 1 then append scheme path s
    else tidy scheme (resume scheme path (Text.fields (isSlash scheme) s))
  else append scheme path.dropLast s

end Segments

end MailTemplate
