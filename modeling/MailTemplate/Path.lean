import MailTemplate.Text.Utf8

/-!
# Paths

Paths are bytes, which need not be those of a text. They are kept as they were written, so that they are shown as they
were given. Names stand between slashes; an empty name and a dot mean nothing.
-/
namespace MailTemplate

/-- The name of a file or directory, from the root or from the working directory. -/
abbrev Path := List UInt8

namespace Path

/-- The byte between two names. -/
def slash : UInt8 := '/'.toUInt8

/-- The name of the directory that a name is in. -/
def here : Path := Text.bytes ['.']

/-- The name of the directory above. -/
def up : Path := Text.bytes "..".toList

/-- The path in a message. -/
def shown (p : Path) : Text := Text.ofBytes p

/-- The parts between the slashes. -/
def parts (p : Path) : List Path := p.splitOn slash

def isAbsolute (p : Path) : Bool := p.head? == some slash

/-- A path that is meant from `dir`; an absolute one is not. -/
def join (dir p : Path) : Path :=
  if isAbsolute p || dir.isEmpty then p
  else if dir.getLast? = some slash then dir ++ p
  else dir ++ [slash] ++ p

/-- Whether a part names nothing of its own. -/
def isIdle (part : Path) : Bool := part.isEmpty || part == here

/-- The parts without those at the end that name nothing. -/
def dropIdle (parts : List Path) : List Path := (parts.reverse.dropWhile isIdle).reverse

/-- The directory that a path is in, if the path names one: what comes before its last part. A slash or a dot that begins
the path belongs to the directory. -/
def directory? (p : Path) : Option Path :=
  let keepsFirst := match parts p with
    | first :: _ :: _ => isIdle first
    | _ => false
  let (first, rest) := if keepsFirst then ((parts p).take 1, (parts p).drop 1) else ([], parts p)
  match dropIdle ((dropIdle rest).dropLast) with
  | [] => match first with
    | [] :: _ => some [slash]
    | dot :: _ => some dot
    | [] => none
  | middle => some ([slash].intercalate (first ++ middle))

end Path

end MailTemplate
