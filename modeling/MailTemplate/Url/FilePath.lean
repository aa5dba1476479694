import MailTemplate.Path
import MailTemplate.Url.Parser

/-!
# Paths of file URLs

A URL without a host names a file of this machine by its segments, unescaped. The bytes that are escaped there need not be
those of a text.
-/
namespace MailTemplate.Url

/-- A path that ends in a drive letter names the root of the drive. -/
def closeDrive (p : Path) : Path :=
  let last := (p.drop (p.length - 2)).map fun b => Char.ofNat b.toNat
  if 2 < p.length ∧ Segments.isDriveLetter last then p ++ [Path.slash] else p

/-- The path that a URL names on this machine. -/
def filePath? (u : Url) : Option Path :=
  match u.path with
  | .rootless _ => none
  | .rooted segments =>
    if u.host = .named [] then some (closeDrive (segments.flatMap fun s => percentDecode ('/' :: s)))
    else none

end MailTemplate.Url
