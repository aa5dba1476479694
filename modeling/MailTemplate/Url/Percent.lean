import MailTemplate.Text.Basic

/-!
# Percent escapes

The parts of a URL are written in ASCII: a byte that may not stand in a part as it is, is written as `%` and two
hexadecimal digits. Each part has its own set of characters that are escaped; non-ASCII characters are escaped in all.
-/
namespace MailTemplate

/-- A byte as a percent escape, in capitals. -/
def percentByte (b : UInt8) : Text :=
  let digit (n : Nat) : Char := (Nat.digitChar n).toUpper
  ['%', digit (b.toNat / 16), digit (b.toNat % 16)]

/-- The text with non-ASCII characters, and those that `escaped` accepts, percent-escaped byte by byte. -/
def percentEncode (escaped : Char → Bool) (t : Text) : Text :=
  t.flatMap fun c => if 0x80 ≤ c.toNat || escaped c then (String.utf8EncodeChar c).flatMap percentByte else [c]

/-- The value of a hexadecimal digit. -/
def hexValue? (c : Char) : Option Nat :=
  if c.isDigit then some (c.toNat - '0'.toNat)
  else if 'a' ≤ c ∧ c ≤ 'f' then some (c.toNat - 'a'.toNat + 10)
  else if 'A' ≤ c ∧ c ≤ 'F' then some (c.toNat - 'A'.toNat + 10)
  else none

/-- The bytes of a text with its percent escapes undone; a `%` that no two digits follow stands for itself. -/
def percentDecode : Text → List UInt8
  | [] => []
  | '%' :: a :: b :: s =>
    match hexValue? a, hexValue? b with
    | some x, some y => UInt8.ofNat (16 * x + y) :: percentDecode s
    | _, _ => String.utf8EncodeChar '%' ++ percentDecode (a :: b :: s)
  | c :: s => String.utf8EncodeChar c ++ percentDecode s

/-! ## What is escaped where -/

namespace UrlPart

def control (c : Char) : Bool := c.toNat < 0x20 || c.toNat == 0x7F

def fragment (c : Char) : Bool := control c || [' ', '"', '<', '>', '\x60'].contains c

def query (c : Char) : Bool := control c || [' ', '"', '#', '<', '>'].contains c

/-- The query of a URL whose scheme is one of the web's own. -/
def specialQuery (c : Char) : Bool := query c || c == '\''

def path (c : Char) : Bool := fragment c || ['#', '?', '\x7b', '\x7d'].contains c

def credentials (c : Char) : Bool := path c || ['/', ':', ';', '=', '@', '[', '\\', ']', '^', '|'].contains c

end UrlPart

end MailTemplate
