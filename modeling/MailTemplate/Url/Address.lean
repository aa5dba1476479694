import MailTemplate.Url.Percent

/-!
# Addresses

Hosts that are written as numbers: one to four numbers between dots, each decimal, octal after `0` or hexadecimal after
`0x`, and the last one filling all bytes that are left; or up to eight hexadecimal pieces between colons, where a double
colon stands for zeros and four decimal numbers may stand for the last two pieces.
-/
namespace MailTemplate.Address

/-! ## Numbers between dots -/

/-- The number that `digits` spell in a base; `none` if one of them is no digit of the base. -/
def numeral? (base : Nat) (digits : Text) : Option Nat :=
  digits.foldl (fun acc c =>
    match acc, hexValue? c with
    | some n, some v => if v < base then some (n * base + v) else none
    | _, _ => none) (some 0)

/-- A part of an address as a number, which `0x` makes hexadecimal and a leading zero octal; these marks alone are zero. -/
def part? (s : Text) : Option Nat :=
  match s with
  | [] => none
  | '0' :: 'x' :: digits | '0' :: 'X' :: digits => numeral? 16 digits
  | '0' :: d :: digits => numeral? 8 (d :: digits)
  | digits => numeral? 10 digits

/-- The parts between dots; a dot at the end does not count. -/
def dottedParts (s : Text) : List Text :=
  let parts := Text.fields (· == '.') s
  if parts.getLast? = some [] then parts.dropLast else parts

/-- Whether a host can only be an address: its last part is a number, or has nothing but digits. -/
def endsInNumber (s : Text) : Bool :=
  match (dottedParts s).getLast? with
  | none => false
  | some last => (!last.isEmpty && last.all Char.isDigit) || (part? last).isSome

/-- The address that parts make: every part but the last is a byte, and the last fills what is left of four bytes. -/
def ofParts? (parts : List Nat) : Option Nat :=
  match parts.getLast? with
  | none => none
  | some last =>
    let bytes := parts.dropLast
    if 3 < bytes.length ∨ bytes.any (255 < ·) ∨ Nat.pow 256 (4 - bytes.length) ≤ last then none
    else some ((bytes ++ List.replicate (4 - bytes.length) 0).foldl (fun n b => n * 256 + b) 0 + last)

/-- Reads an address of numbers between dots. -/
def ipv4? (s : Text) : Option Nat := ((dottedParts s).mapM part?).bind ofParts?

/-! ## Pieces between colons -/

/-- A piece: one to four hexadecimal digits. -/
def piece? (s : Text) : Option Nat := if s = [] ∨ 4 < s.length then none else numeral? 16 s

/-- A byte in decimal, without leading zeros. -/
def byte? (s : Text) : Option Nat :=
  if s = [] ∨ (s.head? = some '0' ∧ 1 < s.length) then none
  else (numeral? 10 s).filter (· ≤ 255)

/-- Four bytes between dots, as two pieces. -/
def trailingBytes? (s : Text) : Option (List Nat) :=
  match (Text.fields (· == '.') s).mapM byte? with
  | some [a, b, c, d] => some [a * 256 + b, c * 256 + d]
  | _ => none

/-- The pieces of a text between colons; bytes may stand in the last place where `bytesLast` is set. Empty text has no
pieces. -/
def pieces? (bytesLast : Bool) (s : Text) : Option (List Nat) :=
  if s = [] then some []
  else
    let parts := Text.fields (· == ':') s
    let last := parts.getLast?.getD []
    if bytesLast && last.contains '.' then do
      let front ← parts.dropLast.mapM piece?
      let bytes ← trailingBytes? last
      return front ++ bytes
    else parts.mapM piece?

/-- Reads an address of pieces between colons. -/
def ipv6? (s : Text) : Option (List Nat) :=
  match Text.cut? "::".toList s with
  | none => (pieces? true s).filter (·.length == 8)
  | some (before, after) => do
    let front ← pieces? false before
    let back ← pieces? true after
    if 7 < front.length + back.length then none
    else some (front ++ List.replicate (8 - (front.length + back.length)) 0 ++ back)

end MailTemplate.Address
