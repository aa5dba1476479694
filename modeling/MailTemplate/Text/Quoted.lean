import MailTemplate.Text.Basic
import MailTemplate.Text.Ranges
import MailTemplate.Text.Unprintable

/-!
# Quoted texts

Messages show a text between double quotes, with every character that a reader could not see or tell apart escaped.
-/
namespace MailTemplate.Text

/-- A code point in hexadecimal, as quoted texts spell a character that is not shown as it is. -/
def codePoint (n : Nat) : Text := "\\u\x7b".toList ++ Nat.toDigits 16 n ++ ['\x7d']

/-- A character as it stands in a quoted text. -/
def quotedChar (c : Char) : Text :=
  if c = '\x00' then "\\0".toList
  else if c = '\t' then "\\t".toList
  else if c = '\r' then "\\r".toList
  else if c = '\n' then "\\n".toList
  else if c = '\\' ∨ c = '"' then ['\\', c]
  else if inRanges graphemeExtendRanges c.toNat || inRanges unprintableRanges c.toNat then codePoint c.toNat
  else [c]

/-- The text between double quotes. -/
def quoted (t : Text) : Text := ['"'] ++ t.flatMap quotedChar ++ ['"']

end MailTemplate.Text
