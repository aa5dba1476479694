import MailTemplate.Domain.Direction
import MailTemplate.Domain.Joining
import MailTemplate.Domain.Punycode

/-!
# Labels

A domain is a row of labels with dots between them. It is looked up in ASCII: a label with other characters is written in
Punycode, after a mark that says so. A label that comes so written has to be one that would be written so.
-/
namespace MailTemplate.Domain

/-- What a label that is written in Punycode begins with. -/
def punycodeMark : Text := "xn--".toList

def isAscii (t : Text) : Bool := t.all (·.toNat < 0x80)

/-- Whether a label, read back if it was written in Punycode, is one that a domain can have. -/
def isLabel (label : Text) : Bool :=
  label.all isKept && composed label == label && !label.head?.any isMark && !punycodeMark.isPrefixOf label &&
    joinersFit [] label

/-- The label that is meant by one that may be written in Punycode. -/
def readLabel? (s : Text) : Option Text :=
  match Text.after? punycodeMark s with
  | none => if isLabel s then some s else none
  | some written =>
    if isAscii s then
      (Punycode.decode? written).filter fun label => !isAscii label && isLabel label
    else none

/-- The form in which a label is looked up. -/
def writeLabel (label : Text) : Text := if isAscii label then label else punycodeMark ++ Punycode.encode label

/-- The form in which a domain is looked up; `none` if the text cannot be a domain, or has characters that `forbidden`
accepts. -/
def toAscii? (forbidden : Char → Bool) (name : Text) : Option Text := do
  let name ← mapAll? name
  let labels ← (Text.fields (· == '.') (composed name)).mapM readLabel?
  if directionsFit labels then
    let written := Text.join ['.'] (labels.map writeLabel)
    if written.any forbidden then none else some written
  else none

end MailTemplate.Domain
