import MailTemplate.Domain.Label
import MailTemplate.Url.Address
import MailTemplate.Url.Basic

/-!
# Reading hosts

In a URL of one of the web's own schemes the host is a name that can be looked up, or an address; in any other URL it is
a name that nothing is known about.
-/
namespace MailTemplate

/-- Characters that no host may have, looked up or not. -/
def isForbiddenInHost (c : Char) : Bool :=
  ['\x00', '\t', '\n', '\r', ' ', '#', '/', ':', '<', '>', '?', '@', '[', '\\', ']', '^', '|'].contains c

/-- Characters that no name to be looked up may have. -/
def isForbiddenInDomain (c : Char) : Bool := isForbiddenInHost c || UrlPart.control c || c == '%'

namespace Host

/-- An address between square brackets, read from after the opening one. -/
def parseBracketed (s : Text) : Except UrlError Host :=
  if s.getLast? = some ']' then
    match Address.ipv6? s.dropLast with
    | none => .error .invalidIpv6
    | some pieces => .ok (.ipv6 pieces)
  else .error .invalidIpv6

/-- Reads a host that can be looked up. -/
def parseDomain (s : Text) : Except UrlError Host :=
  match String.fromUTF8? ⟨(percentDecode s).toArray⟩ with
  | none => .error .internationalName
  | some name =>
    match Domain.toAscii? isForbiddenInDomain name.toList with
    | none => .error .internationalName
    | some [] => .error .emptyHost
    | some domain =>
      if Address.endsInNumber domain then
        match Address.ipv4? domain with
        | none => .error .invalidIpv4
        | some address => .ok (.ipv4 address)
      else .ok (.named domain)

/-- Reads a host that nothing is known about. -/
def parseUnknown (s : Text) : Except UrlError Host :=
  if s.any isForbiddenInHost then .error .invalidHostCharacter
  else .ok (.named (percentEncode UrlPart.control s))

/-- Reads the host of a URL. -/
def parse (special : Bool) (s : Text) : Except UrlError Host :=
  match s with
  | '[' :: s => parseBracketed s
  | _ => if special then parseDomain s else parseUnknown s

end Host

end MailTemplate
