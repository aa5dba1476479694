import MailTemplate.Text.Basic

/-!
# URLs

A URL in parts, and as it is written. Parts are kept as they are written: escaped, and the scheme and the names of hosts
in lower case.
-/
namespace MailTemplate

/-- The host of a URL. -/
inductive Host where
  /-- A name; empty in file URLs, which name no host. -/
  | named (name : Text)
  | ipv4 (address : Nat)
  /-- Eight pieces of sixteen bits. -/
  | ipv6 (pieces : List Nat)
  deriving Repr, DecidableEq

/-- What stands between `//` and the path. -/
structure Authority where
  username : Text
  password : Text
  host : Host
  port : Option Nat
  deriving Repr, DecidableEq

/-- The path of a URL. -/
inductive UrlPath where
  /-- A path that does not begin with a slash, as in `mailto:a@b`; nothing can be joined onto it. -/
  | rootless (text : Text)
  /-- Segments, each with a slash before it. -/
  | rooted (segments : List Text)
  deriving Repr, DecidableEq

structure Url where
  scheme : Text
  authority : Option Authority
  path : UrlPath
  query : Option Text
  fragment : Option Text
  deriving Repr, DecidableEq

/-- Why a text is no URL. -/
inductive UrlError where
  | emptyHost
  | internationalName
  | invalidPort
  | invalidIpv4
  | invalidIpv6
  | invalidHostCharacter
  | relativeWithoutBase
  | relativeToRootless
  deriving Repr, DecidableEq

def UrlError.describe : UrlError → String
  | emptyHost => "empty host"
  | internationalName => "invalid international domain name"
  | invalidPort => "invalid port number"
  | invalidIpv4 => "invalid IPv4 address"
  | invalidIpv6 => "invalid IPv6 address"
  | invalidHostCharacter => "invalid domain character"
  | relativeWithoutBase => "relative URL without a base"
  | relativeToRootless => "relative URL with a cannot-be-a-base base"

/-! ## Writing -/

/-- A number in decimal. -/
def decimal (n : Nat) : Text := Nat.toDigits 10 n

/-- Where the longest run of at least two zeros starts and how long it is; the first of several longest ones. -/
def longestZeroRun (pieces : List Nat) : Option (Nat × Nat) :=
  let runs := (List.range pieces.length).map fun i => (i, ((pieces.drop i).takeWhile (· == 0)).length)
  runs.foldl (fun best run =>
    if run.2 < 2 then best
    else match best with
      | none => some run
      | some b => if b.2 < run.2 then some run else best) none

namespace Host

/-- The four bytes of an address, between dots. -/
def printIpv4 (address : Nat) : Text :=
  Text.join ['.'] ([0x1000000, 0x10000, 0x100, 1].map fun unit => decimal (address / unit % 256))

/-- The pieces in hexadecimal between colons, with a double colon for the longest run of zeros. -/
def printIpv6 (pieces : List Nat) : Text :=
  let hex (ps : List Nat) : Text := Text.join [':'] (ps.map (Nat.toDigits 16 ·))
  match longestZeroRun pieces with
  | none => hex pieces
  | some (start, length) => hex (pieces.take start) ++ "::".toList ++ hex (pieces.drop (start + length))

def print : Host → Text
  | named name => name
  | ipv4 address => printIpv4 address
  | ipv6 pieces => ['['] ++ printIpv6 pieces ++ [']']

end Host

/-- The user name and password with the `@` after them; nothing where both are empty. -/
def Authority.printCredentials (a : Authority) : Text :=
  if a.username = [] ∧ a.password = [] then []
  else a.username ++ (if a.password = [] then [] else ':' :: a.password) ++ ['@']

def Authority.print (a : Authority) : Text :=
  a.printCredentials ++ a.host.print ++ match a.port with
    | none => []
    | some port => ':' :: decimal port

namespace UrlPath

def print : UrlPath → Text
  | rootless text => text
  | rooted segments => segments.flatMap ('/' :: ·)

/-- Whether the path, written just after the scheme, would read as an authority. -/
def looksLikeAuthority : UrlPath → Bool
  | rooted ([] :: _ :: _) => true
  | _ => false

end UrlPath

namespace Url

/-- Without an authority, a path that begins with two slashes is kept from looking like one by `/.`. -/
def printAuthority (u : Url) : Text :=
  match u.authority with
  | some a => "//".toList ++ a.print
  | none => if u.path.looksLikeAuthority then "/.".toList else []

/-- The URL without its fragment. -/
def printBeforeFragment (u : Url) : Text :=
  u.scheme ++ [':'] ++ u.printAuthority ++ u.path.print ++ match u.query with
    | none => []
    | some q => '?' :: q

/-- The URL as it is written. -/
def print (u : Url) : Text :=
  u.printBeforeFragment ++ match u.fragment with
    | none => []
    | some f => '#' :: f

end Url

end MailTemplate
