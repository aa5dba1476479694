import MailTemplate.Text.Basic

/-!
# Scanning style sheet text

Style sheets are cut at marks that stand outside strings, and declaration blocks and selector lists at marks that stand
outside brackets as well. A string runs from a quote to the next quote of its kind; a backslash in it takes the next
character along, and one that is not closed runs to the end.
-/
namespace MailTemplate.Css

/-- Where a reader stands: outside strings, in a string that `quote` closes, or behind a backslash in one. -/
inductive StringState where
  | outside
  | inside (quote : Char)
  | escaping (quote : Char)
  deriving Repr, DecidableEq

/-- Where the reader stands after one more character. -/
def StringState.step : StringState → Char → StringState
  | outside, c => if Text.isQuote c then inside c else outside
  | inside q, c => if c = '\\' then escaping q else if c = q then outside else inside q
  | escaping q, _ => inside q

/-! ## Cutting outside strings -/

/-- The text up to the first `mark` outside strings, and the text after it. -/
def cutOutside? (mark : Char) (st : StringState) : Text → Option (Text × Text)
  | [] => none
  | c :: s =>
    if c = mark ∧ st = .outside then some ([], s)
    else (cutOutside? mark (st.step c) s).map fun (before, rest) => (c :: before, rest)

/-- How deep in braces a reader at depth `depth` is after `c`. -/
def braceDepth (depth : Nat) (st : StringState) (c : Char) : Nat :=
  if st = .outside then
    if c = '\x7b' then depth + 1 else if c = '\x7d' then depth - 1 else depth
  else depth

/-- Reads a block from after its opening brace, with `depth` blocks open inside it: its text, and what follows its
closing brace, if that is there. -/
def cutBlock (depth : Nat) (st : StringState) : Text → Text × Option Text
  | [] => ([], none)
  | c :: s =>
    if c = '\x7d' ∧ st = .outside ∧ depth = 0 then ([], some s)
    else
      let (body, rest) := cutBlock (braceDepth depth st c) (st.step c) s
      (c :: body, rest)

/-- Reads an at-rule: up to and with the first `;` outside strings, or the block that comes before that; and what
follows it. -/
def cutAtRule (st : StringState) : Text → Text × Text
  | [] => ([], [])
  | c :: s =>
    if c = ';' ∧ st = .outside then ([c], s)
    else if c = '\x7b' ∧ st = .outside then
      match cutBlock 0 .outside s with
      | (body, some rest) => (c :: body ++ ['\x7d'], rest)
      | (body, none) => (c :: body, [])
    else
      let (rule, rest) := cutAtRule (st.step c) s
      (c :: rule, rest)

/-! ## Splitting outside strings and brackets -/

/-- Where a reader stands with regard to strings, and in how many open brackets. -/
structure Nest where
  string : StringState
  depth : Nat
  deriving Repr, DecidableEq

namespace Nest

/-- Outside strings and brackets. -/
def top : Nest := ⟨.outside, 0⟩

/-- Where the reader stands after one more character. Round and square brackets count alike, and one that closes nothing
is passed over. -/
def step (n : Nest) (c : Char) : Nest where
  string := n.string.step c
  depth :=
    if n.string = .outside then
      if c = '(' ∨ c = '[' then n.depth + 1 else if c = ')' ∨ c = ']' then n.depth - 1 else n.depth
    else n.depth

end Nest

/-- The pieces between the `sep` outside strings and brackets, of a text that starts at `n`. -/
def splitFrom (sep : Char) (n : Nest) : Text → List Text
  | [] => [[]]
  | c :: s =>
    if c = sep ∧ n = .top then [] :: splitFrom sep .top s
    else match splitFrom sep (n.step c) s with
      | [] => [[c]]
      | piece :: more => (c :: piece) :: more

/-- The pieces between the `sep` outside strings and brackets. -/
def split (sep : Char) (s : Text) : List Text := splitFrom sep .top s

/-! ## Comments -/

/-- The text without its comments. A comment is not closed by anything but its end mark, so that one without it goes to
the end of the text. -/
def stripComments (s : Text) : Text :=
  match _h : Text.cut? "/*".toList s with
  | none => s
  | some (before, rest) =>
    before ++ match _h' : Text.cut? "*/".toList rest with
      | none => []
      | some (_, rest) => stripComments rest
termination_by s.length
decreasing_by
  have h₁ := Text.length_lt_of_cut? (by decide) (show Text.cut? "/*".toList s = some _ by assumption)
  have h₂ := Text.length_lt_of_cut? (by decide) (show Text.cut? "*/".toList _ = some _ by assumption)
  omega

end MailTemplate.Css
