import MailTemplate.Markup.Entity
import MailTemplate.Markup.Fault
import MailTemplate.Markup.Tag
import MailTemplate.Markup.Tree

/-!
# Tokens

A template is first read as a row of tokens: leaves, start tags, elements with raw text, and end tags. What stands open
around a token has no influence on how it is read. Main statement: each token takes something off the text
(`length_le_of_read`).
-/
namespace MailTemplate

/-- One piece of a template, read without regard to the elements around it. -/
inductive Token where
  | leaf (l : Leaf)
  | startTag (e : Element)
  /-- An element that holds raw text, with its content and its end tag. -/
  | rawElement (e : Element) (content : Text)
  | endTag (name : Text)
  deriving Repr, DecidableEq

/-- A fault, and the rest of the text from where it is reported. -/
structure FaultAt where
  fault : Fault
  rest : Text
  deriving Repr, DecidableEq

namespace Token

/-- What the next token is going to be, with the text after the characters that tell. -/
inductive Opening where
  | comment (rest : Text)
  | cdata (rest : Text)
  | declaration (rest : Text)
  | instruction (rest : Text)
  | tag (rest : Text)
  | characters

/-- What begins at `c`, which `s` follows. -/
def opening (c : Char) (s : Text) : Opening :=
  if c = '<' then
    match Text.after? "!--".toList s with
    | some rest => .comment rest
    | none =>
    match Text.after? "![CDATA[".toList s with
    | some rest => .cdata rest
    | none =>
    match Text.after? "!".toList s with
    | some rest => .declaration rest
    | none =>
    match Text.after? "?".toList s with
    | some rest => .instruction rest
    | none => if Tag.opens s then .tag s else .characters
  else .characters

/-! ## Raw text -/

/-- Whether the text begins with an end tag for `name`, the case of ASCII letters aside. -/
def atEndTag (name s : Text) : Bool :=
  match Text.after? "</".toList s with
  | none => false
  | some rest =>
    Text.sameLetters (rest.take name.length) name &&
      match rest.drop name.length with
      | [] => false
      | c :: _ => !Tag.isNameChar c

/-- The raw text up to the end tag for `name`, and the text after that tag. -/
def rawText? (name : Text) : Text → Option (Text × Text)
  | [] => none
  | c :: s =>
    if atEndTag name (c :: s) then (Text.cut? ['>'] (s.drop (name.length + 1))).map fun (_, rest) => ([], rest)
    else (rawText? name s).map fun (content, rest) => (c :: content, rest)

/-! ## One token -/

/-- The element that a start tag opens. -/
def elementOf (d : Dialect) (inside : Text) : Element where
  name := d.keep (Tag.name inside)
  attributes := (Tag.attributes inside).map fun a => { a with name := d.keep a.name }
  isVoid := Tag.closesItself inside || d.isVoid (d.keep (Tag.name inside))

/-- Reads a start or end tag, and the content of an element that holds raw text; `s` follows the `<`. -/
def readTag (d : Dialect) (s : Text) : Except FaultAt (Token × Text) :=
  match Tag.end? s with
  | none => .error ⟨.unterminated .tag, '<' :: s⟩
  | some (inside, rest) =>
    if inside.head? = some '/' then .ok (.endTag (d.keep (Tag.name (inside.drop 1))), rest)
    else
      let e := elementOf d inside
      if holdsRawText (Tag.name inside) && !e.isVoid then
        match rawText? (Tag.name inside) rest with
        | none => .error ⟨.unclosed (Tag.name inside), rest⟩
        | some (content, rest) => .ok (.rawElement e content, rest)
      else .ok (.startTag e, rest)

/-- The leaf that `leaf` makes of what `cut` finds; without it `c` is left open at `s`. -/
def readLeaf (leaf : Text → Leaf) (c : Construct) (s : Text) (cut : Option (Text × Text)) :
    Except FaultAt (Token × Text) :=
  match cut with
  | none => .error ⟨.unterminated c, s⟩
  | some (t, rest) => .ok (.leaf (leaf t), rest)

/-- Reads the token that begins at `c`, which `s` follows. -/
def read (d : Dialect) (c : Char) (s : Text) : Except FaultAt (Token × Text) :=
  match opening c s with
  | .comment rest => readLeaf .comment .comment (c :: s) (Text.cut? "-->".toList rest)
  | .cdata rest => readLeaf .cdata .cdata (c :: s) (Text.cut? "]]>".toList rest)
  | .declaration rest => readLeaf .declaration .declaration (c :: s) (Tag.end? rest)
  | .instruction rest => readLeaf .instruction .instruction (c :: s) (Text.cut? "?>".toList rest)
  | .tag rest => readTag d rest
  | .characters =>
    if c = '<' then .ok (.leaf (.text [c]), s)
    else .ok (.leaf (.text (Entity.decode (c :: s.takeWhile (· != '<')))), s.dropWhile (· != '<'))

/-! ## All tokens -/

theorem length_le_of_opening {c : Char} {s rest : Text} :
    opening c s = .comment rest ∨ opening c s = .cdata rest ∨ opening c s = .declaration rest ∨
      opening c s = .instruction rest ∨ opening c s = .tag rest → rest.length ≤ s.length := by
  unfold opening
  intro h
  split at h
  · split at h
    · next hr => have := Text.after?_eq_some_iff.1 hr; grind
    · split at h
      · next hr => have := Text.after?_eq_some_iff.1 hr; grind
      · split at h
        · next hr => have := Text.after?_eq_some_iff.1 hr; grind
        · split at h
          · next hr => have := Text.after?_eq_some_iff.1 hr; grind
          · split at h <;> grind
  · grind

theorem length_le_of_rawText? {name s content rest : Text} (h : rawText? name s = some (content, rest)) :
    rest.length ≤ s.length := by
  induction s generalizing content with
  | nil => simp [rawText?] at h
  | cons c s ih =>
    simp only [rawText?] at h
    split at h
    · obtain ⟨⟨b, r⟩, hc, he⟩ := Option.map_eq_some_iff.1 h
      obtain ⟨-, rfl⟩ := by simpa using he
      have := Text.length_lt_of_cut? (by simp) hc
      simp only [List.length_drop, List.length_cons] at this ⊢
      omega
    · obtain ⟨⟨b, r⟩, hc, he⟩ := Option.map_eq_some_iff.1 h
      obtain ⟨-, rfl⟩ := by simpa using he
      have := ih hc
      simp only [List.length_cons]
      omega

theorem length_le_of_readTag {d : Dialect} {s rest : Text} {t : Token} (h : readTag d s = .ok (t, rest)) :
    rest.length ≤ s.length := by
  unfold readTag at h
  split at h
  · simp at h
  · next inside r hr =>
    have hs := congrArg List.length (Tag.eq_append_of_end? hr)
    simp only [List.length_append, List.length_cons] at hs
    split at h
    · grind
    · dsimp only at h
      split at h
      · split at h
        · simp at h
        · next hw => have := length_le_of_rawText? hw; grind
      · grind

theorem eq_some_of_readLeaf {leaf : Text → Leaf} {c : Construct} {s rest : Text} {t : Token}
    {cut : Option (Text × Text)} (h : readLeaf leaf c s cut = .ok (t, rest)) :
    ∃ content, cut = some (content, rest) ∧ t = .leaf (leaf content) := by
  unfold readLeaf at h
  split at h
  · simp at h
  · next content r => exact ⟨content, by simp_all⟩

theorem length_le_of_read {d : Dialect} {c : Char} {s rest : Text} {t : Token} (h : read d c s = .ok (t, rest)) :
    rest.length ≤ s.length := by
  have ho := @length_le_of_opening c s
  unfold read at h
  split at h
  · obtain ⟨_, hc, _⟩ := eq_some_of_readLeaf h
    have := Text.length_lt_of_cut? (by decide) hc
    grind
  · obtain ⟨_, hc, _⟩ := eq_some_of_readLeaf h
    have := Text.length_lt_of_cut? (by decide) hc
    grind
  · obtain ⟨_, hc, _⟩ := eq_some_of_readLeaf h
    have := congrArg List.length (Tag.eq_append_of_end? hc)
    grind
  · obtain ⟨_, hc, _⟩ := eq_some_of_readLeaf h
    have := Text.length_lt_of_cut? (by decide) hc
    grind
  · have := length_le_of_readTag h
    grind
  · have := (List.dropWhile_suffix (· != '<') (l := s)).length_le
    grind

/-- The tokens of a text, up to the first fault if it has one. -/
structure Row where
  tokens : List Token
  fault? : Option FaultAt

/-- Reads all tokens of a text. -/
def readAll (d : Dialect) (s : Text) : Row :=
  match s with
  | [] => ⟨[], none⟩
  | c :: s =>
    match _h : read d c s with
    | .error f => ⟨[], some f⟩
    | .ok (t, rest) =>
      let row := readAll d rest
      ⟨t :: row.tokens, row.fault?⟩
termination_by s.length
decreasing_by
  have := length_le_of_read (by assumption)
  simp only [List.length_cons]
  omega

end Token

end MailTemplate
