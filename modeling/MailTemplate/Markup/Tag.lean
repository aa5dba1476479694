import MailTemplate.Markup.Element

/-!
# Tags

Where a tag ends, what its name is, whether it closes itself, and its attributes. Each is read from the text between
`<` and the end mark. Main statement: the end of a tag cuts the text without loss (`eq_append_of_end?`).
-/
namespace MailTemplate.Tag

/-- Characters of element names. -/
def isNameChar (c : Char) : Bool := c.isAlphanum || c == '-' || c == '_' || c == ':' || c == '.'

/-- Characters of attribute names. -/
def isAttributeNameChar (c : Char) : Bool :=
  !(Text.isBlank c || c == '=' || c == '>' || c == '/' || c == '"' || c == '\'' || c == '<')

/-! ## The end of a tag -/

/-- The quote that is open after `c`, given the one open before it. -/
def quoteAfter (quote : Option Char) (c : Char) : Option Char :=
  match quote with
  | some q => if c = q then none else some q
  | none => if Text.isQuote c then some c else none

/-- The text up to the first `>` outside quotes, and the text after that mark; `quote` is the quote open at the start. -/
def endFrom? (quote : Option Char) : Text → Option (Text × Text)
  | [] => none
  | c :: s =>
    if c = '>' ∧ quote = none then some ([], s)
    else (endFrom? (quoteAfter quote c) s).map fun (inside, rest) => (c :: inside, rest)

/-- The text up to the end mark of a tag, and the text after that mark. -/
def end? (s : Text) : Option (Text × Text) := endFrom? none s

theorem eq_append_of_endFrom? {quote : Option Char} {s inside rest : Text}
    (h : endFrom? quote s = some (inside, rest)) : s = inside ++ '>' :: rest := by
  induction s generalizing quote inside with
  | nil => simp [endFrom?] at h
  | cons c s ih =>
    simp only [endFrom?] at h
    split at h
    · next hc =>
      obtain ⟨rfl, rfl⟩ := by simpa using h
      simp [hc.1]
    · obtain ⟨⟨i, r⟩, hi, he⟩ := Option.map_eq_some_iff.1 h
      obtain ⟨rfl, rfl⟩ := by simpa using he
      simpa using ih hi

theorem eq_append_of_end? {s inside rest : Text} (h : end? s = some (inside, rest)) : s = inside ++ '>' :: rest :=
  eq_append_of_endFrom? h

/-! ## Name and closing mark -/

/-- Whether what follows a `<` opens a start or end tag; otherwise that `<` is character data. -/
def opens : Text → Bool
  | '/' :: c :: _ => c.isAlpha
  | c :: _ => c.isAlpha
  | [] => false

/-- The name at the start of a tag. -/
def name (inside : Text) : Text := inside.takeWhile isNameChar

/-- Whether the last thing in a start tag, blanks aside, is a slash. -/
def closesItself (inside : Text) : Bool := (Text.dropEnd Text.isBlank inside).getLast? == some '/'

/-! ## Attributes -/

/-- Reads a value after its `=`: between two quotes of one kind, else up to a blank or the end mark. -/
def readValue (s : Text) : Text × Text :=
  match s.dropWhile Text.isBlank with
  | [] => ([], [])
  | c :: s =>
    if c = '>' then ([], c :: s)
    else if Text.isQuote c then (s.takeWhile (· != c), (s.dropWhile (· != c)).drop 1)
    else ((c :: s).takeWhile fun c => !Text.isBlank c && c != '>', (c :: s).dropWhile fun c => !Text.isBlank c && c != '>')

theorem length_readValue_le (s : Text) : (readValue s).2.length ≤ s.length := by
  have hb := (List.dropWhile_suffix Text.isBlank (l := s)).length_le
  unfold readValue
  split
  · simp
  · next c s' hs =>
    rw [hs] at hb
    split
    · simpa using hb
    · split
      · have := (List.dropWhile_suffix (· != c) (l := s')).length_le
        simp only [List.length_drop]
        simp at hb
        omega
      · exact Nat.le_trans (List.dropWhile_suffix _).length_le hb

/-- Reads the attributes of a start tag, from after its name to its end mark. Blanks, slashes and characters that no
name begins with are passed over. -/
def readAttributes (s : Text) : List Attribute :=
  match s with
  | [] => []
  | c :: s =>
    if c = '>' then []
    else if isAttributeNameChar c then
      let name := c :: s.takeWhile isAttributeNameChar
      let rest := (s.dropWhile isAttributeNameChar).dropWhile Text.isBlank
      if rest.head? = some '=' then
        let value := readValue (rest.drop 1)
        ⟨name, some value.1⟩ :: readAttributes value.2
      else ⟨name, none⟩ :: readAttributes rest
    else readAttributes s
termination_by s.length
decreasing_by
  all_goals
    have h₁ := (List.dropWhile_suffix isAttributeNameChar (l := s)).length_le
    have h₂ := (List.dropWhile_suffix Text.isBlank (l := s.dropWhile isAttributeNameChar)).length_le
    simp only [List.length_cons]
    try have h₃ := length_readValue_le (((s.dropWhile isAttributeNameChar).dropWhile Text.isBlank).drop 1)
    try simp only [List.length_drop] at h₃
    omega

/-- The attributes of a start tag. A quoted value whose second quote is missing runs on over the end mark. -/
def attributes (inside : Text) : List Attribute := readAttributes ((inside ++ ['>']).dropWhile isNameChar)

end MailTemplate.Tag
