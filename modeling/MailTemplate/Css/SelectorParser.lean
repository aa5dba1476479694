import MailTemplate.Css.Scan
import MailTemplate.Css.Selector
import MailTemplate.Text.WhiteSpace

/-!
# Reading selectors

A selector is read from left to right, compound by compound. Main statements: what is read is taken off the text
(`length_lt_of_readName`, `length_lt_of_readConditions`).
-/
namespace MailTemplate.Css

/-! ## Names -/

/-- Characters that stand in a name without a backslash. -/
def isNameChar (c : Char) : Bool := c.isAlphanum || c == '-' || c == '_' || 0x80 ≤ c.toNat

/-- Reads as much of a name as there is; a backslash makes any character part of it. -/
def spanName : Text → Except Refusal (Text × Text)
  | [] => .ok ([], [])
  | c :: s =>
    if c = '\\' then
      match s with
      | [] => .error .danglingEscape
      | c :: s => (spanName s).map fun (name, rest) => (c :: name, rest)
    else if isNameChar c then (spanName s).map fun (name, rest) => (c :: name, rest)
    else .ok ([], c :: s)

/-- Reads a name, which may not be empty. -/
def readName (s : Text) : Except Refusal (Text × Text) :=
  match spanName s with
  | .error r => .error r
  | .ok (name, rest) => if name = [] then .error (.expectedName s) else .ok (name, rest)

theorem exists_of_map_eq_ok {ε α β : Type} {f : α → β} {x : Except ε α} {b : β} (h : x.map f = .ok b) :
    ∃ a, x = .ok a ∧ f a = b := by
  cases x with
  | error => simp [Except.map] at h
  | ok a => exact ⟨a, rfl, by simpa [Except.map] using h⟩

theorem length_of_spanName {s name rest : Text} (h : spanName s = .ok (name, rest)) :
    name.length + rest.length ≤ s.length := by
  fun_induction spanName s generalizing name rest with
  | case1 => grind
  | case2 => simp at h
  | case3 c s ih =>
    obtain ⟨⟨n, r⟩, hs, he⟩ := exists_of_map_eq_ok h
    have := ih hs
    grind
  | case4 c s _ _ ih =>
    obtain ⟨⟨n, r⟩, hs, he⟩ := exists_of_map_eq_ok h
    have := ih hs
    grind
  | case5 => grind

theorem length_lt_of_readName {s name rest : Text} (h : readName s = .ok (name, rest)) :
    rest.length < s.length := by
  unfold readName at h
  split at h
  · simp at h
  · next n r hs =>
    split at h
    · simp at h
    · have := length_of_spanName hs
      have := List.length_pos_iff.2 ‹_›
      grind

/-! ## Attribute tests -/

/-- The text without blanks at its start. -/
def skipBlanks (s : Text) : Text := s.dropWhile Text.isBlank

/-- The comparison that a character before `=` stands for. -/
def comparisonOf? : Char → Option Comparison
  | '~' => some .word
  | '|' => some .dash
  | '^' => some .start
  | '$' => some .finish
  | '*' => some .within
  | _ => none

/-- Reads the value of an attribute test: a string, which has no escapes, or a name. -/
def readOperand (s : Text) : Except Refusal (Text × Text) :=
  match s with
  | [] => readName []
  | c :: s =>
    if Text.isQuote c then
      match Text.cut? [c] s with
      | none => .error .unterminatedString
      | some p => .ok p
    else readName (c :: s)

/-- Reads an attribute test from after its comparison to its closing bracket. -/
def readComparison (name : Text) (comparison : Comparison) (s : Text) : Except Refusal (Simple × Text) :=
  match readOperand (skipBlanks s) with
  | .error r => .error r
  | .ok (value, rest) =>
    match skipBlanks rest with
    | ']' :: rest => .ok (.compare name comparison value, rest)
    | _ => .error .expectedBracket

/-- Reads an attribute test from after its opening bracket. -/
def readTest (s : Text) : Except Refusal (Simple × Text) :=
  match readName (skipBlanks s) with
  | .error r => .error r
  | .ok (name, rest) =>
    match skipBlanks rest with
    | ']' :: rest => .ok (.present name, rest)
    | '=' :: rest => readComparison name .equal rest
    | c :: '=' :: rest =>
      match comparisonOf? c with
      -- The mark is looked for by bytes, and so it is no mark when a longer character stands before the `=`.
      | none => .error (if c.utf8Size = 1 then .unknownComparison else .malformedTest)
      | some comparison => readComparison name comparison rest
    | _ => .error .malformedTest

/-! ## Compounds -/

/-- Reads the name of a child condition from after its colon. -/
def readPseudoClass (s : Text) : Except Refusal (Simple × Text) :=
  if s.head? = some ':' then .error .pseudoElement
  else
    match readName s with
    | .error r => .error r
    | .ok (name, rest) =>
      if Text.lower name = "first-child".toList then .ok (.firstChild, rest)
      else if Text.lower name = "last-child".toList then .ok (.lastChild, rest)
      else .error (.pseudoClass (Text.lower name))

/-- Reads one condition, if one begins here. -/
def readCondition? (s : Text) : Option (Except Refusal (Simple × Text)) :=
  match s with
  | '.' :: s => some ((readName s).map fun (name, rest) => (.ofClass name, rest))
  | '#' :: s => some ((readName s).map fun (name, rest) => (.id name, rest))
  | '[' :: s => some (readTest s)
  | ':' :: s => some (readPseudoClass s)
  | _ => none

theorem length_skipBlanks_le (s : Text) : (skipBlanks s).length ≤ s.length := (List.dropWhile_suffix _).length_le

theorem length_le_of_readOperand {s value rest : Text} (h : readOperand s = .ok (value, rest)) :
    rest.length ≤ s.length := by
  unfold readOperand at h
  split at h
  · simp [readName, spanName] at h
  · next c s =>
    split at h
    · split at h
      · simp at h
      · next p hc =>
        obtain rfl := by simpa using h
        have := Text.length_lt_of_cut? (by simp) hc
        simp only [List.length_cons]
        omega
    · exact Nat.le_of_lt (length_lt_of_readName h)

theorem length_le_of_readComparison {name : Text} {k : Comparison} {s rest : Text} {c : Simple}
    (h : readComparison name k s = .ok (c, rest)) : rest.length ≤ s.length := by
  unfold readComparison at h
  split at h
  · simp at h
  · next value r hv =>
    have h₁ := length_le_of_readOperand hv
    have h₂ := length_skipBlanks_le s
    have h₃ := length_skipBlanks_le r
    split at h
    · next heq => rw [heq] at h₃; simp only [List.length_cons] at h₃; grind
    · simp at h

theorem length_le_of_readTest {s rest : Text} {c : Simple} (h : readTest s = .ok (c, rest)) :
    rest.length ≤ s.length := by
  unfold readTest at h
  split at h
  · simp at h
  · next name r hn =>
    have h₁ := length_lt_of_readName hn
    have h₂ := length_skipBlanks_le s
    have h₃ := length_skipBlanks_le r
    split at h
    · next heq => rw [heq] at h₃; simp only [List.length_cons] at h₃; grind
    · next heq => rw [heq] at h₃; have := length_le_of_readComparison h; simp only [List.length_cons] at h₃; omega
    · next heq =>
      rw [heq] at h₃
      split at h
      · simp at h
      · have := length_le_of_readComparison h; simp only [List.length_cons] at h₃; omega
    · simp at h

theorem length_le_of_readPseudoClass {s rest : Text} {c : Simple} (h : readPseudoClass s = .ok (c, rest)) :
    rest.length ≤ s.length := by
  unfold readPseudoClass at h
  split at h
  · simp at h
  · split at h
    · simp at h
    · next hn =>
      have := length_lt_of_readName hn
      split at h
      · grind
      · split at h <;> grind

theorem length_lt_of_readCondition {s rest : Text} {c : Simple} (h : readCondition? s = some (.ok (c, rest))) :
    rest.length < s.length := by
  unfold readCondition? at h
  split at h
  · next s =>
    obtain ⟨⟨n, r⟩, hn, he⟩ := exists_of_map_eq_ok (by simpa using h)
    have := length_lt_of_readName hn
    grind
  · next s =>
    obtain ⟨⟨n, r⟩, hn, he⟩ := exists_of_map_eq_ok (by simpa using h)
    have := length_lt_of_readName hn
    grind
  · have := length_le_of_readTest (by simpa using h); grind
  · have := length_le_of_readPseudoClass (by simpa using h); grind
  · simp at h

/-- Reads conditions as long as there are any. -/
def readConditions (s : Text) : Except Refusal (List Simple × Text) :=
  match _h : readCondition? s with
  | none => .ok ([], s)
  | some (.error r) => .error r
  | some (.ok (c, rest)) => (readConditions rest).map fun (cs, rest) => (c :: cs, rest)
termination_by s.length
decreasing_by exact length_lt_of_readCondition (by assumption)

/-- Reads the type of a compound, if it has one. -/
def readType (s : Text) : Except Refusal (Option Text × Text) :=
  match s with
  | [] => .ok (none, [])
  | c :: s =>
    if c = '*' then .ok (none, s)
    else if isNameChar c || c == '\\' then (readName (c :: s)).map fun (name, rest) => (some name, rest)
    else .ok (none, c :: s)

/-- Reads a compound, which may not be empty. -/
def readCompound (s : Text) : Except Refusal (Compound × Text) :=
  match readType s with
  | .error r => .error r
  | .ok (type, afterType) =>
    match readConditions afterType with
    | .error r => .error r
    | .ok (conditions, rest) => if rest.length = s.length then .error (.unexpected s) else .ok (⟨type, conditions⟩, rest)

/-! ## Selectors -/

/-- Reads a combinator with the blanks around it; the text may not end here. -/
def readCombinator (s : Text) : Except Refusal (Combinator × Text) :=
  match skipBlanks s with
  | '>' :: rest => .ok (.child, skipBlanks rest)
  | '+' :: rest => .ok (.adjacent, skipBlanks rest)
  | '~' :: rest => .ok (.sibling, skipBlanks rest)
  | rest => if rest.length < s.length then .ok (.descendant, rest) else .error (.unexpected rest)

theorem length_of_readCombinator {s rest : Text} {k : Combinator} (h : readCombinator s = .ok (k, rest)) :
    rest.length < s.length := by
  have hs := length_skipBlanks_le s
  unfold readCombinator at h
  split at h
  case h_4 => grind
  all_goals
    next r heq =>
      have := length_skipBlanks_le r
      rw [heq] at hs
      simp only [List.length_cons] at hs
      grind

theorem length_of_readConditions {s rest : Text} {cs : List Simple} (h : readConditions s = .ok (cs, rest)) :
    rest.length ≤ s.length := by
  fun_induction readConditions s generalizing cs rest with
  | case1 => grind
  | case2 => simp at h
  | case3 s c r hc ih =>
    have := length_lt_of_readCondition hc
    obtain ⟨⟨cs, r'⟩, hr, he⟩ := exists_of_map_eq_ok h
    have := ih hr
    grind

theorem length_of_readType {s rest : Text} {t : Option Text} (h : readType s = .ok (t, rest)) :
    rest.length ≤ s.length := by
  unfold readType at h
  split at h
  · grind
  · next c s =>
    split at h
    · grind
    · split at h
      · obtain ⟨⟨n, r⟩, hn, he⟩ := exists_of_map_eq_ok h
        have := length_lt_of_readName hn
        grind
      · grind

theorem length_lt_of_readCompound {s rest : Text} {c : Compound} (h : readCompound s = .ok (c, rest)) :
    rest.length < s.length := by
  unfold readCompound at h
  split at h
  · simp at h
  · next ht =>
    split at h
    · simp at h
    · next hc =>
      have h₁ := length_of_readType ht
      have h₂ := length_of_readConditions hc
      split at h <;> grind

/-- Reads the combinators and compounds that follow a compound to the end of the text, in the order in which they stand. -/
def readContinuation (s : Text) : Except Refusal (List (Combinator × Compound)) :=
  if skipBlanks s = [] then .ok []
  else
    match _h₁ : readCombinator s with
    | .error r => .error r
    | .ok (k, afterCombinator) =>
      match _h₂ : readCompound afterCombinator with
      | .error r => .error r
      | .ok (c, rest) => (readContinuation rest).map ((k, c) :: ·)
termination_by s.length
decreasing_by
  have h₁ := length_of_readCombinator (by assumption)
  have h₂ := length_lt_of_readCompound (by assumption)
  omega

/-- The selector whose first compound is `c`, with what follows that compound. -/
def Selector.ofParts (source : Text) (c : Compound) (more : List (Combinator × Compound)) : Selector :=
  let parts := more.foldl (fun (last, context) (k, next) => (next, (k, last) :: context)) (c, [])
  ⟨parts.1, parts.2, source⟩

/-- Reads one selector, without commas. -/
def Selector.parse (s : Text) : Except Refused Selector :=
  let source := Text.trim s
  let parts : Except Refusal Selector :=
    match readCompound source with
    | .error r => .error r
    | .ok (c, rest) => (readContinuation rest).map (Selector.ofParts source c)
  parts.mapError (⟨source, ·⟩)

/-- Reads the selectors between the commas of a group, each on its own; nothing stands between two commas with only
white space between them. -/
def Selector.parseGroup (s : Text) : List (Except Refused Selector) :=
  ((split ',' s).filter fun piece => !(Text.trim piece).isEmpty).map Selector.parse

end MailTemplate.Css
