/-!
# Texts

A text is a list of characters, so that reading, cutting and comparing are recursion on a list.
Main statements: cutting a text at a mark loses nothing (`eq_append_of_cut?`), and what follows the mark is shorter
(`length_lt_of_cut?`).
-/
namespace MailTemplate

/-- A text, read from left to right. -/
abbrev Text := List Char

namespace Text

/-- How many bytes the text takes in UTF-8. -/
def byteSize : Text → Nat
  | [] => 0
  | c :: t => c.utf8Size + byteSize t

/-- The blanks of markup and style sheets: space, tab, line feed, form feed and carriage return. -/
def isBlank (c : Char) : Bool :=
  c == ' ' || c == '\t' || c == '\n' || c == '\x0c' || c == '\r'

/-- The two marks that open and close a string. -/
def isQuote (c : Char) : Bool := c == '"' || c == '\''

/-- ASCII letters in lower case, every other character unchanged. -/
def lower (t : Text) : Text := t.map Char.toLower

/-- Texts that differ at most in the case of ASCII letters. -/
def sameLetters (s t : Text) : Bool := lower s == lower t

/-! ## Cutting at a mark -/

/-- What follows `mark` in a text that begins with it. -/
def after? : Text → Text → Option Text
  | [], s => some s
  | _ :: _, [] => none
  | m :: mark, c :: s => if m = c then after? mark s else none

/-- The text before the first `mark` in `s`, and the text after it. -/
def cut? (mark s : Text) : Option (Text × Text) :=
  match after? mark s with
  | some rest => some ([], rest)
  | none => match s with
    | [] => none
    | c :: s => (cut? mark s).map fun (before, rest) => (c :: before, rest)

theorem after?_eq_some_iff {mark s rest : Text} : after? mark s = some rest ↔ s = mark ++ rest := by
  fun_induction after? mark s with
  | case1 s => simp [eq_comm]
  | case2 => simp
  | case3 m mark s ih => simp [ih]
  | case4 m mark c s h => simp [Ne.symm h]

theorem eq_append_of_cut? {mark s before rest : Text} (h : cut? mark s = some (before, rest)) :
    s = before ++ mark ++ rest := by
  fun_induction cut? mark s generalizing before with
  | case1 s rest' h' =>
    obtain ⟨rfl, rfl⟩ := by simpa using h
    simpa using after?_eq_some_iff.1 h'
  | case2 => simp at h
  | case3 c s _ ih =>
    obtain ⟨⟨b, r⟩, hc, he⟩ := Option.map_eq_some_iff.1 h
    obtain ⟨rfl, rfl⟩ := by simpa using he
    simpa using ih hc

theorem length_lt_of_cut? {mark s before rest : Text} (hm : mark ≠ []) (h : cut? mark s = some (before, rest)) :
    rest.length < s.length := by
  have := List.length_pos_iff.2 hm
  simp [eq_append_of_cut? h]
  omega

/-! ## Words and fields -/

/-- The fields between the characters that `sep` accepts, empty fields included. -/
def fields (sep : Char → Bool) : Text → List Text
  | [] => [[]]
  | c :: s =>
    if sep c then [] :: fields sep s
    else match fields sep s with
      | [] => [[c]]
      | field :: more => (c :: field) :: more

/-- The words of a list separated by blanks. -/
def words (t : Text) : List Text := (fields isBlank t).filter (!·.isEmpty)

/-- The texts with `sep` between each two. -/
def join (sep : Text) : List Text → Text
  | [] => []
  | [t] => t
  | t :: ts => t ++ sep ++ join sep ts

theorem join_cons (sep t : Text) {ts : List Text} (h : ts ≠ []) : join sep (t :: ts) = t ++ sep ++ join sep ts := by
  cases ts with
  | nil => exact absurd rfl h
  | cons u ts =>
    rw [join]
    intro h
    cases h

/-- The text without the characters that `p` accepts at its end. -/
def dropEnd (p : Char → Bool) (t : Text) : Text := (t.reverse.dropWhile p).reverse

/-- The text without the characters that `p` accepts at its two ends. -/
def strip (p : Char → Bool) (t : Text) : Text := dropEnd p (t.dropWhile p)

end Text

end MailTemplate
