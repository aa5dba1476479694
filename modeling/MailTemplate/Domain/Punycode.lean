import MailTemplate.Text.Basic

/-!
# Punycode

A label with characters beyond ASCII is written as its ASCII characters, a hyphen, and digits that say how the other
characters are inserted one by one, the lowest code point first. An insertion of the code point `n` at the place `i` of a
text of length `h` has the number `n * (h + 1) + i`, and what is written is how far that number is from the one after the
insertion before.
-/
namespace MailTemplate.Domain.Punycode

/-! ## Digits -/

/-- The digit of a value below 36: a letter, and from 26 on a decimal digit. -/
def digit (d : Nat) : Char := if d < 26 then Char.ofNat ('a'.toNat + d) else Char.ofNat ('0'.toNat + (d - 26))

def value? (c : Char) : Option Nat :=
  if 'a' ≤ c ∧ c ≤ 'z' then some (c.toNat - 'a'.toNat)
  else if 'A' ≤ c ∧ c ≤ 'Z' then some (c.toNat - 'A'.toNat)
  else if c.isDigit then some (c.toNat - '0'.toNat + 26)
  else none

/-- The least value that a digit must have if another one follows; `place` grows by 36 from digit to digit. -/
def threshold (bias place : Nat) : Nat := min 26 (max 1 (place - bias))

theorem threshold_pos (bias place : Nat) : 0 < threshold bias place := by
  unfold threshold
  omega

/-- A number in digits, the lowest first. -/
def digits (bias place n : Nat) : Text :=
  let t := threshold bias place
  if n < t then [digit n]
  else digit (t + (n - t) % (36 - t)) :: digits bias (place + 36) ((n - t) / (36 - t))
termination_by n
decreasing_by
  have := threshold_pos bias place
  have : (n - threshold bias place) / (36 - threshold bias place) ≤ n - threshold bias place := Nat.div_le_self _ _
  omega

/-- The number that the digits at the start of a text spell, each counting `weight`, and what follows them. -/
def number? (bias place weight : Nat) : Text → Option (Nat × Text)
  | [] => none
  | c :: s =>
    match value? c with
    | none => none
    | some d =>
      let t := threshold bias place
      if d < t then some (d * weight, s)
      else (number? bias (place + 36) (weight * (36 - t)) s).map fun (n, rest) => (d * weight + n, rest)

theorem length_lt_of_number? {bias place weight n : Nat} {s rest : Text}
    (h : number? bias place weight s = some (n, rest)) : rest.length < s.length := by
  induction s generalizing place weight n with
  | nil => simp [number?] at h
  | cons c s ih =>
    rw [number?] at h
    split at h
    · simp at h
    · dsimp only at h
      split at h
      · obtain ⟨_, rfl⟩ := by simpa using h
        simp
      · obtain ⟨⟨m, r⟩, hr, he⟩ := Option.map_eq_some_iff.1 h
        obtain ⟨_, rfl⟩ := by simpa using he
        simpa using Nat.lt_succ_of_lt (ih hr)

/-! ## The bias -/

/-- How often a number is divided by 35 until it is small, counted in places, and what is left. -/
def reduce (n place : Nat) : Nat × Nat := if 455 < n then reduce (n / 35) (place + 36) else (n, place)
termination_by n
decreasing_by omega

/-- The bias after the number `n` was written for a text that is now `length` long: numbers are expected to stay about as
large as they are. -/
def adapt (n length : Nat) (first : Bool) : Nat :=
  let n := if first then n / 700 else n / 2
  let (n, place) := reduce (n + n / length) 0
  place + 36 * n / (n + 38)

/-! ## Writing -/

/-- The code points beyond ASCII, in order, each one once. -/
def codes (t : Text) : List Nat :=
  ((t.filter (0x80 ≤ ·.toNat)).map Char.toNat).mergeSort.eraseReps

/-- Where the characters with a code point are inserted: each at the place of those before it that are there already. -/
def places (code : Nat) (before : Nat) : Text → List Nat
  | [] => []
  | c :: t =>
    if c.toNat = code then before :: places code (before + 1) t
    else places code (if c.toNat < code then before + 1 else before) t

/-- The insertions that make a text out of its ASCII characters. -/
def insertions (t : Text) : List (Nat × Nat) := (codes t).flatMap fun code => (places code 0 t).map fun i => (code, i)

/-- Writes insertions into a text that is `length` long, where `code` and `i` stand for the first one that is not yet
ruled out. -/
def spell (bias length code i : Nat) (first : Bool) : List (Nat × Nat) → Text
  | [] => []
  | (c, j) :: more =>
    let n := (c - code) * (length + 1) + j - i
    digits bias 36 n ++ spell (adapt n (length + 1) first) (length + 1) c (j + 1) false more

/-- The written form of a label. -/
def encode (t : Text) : Text :=
  let plain := t.filter (·.toNat < 0x80)
  (if plain = [] then [] else plain ++ ['-']) ++ spell 72 plain.length 0x80 0 true (insertions t)

/-! ## Reading -/

/-- The character with a code point. -/
def character? (n : Nat) : Option Char := if n.isValidChar then some (Char.ofNat n) else none

/-- Does the insertions that are written in a text to `t`. -/
def insertAll? (bias code i : Nat) (first : Bool) (t : Text) (s : Text) : Option Text :=
  if s = [] then some t
  else
    match _h : number? bias 36 1 s with
    | none => none
    | some (n, rest) =>
      let length := t.length + 1
      let code := code + (i + n) / length
      let i := (i + n) % length
      match character? code with
      | none => none
      | some c => insertAll? (adapt n length first) code (i + 1) false (t.take i ++ c :: t.drop i) rest
termination_by s.length
decreasing_by exact length_lt_of_number? _h

/-- The label that a text is the written form of. A hyphen that nothing stands before is read as a digit, which it is
not. -/
def decode? (s : Text) : Option Text :=
  let back := s.reverse
  let plain := (back.dropWhile (· != '-')).drop 1
  insertAll? 72 0x80 0 true plain.reverse (if plain = [] then s else (back.takeWhile (· != '-')).reverse)

end MailTemplate.Domain.Punycode
