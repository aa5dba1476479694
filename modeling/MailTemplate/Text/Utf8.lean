import MailTemplate.Text.Basic

/-!
# Text and bytes

A text has the bytes that UTF-8 gives its characters, one character after the other. Bytes are read as UTF-8, with one
replacement character for every longest part that begins a character and does not end it, and for every byte that begins
none.
-/
namespace MailTemplate.Text

/-- The bytes of a text in UTF-8. -/
def bytes (t : Text) : List UInt8 := t.flatMap String.utf8EncodeChar

/-- What stands for bytes that are no character. -/
def replacementChar : Char := '\ufffd'

/-- How many bytes follow a first byte, the range of the first of them, and the bits that the first byte gives. -/
def sequenceFrom? (b : Nat) : Option (Nat × Nat × Nat × Nat) :=
  if b < 0x80 then some (0, 0x80, 0xBF, b)
  else if b < 0xC2 then none
  else if b < 0xE0 then some (1, 0x80, 0xBF, b - 0xC0)
  else if b < 0xF0 then
    some (2, if b = 0xE0 then 0xA0 else 0x80, if b = 0xED then 0x9F else 0xBF, b - 0xE0)
  else if b < 0xF5 then
    some (3, if b = 0xF0 then 0x90 else 0x80, if b = 0xF4 then 0x8F else 0xBF, b - 0xF0)
  else none

/-- Reads `n` more bytes of a character, the first of them between `low` and `high`; where one is missing the rest starts
with what stands in its place. -/
def readSequence (n low high value : Nat) (bs : List UInt8) : Option Nat × List UInt8 :=
  match n, bs with
  | 0, bs => (some value, bs)
  | _ + 1, [] => (none, [])
  | n + 1, b :: bs =>
    if low ≤ b.toNat ∧ b.toNat ≤ high then readSequence n 0x80 0xBF (value * 64 + (b.toNat - 0x80)) bs
    else (none, b :: bs)

theorem length_readSequence_le (n low high value : Nat) (bs : List UInt8) :
    (readSequence n low high value bs).2.length ≤ bs.length := by
  induction n generalizing low high value bs with
  | zero => simp [readSequence]
  | succ n ih =>
    cases bs with
    | nil => simp [readSequence]
    | cons b bs =>
      simp only [readSequence]
      split
      · have := ih 0x80 0xBF (value * 64 + (b.toNat - 0x80)) bs
        simp only [List.length_cons]
        omega
      · simp

/-- The text of some bytes. -/
def ofBytes (bs : List UInt8) : Text :=
  match bs with
  | [] => []
  | b :: bs =>
    match sequenceFrom? b.toNat with
    | none => replacementChar :: ofBytes bs
    | some (n, low, high, value) =>
      let read := readSequence n low high value bs
      (read.1.map Char.ofNat).getD replacementChar :: ofBytes read.2
termination_by bs.length
decreasing_by
  · simp
  · have := length_readSequence_le n low high value bs
    simp only [List.length_cons]
    omega

end MailTemplate.Text
