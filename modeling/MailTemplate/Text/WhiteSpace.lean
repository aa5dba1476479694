import MailTemplate.Text.Basic

/-!
# White space

The characters with the Unicode property `White_Space`, which trimming takes off. Every blank of markup is one of them
(`isWhiteSpace_of_isBlank`).
-/
namespace MailTemplate.Text

/-- Characters with the Unicode property `White_Space`. -/
def isWhiteSpace (c : Char) : Bool :=
  let n := c.toNat
  (0x09 ≤ n && n ≤ 0x0D) || n == 0x20 || n == 0x85 || n == 0xA0 || n == 0x1680 || (0x2000 ≤ n && n ≤ 0x200A) ||
    n == 0x2028 || n == 0x2029 || n == 0x202F || n == 0x205F || n == 0x3000

/-- The text without white space at its two ends. -/
def trim (t : Text) : Text := strip isWhiteSpace t

theorem isWhiteSpace_of_isBlank {c : Char} (h : isBlank c = true) : isWhiteSpace c = true := by
  simp only [isBlank, Bool.or_eq_true, beq_iff_eq] at h
  rcases h with (((rfl | rfl) | rfl) | rfl) | rfl <;> decide

end MailTemplate.Text
