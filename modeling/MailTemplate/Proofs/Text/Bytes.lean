import Mathlib
import MailTemplate.Text.Utf8
/-!
# Bytes

A text has the bytes that UTF-8 gives its characters, one character after the other. Main statement: the byte of a line
feed is in no other character (`mem_utf8EncodeChar_iff`), so that lines can be counted in bytes.
-/
namespace MailTemplate.Text

@[simp]
theorem bytes_nil : bytes [] = [] := rfl

@[simp]
theorem bytes_cons (c : Char) (t : Text) : bytes (c :: t) = String.utf8EncodeChar c ++ bytes t := List.flatMap_cons

@[simp]
theorem bytes_append (s t : Text) : bytes (s ++ t) = bytes s ++ bytes t := List.flatMap_append

@[simp]
theorem length_bytes (t : Text) : (bytes t).length = byteSize t := by
  induction t with
  | nil => rfl
  | cons c t ih => rw [bytes_cons, List.length_append, String.length_utf8EncodeChar, ih, byteSize]

@[simp]
theorem byteSize_append (s t : Text) : byteSize (s ++ t) = byteSize s + byteSize t := by
  rw [← length_bytes, bytes_append, List.length_append, length_bytes, length_bytes]

theorem byteSize_eq_zero_iff {t : Text} : byteSize t = 0 ↔ t = [] := by
  cases t with
  | nil => exact iff_of_true rfl rfl
  | cons c t =>
    have := c.utf8Size_pos
    refine iff_of_false ?_ (List.cons_ne_nil _ _)
    rw [byteSize]
    omega

theorem byteSize_le_append (s t : Text) : byteSize s ≤ byteSize (s ++ t) := by
  rw [byteSize_append]
  exact Nat.le_add_right _ _

/-- The byte of a line feed. -/
def lineFeed : UInt8 := 10

/-- Bytes that continue a character which an earlier byte has begun. -/
def continues (b : UInt8) : Bool := 0x80 ≤ b.toNat && b.toNat < 0xC0

/-- A character is one byte of its own number, or a byte above all those and others that continue it. -/
theorem exists_utf8EncodeChar (c : Char) : ∃ b bs, String.utf8EncodeChar c = b :: bs ∧ (∀ x ∈ bs, continues x = true) ∧
    (c.toNat < 0x80 ∧ b.toNat = c.toNat ∨ 0x80 ≤ c.toNat ∧ 0xC0 ≤ b.toNat) := by
  have hof : ∀ n : Nat, n < 256 → (UInt8.ofNat n).toNat = n := fun _ => UInt8.toNat_ofNat_of_lt'
  have hmore : ∀ n : Nat, continues (UInt8.ofNat (n % 64 + 128)) = true := by
    intro n
    rw [continues, hof _ (by omega), Bool.and_eq_true, decide_eq_true_iff, decide_eq_true_iff]
    omega
  have hc : c.toNat = c.val.toNat := rfl
  unfold String.utf8EncodeChar
  dsimp only
  split
  · exact ⟨_, _, rfl, nofun, .inl ⟨by omega, by rw [hof _ (by omega), hc]⟩⟩
  · have habove : 0x80 ≤ c.toNat := by omega
    split
    · exact ⟨_, _, rfl, List.forall_mem_singleton.2 (hmore _), .inr ⟨habove, by rw [hof _ (by omega)]; omega⟩⟩
    · split
      · refine ⟨_, _, rfl, ?_, .inr ⟨habove, by rw [hof _ (by omega)]; omega⟩⟩
        simp only [List.forall_mem_cons, hmore, List.not_mem_nil, true_and]
        exact nofun
      · refine ⟨_, _, rfl, ?_, .inr ⟨habove, by rw [hof _ (by omega)]; omega⟩⟩
        simp only [List.forall_mem_cons, hmore, List.not_mem_nil, true_and]
        exact nofun

theorem mem_utf8EncodeChar_iff (c : Char) : lineFeed ∈ String.utf8EncodeChar c ↔ c = '\n' := by
  obtain ⟨b, bs, he, hbs, hb⟩ := exists_utf8EncodeChar c
  have hmore : lineFeed ∉ bs := fun h => absurd (hbs _ h) (by decide)
  have hval : c = '\n' ↔ c.toNat = 10 := (Char.toNat_inj (d := '\n')).symm
  have hfeed : lineFeed.toNat = 10 := rfl
  rw [he, List.mem_cons, or_iff_left hmore, hval, ← UInt8.toNat_inj]
  omega

end MailTemplate.Text
