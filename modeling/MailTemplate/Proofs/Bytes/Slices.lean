import MailTemplate.Proofs.Text.Bytes
import MailTemplate.Proofs.Text.Cutting
/-!
# Slices

A text can also be cut at the offsets of its bytes. That is possible only in bounds, in order, and where no character
goes on from one byte to the next (`isSome_slice?_iff`); what is cut out is a text, and has the bytes that stand there
(`bytes_of_slice?`). `RestAt` is what the readers keep: a character begins at the offset, or the text ends there.
-/
namespace MailTemplate.Text

variable {c : Char} {a b r r' s t : Text} {i j : Nat}

/-- Whether byte `i` continues a character, so that the text cannot be cut before it. -/
def isInside (t : Text) (i : Nat) : Bool := t.bytes[i]?.any continues

/-- The text before byte `i` and the text from it on, if it can be cut there. -/
def splitAt? : Text → Nat → Option (Text × Text)
  | t, 0 => some ([], t)
  | [], _ + 1 => none
  | c :: t, i + 1 =>
    if c.utf8Size ≤ i + 1 then (splitAt? t (i + 1 - c.utf8Size)).map fun (before, rest) => (c :: before, rest) else none

/-- The text from byte `i` up to byte `j`, if it can be cut out. -/
def slice? (t : Text) (i j : Nat) : Option Text := do
  let (_, rest) ← splitAt? t i
  if j < i then none
  else
    let (inside, _) ← splitAt? rest (j - i)
    return inside

/-- What follows the first `i` bytes of `t` is `r`. -/
def RestAt (t : Text) (i : Nat) (r : Text) : Prop := ∃ before, before ++ r = t ∧ byteSize before = i

namespace RestAt

theorem start (t : Text) : RestAt t 0 t := ⟨[], rfl, rfl⟩

theorem finish (t : Text) : RestAt t (byteSize t) [] := ⟨t, List.append_nil t, rfl⟩

theorem append (h : RestAt t i (s ++ r)) : RestAt t (i + byteSize s) r := by
  obtain ⟨before, rfl, rfl⟩ := h
  exact ⟨before ++ s, List.append_assoc .., byteSize_append ..⟩

theorem tail (h : RestAt t i (c :: r)) : RestAt t (i + c.utf8Size) r := append (s := [c]) h

theorem byteSize_eq (h : RestAt t i r) : byteSize t = i + byteSize r := by
  obtain ⟨before, rfl, rfl⟩ := h
  exact byteSize_append ..

theorem getElem?_bytes (h : RestAt t i r) (k : Nat) : t.bytes[i + k]? = r.bytes[k]? := by
  obtain ⟨before, rfl, rfl⟩ := h
  rw [bytes_append, List.getElem?_append_right (by simp), length_bytes, Nat.add_sub_cancel_left]

theorem drop_bytes (h : RestAt t i r) : t.bytes.drop i = r.bytes := by
  obtain ⟨before, rfl, rfl⟩ := h
  rw [bytes_append, ← length_bytes, List.drop_left]

/-- Where as much follows, as many bytes stand before. -/
theorem eq_of_length_eq (h : RestAt t i r) (h' : RestAt t j r') (hl : r.length = r'.length) : i = j := by
  obtain ⟨before, rfl, rfl⟩ := h
  obtain ⟨before', heq, rfl⟩ := h'
  rw [(List.append_inj' heq hl.symm).1]

/-- Where less follows, more bytes stand before. -/
theorem lt_of_length_lt (h : RestAt t i r) (h' : RestAt t j r') (hlt : r'.length < r.length) : i < j := by
  obtain ⟨before, rfl, rfl⟩ := h
  obtain ⟨before', heq, rfl⟩ := h'
  rcases List.append_eq_append_iff.1 heq with ⟨u, rfl, rfl⟩ | ⟨u, rfl, rfl⟩
  · rw [List.length_append] at hlt
    omega
  · have hu : byteSize u ≠ 0 := by
      rw [ne_eq, byteSize_eq_zero_iff]
      rintro rfl
      exact Nat.lt_irrefl _ hlt
    rw [byteSize_append]
    omega

end RestAt

/-! ## Where a text can be cut -/

theorem splitAt?_eq_some_iff : splitAt? t i = some (a, b) ↔ a ++ b = t ∧ byteSize a = i := by
  fun_induction splitAt? t i generalizing a with
  | case1 t =>
    rw [Option.some_inj, Prod.mk.injEq, byteSize_eq_zero_iff]
    constructor
    · rintro ⟨rfl, rfl⟩
      exact ⟨rfl, rfl⟩
    · rintro ⟨rfl, rfl⟩
      exact ⟨rfl, rfl⟩
  | case2 i =>
    refine iff_of_false nofun ?_
    rintro ⟨h, hsize⟩
    rw [(List.append_eq_nil_iff.1 h).1] at hsize
    cases hsize
  | case3 c t i hle ih =>
    cases a with
    | nil => simp [byteSize]
    | cons d a =>
      simp only [Option.map_eq_some_iff, Prod.exists, Prod.mk.injEq, List.cons.injEq]
      constructor
      · rintro ⟨a, b, h, ⟨rfl, rfl⟩, rfl⟩
        obtain ⟨rfl, hsize⟩ := ih.1 h
        refine ⟨rfl, ?_⟩
        rw [byteSize]
        omega
      · rintro ⟨h, hsize⟩
        obtain ⟨rfl, rfl⟩ := List.cons.inj h
        rw [byteSize] at hsize
        exact ⟨a, b, ih.2 ⟨rfl, by omega⟩, ⟨rfl, rfl⟩, rfl⟩
  | case4 c t i hlt =>
    refine iff_of_false nofun ?_
    rintro ⟨h, hsize⟩
    cases a with
    | nil => cases hsize
    | cons d a =>
      obtain ⟨rfl, -⟩ := List.cons.inj h
      rw [byteSize] at hsize
      omega

theorem RestAt.splitAt? (h : RestAt t i r) : ∃ before, Text.splitAt? t i = some (before, r) := by
  obtain ⟨before, rfl, rfl⟩ := h
  exact ⟨before, splitAt?_eq_some_iff.2 ⟨rfl, rfl⟩⟩

theorem slice?_eq_some_iff : slice? t i j = some s ↔ ∃ rest, RestAt t i (s ++ rest) ∧ j = i + byteSize s := by
  constructor
  · intro h
    obtain ⟨⟨before, rest⟩, hi, h⟩ := Option.bind_eq_some_iff.1 h
    dsimp only at h
    split at h
    · cases h
    · next hle =>
      obtain ⟨⟨inside, after⟩, hj, h⟩ := Option.bind_eq_some_iff.1 h
      obtain rfl := Option.some_inj.1 h
      obtain ⟨rfl, hsize⟩ := splitAt?_eq_some_iff.1 hj
      obtain ⟨rfl, rfl⟩ := splitAt?_eq_some_iff.1 hi
      exact ⟨after, ⟨before, rfl, rfl⟩, by dsimp only; omega⟩
  · rintro ⟨rest, h, rfl⟩
    obtain ⟨before, hi⟩ := h.splitAt?
    rw [slice?, hi, Option.bind_eq_bind, Option.bind_some]
    dsimp only
    rw [if_neg (by omega), Nat.add_sub_cancel_left, splitAt?_eq_some_iff.2 ⟨rfl, rfl⟩]
    rfl

theorem RestAt.slice? (h : RestAt t i (s ++ r)) : Text.slice? t i (i + byteSize s) = some s :=
  slice?_eq_some_iff.2 ⟨r, h, rfl⟩

theorem RestAt.slice?_rest (h : RestAt t i r) : Text.slice? t i (byteSize t) = some r := by
  rw [h.byteSize_eq]
  exact RestAt.slice? (r := []) ((List.append_nil r).symm ▸ h)

/-- What is cut out has the bytes between the two offsets. -/
theorem bytes_of_slice? (h : slice? t i j = some s) : s.bytes = (t.bytes.drop i).take (j - i) := by
  obtain ⟨rest, hr, rfl⟩ := slice?_eq_some_iff.1 h
  rw [hr.drop_bytes, bytes_append, Nat.add_sub_cancel_left, ← length_bytes, List.take_left]

theorem isInside_of_lt {k : Nat} (h : RestAt t i (c :: r)) (hpos : 0 < k) (hk : k < c.utf8Size) :
    isInside t (i + k) = true := by
  obtain ⟨b, bs, he, hbs, -⟩ := exists_utf8EncodeChar c
  have hlen : bs.length + 1 = c.utf8Size := by rw [← String.length_utf8EncodeChar, he, List.length_cons]
  obtain ⟨k, rfl⟩ := Nat.exists_eq_add_one_of_ne_zero (Nat.ne_of_gt hpos)
  rw [isInside, h.getElem?_bytes, bytes_cons, he, List.cons_append, List.getElem?_cons_succ,
    List.getElem?_append_left (by omega), List.getElem?_eq_getElem (by omega)]
  exact hbs _ (List.getElem_mem _)

theorem RestAt.isInside_eq_false (h : RestAt t i r) : isInside t i = false := by
  have hbyte := h.getElem?_bytes 0
  rw [Nat.add_zero] at hbyte
  rw [isInside, hbyte]
  cases r with
  | nil => rfl
  | cons c r =>
    obtain ⟨b, bs, he, -, hb⟩ := exists_utf8EncodeChar c
    rw [bytes_cons, he, List.cons_append, List.getElem?_cons_zero, Option.any_some, continues, Bool.and_eq_false_iff,
      decide_eq_false_iff_not, decide_eq_false_iff_not]
    omega

theorem RestAt.cons (h : RestAt t i r) (c : Char) : RestAt (c :: t) (c.utf8Size + i) r := by
  obtain ⟨before, rfl, rfl⟩ := h
  exact ⟨c :: before, rfl, rfl⟩

/-- A text can be cut in bounds, and where no character goes on. -/
theorem exists_restAt_iff : (∃ r, RestAt t i r) ↔ i ≤ byteSize t ∧ isInside t i = false := by
  constructor
  · rintro ⟨r, h⟩
    rw [h.byteSize_eq]
    exact ⟨Nat.le_add_right _ _, h.isInside_eq_false⟩
  · rintro ⟨hi, hin⟩
    induction t generalizing i with
    | nil =>
      obtain rfl := Nat.le_zero.1 hi
      exact ⟨[], .start []⟩
    | cons c t ih =>
      rcases Nat.eq_zero_or_pos i with rfl | hpos
      · exact ⟨c :: t, .start _⟩
      have hlt : ¬ i < c.utf8Size := by
        intro hlt
        have := isInside_of_lt (.start (c :: t)) hpos hlt
        rw [Nat.zero_add, hin] at this
        cases this
      obtain ⟨k, rfl⟩ := Nat.exists_eq_add_of_le (Nat.le_of_not_lt hlt)
      have htail : (bytes (c :: t))[c.utf8Size + k]? = (bytes t)[k]? := by
        have := (RestAt.start (c :: t)).tail.getElem?_bytes k
        rwa [Nat.zero_add] at this
      rw [byteSize, Nat.add_le_add_iff_left] at hi
      rw [isInside, htail] at hin
      obtain ⟨r, hr⟩ := ih hi hin
      exact ⟨r, hr.cons c⟩

/-- A slice is taken in bounds, in order, and where no character goes on. -/
theorem isSome_slice?_iff : (slice? t i j).isSome = true ↔
    i ≤ j ∧ j ≤ byteSize t ∧ isInside t i = false ∧ isInside t j = false := by
  rw [Option.isSome_iff_exists]
  constructor
  · rintro ⟨s, hs⟩
    obtain ⟨rest, h, rfl⟩ := slice?_eq_some_iff.1 hs
    obtain ⟨hj, hin⟩ := exists_restAt_iff.1 ⟨rest, h.append⟩
    exact ⟨Nat.le_add_right _ _, hj, h.isInside_eq_false, hin⟩
  · rintro ⟨hij, hj, hini, hinj⟩
    obtain ⟨r, hr⟩ := exists_restAt_iff.2 ⟨Nat.le_trans hij hj, hini⟩
    obtain ⟨r', hr'⟩ := exists_restAt_iff.2 ⟨hj, hinj⟩
    obtain ⟨before, rfl, rfl⟩ := hr
    obtain ⟨before', heq, rfl⟩ := hr'
    rcases List.append_eq_append_iff.1 heq with ⟨u, rfl, rfl⟩ | ⟨u, rfl, rfl⟩
    · obtain rfl := byteSize_eq_zero_iff.1 (show byteSize u = 0 by rw [byteSize_append] at hij; omega)
      exact ⟨[], slice?_eq_some_iff.2 ⟨r, ⟨before', by simp, by simp⟩, by simp [byteSize]⟩⟩
    · exact ⟨u, slice?_eq_some_iff.2 ⟨r', ⟨before, rfl, rfl⟩, byteSize_append ..⟩⟩

/-- A slice has the bytes between its ends. -/
theorem map_bytes_slice? (t : Text) (i j : Nat) : (slice? t i j).map bytes =
    if i ≤ j ∧ j ≤ byteSize t ∧ isInside t i = false ∧ isInside t j = false then some ((t.bytes.drop i).take (j - i))
    else none := by
  have hiff := isSome_slice?_iff (t := t) (i := i) (j := j)
  cases h : slice? t i j with
  | none =>
    rw [h] at hiff
    rw [Option.map_none, if_neg fun hcut => Bool.false_ne_true (hiff.2 hcut)]
  | some s =>
    rw [h] at hiff
    rw [Option.map_some, bytes_of_slice? h, if_pos (hiff.1 rfl)]

example : slice? "né".toList 1 3 = some ['é'] ∧ slice? "né".toList 1 2 = none := by decide

end MailTemplate.Text
