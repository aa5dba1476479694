import MailTemplate.Proofs.Bytes.Slices
/-!
# Scanning

A reader can go through a text byte by byte, and cut it at the offsets where it stops. Every mark it looks for is ASCII,
and no byte of another character is. So what it does at the first byte of a character is what it would do at the
character (`Seen`), and it passes over the other bytes (`RestAt.pass`). A loop is right if each of its rounds is
(`loop?_eq`).
-/
namespace MailTemplate.Bytes

open Text

variable {β : Type} {b c z : Char} {mark r s t : Text} {i j : Nat}

/-! ## One byte -/

/-- The byte at an offset, as the character of its number. -/
def unit? (t : Text) (i : Nat) : Option Char := t.bytes[i]?.map Char.ofUInt8

/-- `b` is what is seen of `c` at its first byte. -/
def Seen (b c : Char) : Prop := c.toNat < 0x80 ∧ b = c ∨ 0x80 ≤ c.toNat ∧ 0x80 ≤ b.toNat

/-- Characters beyond ASCII are all the same to `f`. -/
def Coarse (f : Char → β) : Prop := ∀ b c : Char, 0x80 ≤ b.toNat → 0x80 ≤ c.toNat → f b = f c

theorem Seen.apply_eq {f : Char → β} (h : Seen b c) (hf : Coarse f) : f b = f c := by
  rcases h with ⟨-, rfl⟩ | ⟨hc, hb⟩
  · rfl
  · exact hf b c hb hc

/-- All marks are ASCII. -/
theorem Coarse.of_eq_false {p : Char → Bool} (hp : ∀ c : Char, 0x80 ≤ c.toNat → p c = false) : Coarse p :=
  fun b c hb hc => (hp b hb).trans (hp c hc).symm

theorem ne_of_le (hb : 0x80 ≤ b.toNat) (hz : z.toNat < 0x80) : b ≠ z := by
  rintro rfl
  omega

theorem coarse_eq (hz : z.toNat < 0x80) : Coarse (· = z) := fun _ _ hb hc =>
  (eq_false (ne_of_le hb hz)).trans (eq_false (ne_of_le hc hz)).symm

theorem Seen.eq_iff (h : Seen b c) (hz : z.toNat < 0x80) : b = z ↔ c = z := iff_of_eq (h.apply_eq (coarse_eq hz))

theorem toNat_ofUInt8 (x : UInt8) : (Char.ofUInt8 x).toNat = x.toNat := by simp [Char.ofUInt8, Char.toNat]

theorem lt_of_unit? (h : unit? t i = some b) : i < byteSize t := by
  obtain ⟨x, hx, -⟩ := Option.map_eq_some_iff.1 h
  rw [← length_bytes]
  exact (List.getElem?_eq_some_iff.1 hx).1

theorem unit?_of_le (h : byteSize t ≤ i) : unit? t i = none := by
  by_contra hne
  obtain ⟨b, hb⟩ := Option.ne_none_iff_exists'.1 hne
  exact Nat.not_lt_of_le h (lt_of_unit? hb)

theorem exists_unit?_of_isInside (h : isInside t i = true) : ∃ b, unit? t i = some b ∧ 0x80 ≤ b.toNat := by
  obtain ⟨x, hx, hc⟩ := (Option.any_eq_true continues _).1 h
  rw [continues, Bool.and_eq_true, decide_eq_true_iff] at hc
  refine ⟨Char.ofUInt8 x, by rw [unit?, hx]; rfl, ?_⟩
  rw [toNat_ofUInt8]
  exact hc.1

theorem unit?_nil (h : RestAt t i []) : unit? t i = none := by
  have := h.getElem?_bytes 0
  rw [Nat.add_zero, bytes_nil, List.getElem?_nil] at this
  rw [unit?, this]
  rfl

theorem exists_unit? (h : RestAt t i (c :: r)) : ∃ b, unit? t i = some b ∧ Seen b c := by
  obtain ⟨x, xs, he, -, hx⟩ := exists_utf8EncodeChar c
  have := h.getElem?_bytes 0
  rw [Nat.add_zero, bytes_cons, he, List.cons_append, List.getElem?_cons_zero] at this
  refine ⟨Char.ofUInt8 x, by rw [unit?, this]; rfl, ?_⟩
  rw [Seen, toNat_ofUInt8]
  rcases hx with ⟨hc, hx⟩ | ⟨hc, hx⟩
  · exact .inl ⟨hc, Char.toNat_inj.1 ((toNat_ofUInt8 x).trans hx)⟩
  · exact .inr ⟨hc, by omega⟩

theorem unit?_of_lt (h : RestAt t i (c :: r)) (hc : c.toNat < 0x80) : unit? t i = some c := by
  obtain ⟨b, hb, ⟨-, rfl⟩ | ⟨hle, -⟩⟩ := exists_unit? h
  · exact hb
  · omega

theorem any_unit? {p : Char → Bool} (hp : Coarse p) (h : RestAt t i r) : (unit? t i).any p = r.head?.any p := by
  cases r with
  | nil => rw [unit?_nil h, List.head?_nil]
  | cons c r =>
    obtain ⟨b, hb, hseen⟩ := exists_unit? h
    rw [hb, List.head?_cons, Option.any_some, Option.any_some, hseen.apply_eq hp]

theorem unit?_eq_some_iff (h : RestAt t i r) (hz : z.toNat < 0x80) : unit? t i = some z ↔ r.head? = some z := by
  cases r with
  | nil => rw [unit?_nil h, List.head?_nil]
  | cons c r =>
    obtain ⟨b, hb, hseen⟩ := exists_unit? h
    rw [hb, List.head?_cons, Option.some_inj, Option.some_inj, hseen.eq_iff hz]

theorem beq_unit? (h : RestAt t i r) (hz : z.toNat < 0x80) : (unit? t i == some z) = (r.head? == some z) := by
  rw [Bool.eq_iff_iff, beq_iff_eq, beq_iff_eq, unit?_eq_some_iff h hz]

theorem utf8Size_eq_one_iff : c.utf8Size = 1 ↔ c.toNat < 0x80 := by
  rw [Char.utf8Size_eq_one_iff, UInt32.le_iff_toNat_le]
  exact Nat.lt_succ_iff.symm

theorem utf8Size_of_lt (hc : c.toNat < 0x80) : c.utf8Size = 1 := utf8Size_eq_one_iff.2 hc

/-- Behind a character of one byte the next one begins. -/
theorem tail_of_lt (h : RestAt t i (c :: r)) (hc : c.toNat < 0x80) : RestAt t (i + 1) r :=
  utf8Size_of_lt hc ▸ h.tail

theorem beq_unit?_succ (h : RestAt t i (c :: s)) (hz : z.toNat < 0x80) :
    (unit? t (i + 1) == some z) = (decide (c.utf8Size = 1) && s.head? == some z) := by
  by_cases hc : c.utf8Size = 1
  · rw [beq_unit? (tail_of_lt h (utf8Size_eq_one_iff.1 hc)) hz, decide_eq_true hc, Bool.true_and]
  · have := c.utf8Size_pos
    obtain ⟨b, hb, hle⟩ := exists_unit?_of_isInside (isInside_of_lt (k := 1) h (by omega) (by omega))
    rw [hb, decide_eq_false hc, Bool.false_and, beq_eq_false_iff_ne]
    exact fun h => ne_of_le hle hz (Option.some.inj h)

/-- A reader that moves on over bytes that continue a character gets to the next one. -/
theorem pass {f : Nat → β} (hf : ∀ j, isInside t j = true → f j = f (j + 1)) (h : RestAt t i (c :: r)) :
    f (i + 1) = f (i + c.utf8Size) := by
  have hrun : ∀ k, k < c.utf8Size → f (i + 1) = f (i + (k + 1)) := by
    intro k hk
    induction k with
    | zero => rfl
    | succ k ih => exact (ih (by omega)).trans (hf _ (isInside_of_lt h (by omega) hk))
  obtain ⟨k, hk⟩ := Nat.exists_eq_add_one_of_ne_zero (Nat.ne_of_gt c.utf8Size_pos)
  rw [hk]
  exact hrun k (by omega)

/-! ## Classes of bytes -/

theorem isBlank_of_le (hb : 0x80 ≤ b.toNat) : isBlank b = false := by
  by_contra h
  simp only [isBlank, Bool.not_eq_false, Bool.or_eq_true, beq_iff_eq] at h
  rcases h with (((rfl | rfl) | rfl) | rfl) | rfl <;> exact absurd hb (by decide)

theorem isQuote_of_le (hb : 0x80 ≤ b.toNat) : isQuote b = false := by
  by_contra h
  simp only [isQuote, Bool.not_eq_false, Bool.or_eq_true, beq_iff_eq] at h
  rcases h with rfl | rfl <;> exact absurd hb (by decide)

theorem lt_of_isQuote (hb : isQuote b = true) : b.toNat < 0x80 := by
  by_contra h
  rw [isQuote_of_le (Nat.le_of_not_lt h)] at hb
  cases hb

theorem isAlpha_of_le (hb : 0x80 ≤ b.toNat) : b.isAlpha = false := by
  have hv : b.val.toNat = b.toNat := rfl
  simp only [Char.isAlpha, Char.isUpper, Char.isLower, Bool.or_eq_false_iff, Bool.and_eq_false_iff,
    decide_eq_false_iff_not, UInt32.le_iff_toNat_le, ge_iff_le, hv]
  simp
  omega

theorem isAlphanum_of_le (hb : 0x80 ≤ b.toNat) : b.isAlphanum = false := by
  have hv : b.val.toNat = b.toNat := rfl
  rw [Char.isAlphanum, isAlpha_of_le hb, Bool.false_or]
  simp only [Char.isDigit, Bool.and_eq_false_iff, decide_eq_false_iff_not, UInt32.le_iff_toNat_le, ge_iff_le, hv]
  simp
  omega

theorem coarse_isBlank : Coarse isBlank := .of_eq_false fun _ => isBlank_of_le

theorem coarse_isQuote : Coarse isQuote := .of_eq_false fun _ => isQuote_of_le

theorem coarse_isAlpha : Coarse Char.isAlpha := .of_eq_false fun _ => isAlpha_of_le

theorem coarse_bne (hz : z.toNat < 0x80) : Coarse (· != z) := fun _ _ hb hc =>
  (bne_iff_ne.2 (ne_of_le hb hz)).trans (bne_iff_ne.2 (ne_of_le hc hz)).symm

theorem Coarse.and {p q : Char → Bool} (hp : Coarse p) (hq : Coarse q) : Coarse fun b => p b && q b := by
  intro b c hb hc
  dsimp only
  rw [hp b c hb hc, hq b c hb hc]

theorem Coarse.not {p : Char → Bool} (hp : Coarse p) : Coarse fun b => !p b := by
  intro b c hb hc
  dsimp only
  rw [hp b c hb hc]

/-! ## Runs -/

/-- The first offset, from `i` on, of a byte that `p` does not accept. -/
def skipWhile (p : Char → Bool) (t : Text) (i : Nat) : Nat :=
  match _h : unit? t i with
  | none => i
  | some b => if p b then skipWhile p t (i + 1) else i
termination_by byteSize t - i
decreasing_by
  have := lt_of_unit? (by assumption)
  omega

theorem skipWhile_of_unit? {p : Char → Bool} (h : unit? t i = some b) :
    skipWhile p t i = if p b = true then skipWhile p t (i + 1) else i := by
  rw [skipWhile]
  split
  · next h' => simp [h] at h'
  · next h' =>
    rw [h] at h'
    cases h'
    rfl

theorem skipWhile_of_none {p : Char → Bool} (h : unit? t i = none) : skipWhile p t i = i := by
  rw [skipWhile]
  split
  · rfl
  · next h' => simp [h] at h'

/-- A run of bytes ends where the run of characters ends. -/
theorem skipWhile_eq {p : Char → Bool} (hp : Coarse p) (h : RestAt t i r) :
    skipWhile p t i = i + byteSize (r.takeWhile p) := by
  induction r generalizing i with
  | nil => rw [skipWhile_of_none (unit?_nil h), List.takeWhile_nil, byteSize, Nat.add_zero]
  | cons c r ih =>
    obtain ⟨b, hb, hseen⟩ := exists_unit? h
    rw [skipWhile_of_unit? hb, hseen.apply_eq hp]
    split
    · next hc =>
      rw [List.takeWhile_cons_of_pos hc, byteSize, ← Nat.add_assoc, ← ih h.tail]
      rcases hseen with ⟨hlt, rfl⟩ | ⟨hc', -⟩
      · rw [utf8Size_of_lt hlt]
      · refine pass (fun j hj => ?_) h
        obtain ⟨x, hx, hle⟩ := exists_unit?_of_isInside hj
        rw [skipWhile_of_unit? hx, hp x c hle hc', if_pos hc]
    · next hc => rw [List.takeWhile_cons_of_neg hc, byteSize, Nat.add_zero]

theorem skipWhile_rest {p : Char → Bool} (hp : Coarse p) (h : RestAt t i r) :
    RestAt t (skipWhile p t i) (r.dropWhile p) := by
  rw [skipWhile_eq hp h]
  exact RestAt.append (by rwa [List.takeWhile_append_dropWhile])

theorem slice?_skipWhile {p : Char → Bool} (hp : Coarse p) (h : RestAt t i r) :
    slice? t i (skipWhile p t i) = some (r.takeWhile p) := by
  rw [skipWhile_eq hp h]
  exact RestAt.slice? (r := r.dropWhile p) (by rwa [List.takeWhile_append_dropWhile])

/-! ## Marks -/

/-- Whether the bytes of `mark` stand at an offset. -/
def startsAt (mark t : Text) (i : Nat) : Bool := (bytes mark).isPrefixOf (t.bytes.drop i)

/-- The first offset, from `i` on, at which the bytes of `mark` stand. -/
def find? (mark t : Text) (i : Nat) : Option Nat :=
  if startsAt mark t i then some i
  else if i < byteSize t then find? mark t (i + 1)
  else none
termination_by byteSize t - i

/-- The search in the bytes from `i` on, which are themselves a slice. -/
def findFrom? (mark t : Text) (i : Nat) : Option (Option Nat) := if byteSize t < i then none else some (find? mark t i)

/-- Texts begin with the bytes of `mark` if they begin with `mark`. -/
theorem bytes_prefix_iff : bytes mark <+: bytes s ↔ mark <+: s := by
  constructor
  · rintro ⟨more, h⟩
    refine List.isPrefix_of_utf8Encode_append_eq_utf8Encode more.toByteArray ?_
    rw [List.utf8Encode, List.utf8Encode, ← List.toByteArray_append]
    exact congrArg List.toByteArray h
  · rintro ⟨more, rfl⟩
    exact ⟨bytes more, (bytes_append ..).symm⟩

theorem startsAt_eq (h : RestAt t i r) : startsAt mark t i = mark.isPrefixOf r := by
  rw [startsAt, h.drop_bytes, Bool.eq_iff_iff, List.isPrefixOf_iff_prefix, List.isPrefixOf_iff_prefix, bytes_prefix_iff]

theorem startsAt_of_isInside (hm : mark ≠ []) (h : isInside t i = true) : startsAt mark t i = false := by
  obtain ⟨x, hx, hc⟩ := (Option.any_eq_true continues _).1 h
  obtain ⟨c, mark, rfl⟩ := List.exists_cons_of_ne_nil hm
  obtain ⟨y, ys, he, -, hy⟩ := exists_utf8EncodeChar c
  obtain ⟨hlt, hx⟩ := List.getElem?_eq_some_iff.1 hx
  rw [startsAt, List.drop_eq_getElem_cons hlt, hx, bytes_cons, he, List.cons_append, List.isPrefixOf]
  rw [continues, Bool.and_eq_true, decide_eq_true_iff, decide_eq_true_iff] at hc
  have hne : y ≠ x := by
    rintro rfl
    omega
  rw [beq_eq_false_iff_ne.2 hne, Bool.false_and]

theorem find?_of_isInside (hm : mark ≠ []) (h : isInside t i = true) : find? mark t i = find? mark t (i + 1) := by
  obtain ⟨b, hb, -⟩ := exists_unit?_of_isInside h
  rw [find?, startsAt_of_isInside hm h, if_neg Bool.false_ne_true, if_pos (lt_of_unit? hb)]

/-- The bytes of a mark are found where the mark is found. -/
theorem find?_eq (hm : mark ≠ []) (h : RestAt t i r) :
    find? mark t i = (cut? mark r).map fun p => i + byteSize p.1 := by
  induction r generalizing i with
  | nil =>
    obtain ⟨c, mark, rfl⟩ := List.exists_cons_of_ne_nil hm
    have hend := h.byteSize_eq
    rw [byteSize] at hend
    rw [find?, startsAt_eq h, if_neg (show ¬ List.isPrefixOf (c :: mark) [] = true from Bool.false_ne_true),
      if_neg (by omega)]
    rfl
  | cons c r ih =>
    rw [find?, startsAt_eq h, cut?]
    by_cases hp : mark <+: c :: r
    · obtain ⟨rest, hrest⟩ := hp
      rw [if_pos (List.isPrefixOf_iff_prefix.2 ⟨rest, hrest⟩), after?_eq_some_iff.2 hrest.symm]
      rfl
    · have hlt : i < byteSize t := by
        have := h.byteSize_eq
        rw [byteSize] at this
        have := c.utf8Size_pos
        omega
      rw [if_neg (by rwa [List.isPrefixOf_iff_prefix]), if_pos hlt, after?_eq_none_iff.2 hp,
        pass (f := find? mark t) (fun j hj => find?_of_isInside hm hj) h, ih h.tail, Option.map_map]
      refine congrArg (fun f => (cut? mark r).map f) (funext fun p => ?_)
      simp only [Function.comp_apply, byteSize, Nat.add_assoc]

theorem startsAt_of_le (hi : byteSize t ≤ i) (hij : i ≤ j) : startsAt mark t j = startsAt mark t i := by
  rw [← length_bytes] at hi
  rw [startsAt, startsAt, List.drop_eq_nil_of_le hi, List.drop_eq_nil_of_le (hi.trans hij)]

theorem find?_eq_some_iff : find? mark t i = some j ↔
    i ≤ j ∧ startsAt mark t j = true ∧ ∀ k, i ≤ k → k < j → startsAt mark t k = false := by
  constructor
  · intro h
    fun_induction find? mark t i with
    | case1 i hi =>
      obtain rfl := Option.some.inj h
      exact ⟨Nat.le_refl i, hi, fun k hik hki => absurd hik (Nat.not_le_of_lt hki)⟩
    | case2 i hi _ ih =>
      obtain ⟨hij, hj, hfirst⟩ := ih h
      refine ⟨Nat.le_of_succ_le hij, hj, fun k hik hkj => ?_⟩
      rcases Nat.eq_or_lt_of_le hik with rfl | hik
      · exact Bool.eq_false_iff.2 hi
      · exact hfirst k hik hkj
    | case3 => cases h
  · rintro ⟨hij, hj, hfirst⟩
    fun_induction find? mark t i with
    | case1 i hi =>
      rcases Nat.eq_or_lt_of_le hij with rfl | hlt
      · rfl
      · rw [hfirst i (Nat.le_refl i) hlt] at hi
        cases hi
    | case2 i hi _ ih =>
      have hne : i ≠ j := by
        rintro rfl
        exact hi hj
      exact ih (by omega) fun k hik => hfirst k (Nat.le_of_succ_le hik)
    | case3 i hi hend =>
      rw [startsAt_of_le (Nat.le_of_not_lt hend) hij] at hj
      exact absurd hj hi

theorem find?_eq_none_iff : find? mark t i = none ↔ ∀ j, i ≤ j → startsAt mark t j = false := by
  constructor
  · intro h
    fun_induction find? mark t i with
    | case1 => cases h
    | case2 i hi _ ih =>
      intro j hij
      rcases Nat.eq_or_lt_of_le hij with rfl | hij
      · exact Bool.eq_false_iff.2 hi
      · exact ih h j hij
    | case3 i hi hend =>
      intro j hij
      rw [startsAt_of_le (Nat.le_of_not_lt hend) hij]
      exact Bool.eq_false_iff.2 hi
  · intro h
    cases hf : find? mark t i with
    | none => rfl
    | some j =>
      obtain ⟨hij, hj, -⟩ := find?_eq_some_iff.1 hf
      rw [h j hij] at hj
      cases hj

theorem le_of_find? (h : find? mark t i = some j) (hm : mark ≠ []) :
    i ≤ j ∧ j + byteSize mark ≤ byteSize t := by
  obtain ⟨hle, hstarts, -⟩ := find?_eq_some_iff.1 h
  have := (List.isPrefixOf_iff_prefix.1 hstarts).length_le
  rw [List.length_drop, length_bytes, length_bytes] at this
  have hpos : byteSize mark ≠ 0 := fun h => hm (byteSize_eq_zero_iff.1 h)
  exact ⟨hle, by omega⟩

theorem findFrom?_eq (hm : mark ≠ []) (h : RestAt t i r) :
    findFrom? mark t i = some ((cut? mark r).map fun p => i + byteSize p.1) := by
  have := h.byteSize_eq
  rw [findFrom?, if_neg (by omega), find?_eq hm h]

theorem findFrom?_of_isInside (hm : mark ≠ []) (h : isInside t i = true) :
    findFrom? mark t i = findFrom? mark t (i + 1) := by
  obtain ⟨b, hb, -⟩ := exists_unit?_of_isInside h
  have := lt_of_unit? hb
  rw [findFrom?, findFrom?, if_neg (by omega), if_neg (by omega), find?_of_isInside hm h]

theorem restAt_of_cut? {before rest : Text} (h : RestAt t i r) (hc : cut? mark r = some (before, rest)) :
    RestAt t (i + byteSize before) (mark ++ rest) := by
  rw [eq_append_of_cut? hc, List.append_assoc] at h
  exact h.append

theorem slice?_of_cut? {before rest : Text} (h : RestAt t i r) (hc : cut? mark r = some (before, rest)) :
    slice? t i (i + byteSize before) = some before := by
  rw [eq_append_of_cut? hc, List.append_assoc] at h
  exact h.slice?

/-- The text up to a mark, or the whole text. -/
theorem getD_cut? (z : Char) (r : Text) :
    ((cut? [z] r).map fun p => byteSize p.1).getD (byteSize r) = byteSize (r.takeWhile (· != z)) := by
  induction r with
  | nil => rfl
  | cons c r ih =>
    rw [cut?, after?]
    by_cases hc : z = c
    · subst hc
      rw [if_pos rfl, after?, List.takeWhile_cons_of_neg (by simp)]
      rfl
    · have hne : (c != z) = true := bne_iff_ne.2 (Ne.symm hc)
      rw [if_neg hc, List.takeWhile_cons_of_pos (p := (· != z)) hne, byteSize, byteSize, ← ih]
      cases cut? [z] r with
      | none => rfl
      | some p => rfl

/-- The offset of a mark, or else of the end, is where the run of other characters ends. -/
theorem getD_findFrom? (h : RestAt t i r) :
    (findFrom? [z] t i).map (·.getD (byteSize t)) = some (i + byteSize (r.takeWhile (· != z))) := by
  rw [findFrom?_eq (List.cons_ne_nil _ _) h, ← getD_cut?, Option.map_some, h.byteSize_eq]
  cases cut? [z] r <;> rfl

/-! ## Loops -/

/-- Puts together what the rounds of a loop put out. A round says from which offset the next one starts, if the loop goes
on. There is no result if a round has none, or if it is not followed by another one nearer to the end. -/
def loop? (t : Text) (round : Nat → Option (List β × Option Nat)) (i : Nat) : Option (List β) :=
  match round i with
  | none => none
  | some (out, none) => some out
  | some (out, some j) => if _h : i < j ∧ i < byteSize t then (loop? t round j).map (out ++ ·) else none
termination_by byteSize t - i

/-- One round of a loop that comes to `read r` at the rest `r`. -/
inductive Round (t : Text) (read : Text → List β) (r : Text) : Option (List β × Option Nat) → Prop
  | stop {out : List β} : read r = out → Round t read r (some (out, none))
  | next {out : List β} {j : Nat} {rest : Text} : RestAt t j rest → rest.length < r.length →
      read r = out ++ read rest → Round t read r (some (out, some j))

theorem loop?_eq {round : Nat → Option (List β × Option Nat)} {read : Text → List β}
    (hround : ∀ i r, RestAt t i r → Round t read r (round i)) (h : RestAt t i r) : loop? t round i = some (read r) := by
  induction hl : r.length using Nat.strong_induction_on generalizing i r with
  | _ n ih =>
    have hi := hround i r h
    rw [loop?]
    generalize round i = p at hi
    cases hi with
    | stop heq => rw [← heq]
    | @next out j rest hj hlt heq =>
      have hij := h.lt_of_length_lt hj hlt
      have hi' : i < byteSize t := by
        have := hj.byteSize_eq
        omega
      dsimp only
      rw [dif_pos ⟨hij, hi'⟩, ih _ (hl ▸ hlt) hj rfl, heq]
      rfl

end MailTemplate.Bytes
