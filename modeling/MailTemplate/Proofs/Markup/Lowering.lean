import Mathlib
import MailTemplate.Markup.Parser
import MailTemplate.Proofs.Markup.Names
import MailTemplate.Text.WhiteSpace
/-!
# Scanning in lower case

No scanner of tags looks at the case of letters: each finds in a text in lower case what it finds in the text, in lower
case. A mark made of other characters than letters stands at the same places, and so do the ends of names, values, tags
and raw text (`end?_lower`, `readValue_lower`, `rawText?_lower`). The places that faults are reported at are the same too
(`Position.after_lower`).
-/
namespace MailTemplate

/-! ## Characters -/

/-- Lowering letters makes no other character. -/
theorem toLower_eq_iff {x : Char} (hx : x.isAlpha = false) (c : Char) : c.toLower = x ↔ c = x := by
  constructor
  · rintro rfl
    rw [Char.isAlpha_toLower_eq_isAlpha, Char.isAlpha, Bool.or_eq_false_iff] at hx
    exact (Char.toLower_eq_of_not_isUpper (by simp [hx.1])).symm
  · rintro rfl
    rw [Char.isAlpha, Bool.or_eq_false_iff] at hx
    exact Char.toLower_eq_of_not_isUpper (by simp [hx.1])

theorem beq_toLower {x : Char} (hx : x.isAlpha = false) (c : Char) : (c.toLower == x) = (c == x) := by
  rw [Bool.eq_iff_iff, beq_iff_eq, beq_iff_eq, toLower_eq_iff hx]

theorem bne_toLower {x : Char} (hx : x.isAlpha = false) (c : Char) : (c.toLower != x) = (c != x) := by
  rw [bne, bne, beq_toLower hx]

theorem utf8Size_toLower (c : Char) : c.toLower.utf8Size = c.utf8Size := by
  by_cases h : c.isUpper = true
  · -- letters in upper and in lower case are both one byte long
    obtain ⟨hlo, hhi⟩ : 65 ≤ c.toNat ∧ c.toNat ≤ 90 := by
      simpa [Char.isUpper, UInt32.le_iff_toNat_le] using h
    have hlow : c.toLower.toNat = c.toNat + 32 := by
      rw [Char.toLower_eq_of_isUpper h, Char.toNat_ofNat, if_pos]
      exact .inl (by omega)
    rw [Char.utf8Size_eq_one_iff.2 (UInt32.le_iff_toNat_le.2 ?_), Char.utf8Size_eq_one_iff.2 (UInt32.le_iff_toNat_le.2 ?_)]
    · change c.toNat ≤ 127
      omega
    · change c.toLower.toNat ≤ 127
      omega
  · rw [Char.toLower_eq_of_not_isUpper (by simpa using h)]

namespace Text

@[simp]
theorem isBlank_toLower (c : Char) : isBlank c.toLower = isBlank c := by
  simp (disch := decide) only [isBlank, beq_toLower]

@[simp]
theorem isQuote_toLower (c : Char) : isQuote c.toLower = isQuote c := by
  simp (disch := decide) only [isQuote, beq_toLower]

theorem isAlpha_of_isQuote {c : Char} (h : isQuote c = true) : c.isAlpha = false := by
  simp only [isQuote, Bool.or_eq_true, beq_iff_eq] at h
  rcases h with rfl | rfl <;> decide

theorem isAlpha_of_isWhiteSpace {c : Char} (h : isWhiteSpace c = true) : c.isAlpha = false := by
  rw [Bool.eq_false_iff]
  intro ha
  simp only [isWhiteSpace, Bool.or_eq_true, Bool.and_eq_true, decide_eq_true_eq, beq_iff_eq] at h
  simp only [Char.isAlpha, Char.isUpper, Char.isLower, Bool.or_eq_true, Bool.and_eq_true, decide_eq_true_eq,
    UInt32.le_iff_toNat_le] at ha
  change (65 ≤ c.toNat ∧ c.toNat ≤ 90) ∨ (97 ≤ c.toNat ∧ c.toNat ≤ 122) at ha
  omega

theorem isWhiteSpace_toLower (c : Char) : isWhiteSpace c.toLower = isWhiteSpace c := by
  have h := Tag.toLower_congr (p := fun c => !isWhiteSpace c) (fun c hc => ?_) c
  · simpa using h
  · rw [Bool.not_eq_true', Bool.eq_false_iff]
    intro hw
    rw [isAlpha_of_isWhiteSpace hw] at hc
    cases hc

/-! ## Texts -/

@[simp]
theorem lower_nil : lower [] = [] := rfl

@[simp]
theorem lower_cons (c : Char) (s : Text) : lower (c :: s) = c.toLower :: lower s := rfl

theorem lower_append (s t : Text) : lower (s ++ t) = lower s ++ lower t := List.map_append

theorem drop_lower (n : Nat) (s : Text) : (lower s).drop n = lower (s.drop n) := List.map_drop.symm

theorem take_lower (n : Nat) (s : Text) : (lower s).take n = lower (s.take n) := List.map_take.symm

theorem reverse_lower (s : Text) : (lower s).reverse = lower s.reverse := List.map_reverse.symm

theorem takeWhile_lower {p : Char → Bool} (hp : ∀ c : Char, p c.toLower = p c) (s : Text) :
    (lower s).takeWhile p = lower (s.takeWhile p) := by
  rw [lower, List.takeWhile_map, show p ∘ Char.toLower = p from funext hp, lower]

theorem dropWhile_lower {p : Char → Bool} (hp : ∀ c : Char, p c.toLower = p c) (s : Text) :
    (lower s).dropWhile p = lower (s.dropWhile p) := by
  rw [lower, List.dropWhile_map, show p ∘ Char.toLower = p from funext hp, lower]

theorem trim_lower (t : Text) : trim (lower t) = lower (trim t) := by
  rw [trim, strip, dropEnd, dropWhile_lower isWhiteSpace_toLower, reverse_lower, dropWhile_lower isWhiteSpace_toLower,
    reverse_lower]
  rfl

theorem lower_takeWhile_congr {p : Char → Bool} (hp : ∀ c : Char, p c.toLower = p c) {s s' : Text}
    (h : lower s = lower s') : lower (s.takeWhile p) = lower (s'.takeWhile p) := by
  rw [← takeWhile_lower hp, h, takeWhile_lower hp]

theorem lower_dropWhile_congr {p : Char → Bool} (hp : ∀ c : Char, p c.toLower = p c) {s s' : Text}
    (h : lower s = lower s') : lower (s.dropWhile p) = lower (s'.dropWhile p) := by
  rw [← dropWhile_lower hp, h, dropWhile_lower hp]

theorem length_eq_of_lower {s s' : Text} (h : lower s = lower s') : s.length = s'.length :=
  length_eq_of_sameLetters (sameLetters_iff.2 h)

theorem head?_lower_eq_some_iff {x : Char} (hx : x.isAlpha = false) (s : Text) :
    (lower s).head? = some x ↔ s.head? = some x := by
  cases s <;> simp [toLower_eq_iff hx]

theorem after?_lower {mark : Text} (hm : ∀ x ∈ mark, x.isAlpha = false) (s : Text) :
    after? mark (lower s) = (after? mark s).map lower := by
  induction mark generalizing s with
  | nil => rfl
  | cons m mark ih =>
    cases s with
    | nil => rfl
    | cons c s =>
      have hc : m = c.toLower ↔ m = c := by
        rw [eq_comm, toLower_eq_iff (hm m (by simp)), eq_comm]
      rw [lower_cons, after?, after?, ih (fun x hx => hm x (by simp [hx]))]
      simp only [hc]
      split <;> rfl

theorem cut?_lower {mark : Text} (hm : ∀ x ∈ mark, x.isAlpha = false) (s : Text) :
    cut? mark (lower s) = (cut? mark s).map (Prod.map lower lower) := by
  fun_induction cut? mark s with
  | case1 s rest h =>
    rw [cut?.eq_def, after?_lower hm, h]
    rfl
  | case2 h =>
    rw [cut?.eq_def, after?_lower hm, h]
    rfl
  | case3 c s h ih =>
    rw [cut?.eq_def, after?_lower hm, h]
    simp only [Option.map_none, lower_cons, ih, Option.map_map]
    rfl

/-- Two cuts that are the same in lower case. -/
theorem cases_of_map_lower_eq {o o' : Option (Text × Text)}
    (h : o.map (Prod.map lower lower) = o'.map (Prod.map lower lower)) : (o = none ∧ o' = none) ∨
    ∃ a b a' b', o = some (a, b) ∧ o' = some (a', b') ∧ lower a = lower a' ∧ lower b = lower b' := by
  cases o with
  | none =>
    rw [Option.map_none, eq_comm, Option.map_eq_none_iff] at h
    exact .inl ⟨rfl, h⟩
  | some r =>
    rw [Option.map_some, eq_comm, Option.map_eq_some_iff] at h
    obtain ⟨r', rfl, he⟩ := h
    obtain ⟨ha, hb⟩ := Prod.ext_iff.1 he
    exact .inr ⟨r.1, r.2, r'.1, r'.2, rfl, rfl, ha.symm, hb.symm⟩

end Text

namespace Tag

open Text

/-! ## Tags -/

/-- The quote that is open after a character does not depend on the case of the character. -/
theorem quoteAfter_toLower {quote : Option Char} (hq : ∀ q ∈ quote, isQuote q = true) (c : Char) :
    quoteAfter quote c.toLower = quoteAfter quote c := by
  cases quote with
  | none =>
    by_cases hc : isQuote c = true
    · simp [quoteAfter, (toLower_eq_iff (isAlpha_of_isQuote hc) c).2 rfl]
    · simp [quoteAfter, hc]
  | some q => simp [quoteAfter, toLower_eq_iff (isAlpha_of_isQuote (hq q rfl))]

theorem isQuote_of_mem_quoteAfter {quote : Option Char} (hq : ∀ q ∈ quote, isQuote q = true) (c : Char) :
    ∀ q ∈ quoteAfter quote c, isQuote q = true := by
  cases quote <;> simp only [quoteAfter] <;> grind

theorem endFrom?_lower {quote : Option Char} (hq : ∀ q ∈ quote, isQuote q = true) (s : Text) :
    endFrom? quote (lower s) = (endFrom? quote s).map (Prod.map lower lower) := by
  induction s generalizing quote with
  | nil => rfl
  | cons c s ih =>
    rw [lower_cons, endFrom?, endFrom?, quoteAfter_toLower hq, ih (isQuote_of_mem_quoteAfter hq c)]
    simp only [toLower_eq_iff (show '>'.isAlpha = false by decide)]
    split
    · rfl
    · simp only [Option.map_map]
      rfl

theorem end?_lower (s : Text) : end? (lower s) = (end? s).map (Prod.map lower lower) := endFrom?_lower (by simp) s

/-- In texts that differ in the case of letters, tags end at the same places. -/
theorem end?_congr {s s' : Text} (h : lower s = lower s') : (end? s = none ∧ end? s' = none) ∨
    ∃ inside rest inside' rest', end? s = some (inside, rest) ∧ end? s' = some (inside', rest') ∧
      lower inside = lower inside' ∧ lower rest = lower rest' :=
  cases_of_map_lower_eq (by rw [← end?_lower, h, end?_lower])

@[simp]
theorem opens_lower (s : Text) : opens (lower s) = opens s := by
  fun_cases opens s with
  | case1 c s =>
    rw [lower_cons, lower_cons, (toLower_eq_iff (by decide) _).2 rfl, opens, Char.isAlpha_toLower_eq_isAlpha]
  | case2 c s h =>
    rw [lower_cons, opens.eq_2, Char.isAlpha_toLower_eq_isAlpha]
    intro c' s' hc hs
    rw [toLower_eq_iff (by decide)] at hc
    obtain ⟨c'', s'', rfl⟩ : ∃ c'' s'', s = c'' :: s'' := by
      cases s with
      | nil => cases hs
      | cons c'' s'' => exact ⟨c'', s'', rfl⟩
    exact h c'' s'' hc rfl
  | case3 => rfl

@[simp]
theorem name_lower (inside : Text) : name (lower inside) = lower (name inside) :=
  takeWhile_lower isNameChar_toLower inside

@[simp]
theorem closesItself_lower (inside : Text) : closesItself (lower inside) = closesItself inside := by
  rw [closesItself, closesItself, dropEnd, dropEnd, List.getLast?_reverse, List.getLast?_reverse, reverse_lower,
    dropWhile_lower isBlank_toLower, Bool.eq_iff_iff, beq_iff_eq, beq_iff_eq, head?_lower_eq_some_iff (by decide)]

/-! ## Attributes -/

theorem readValue_lower (s : Text) : readValue (lower s) = Prod.map lower lower (readValue s) := by
  rw [readValue, readValue, dropWhile_lower isBlank_toLower]
  cases s.dropWhile isBlank with
  | nil => rfl
  | cons c s =>
    have hstop : ∀ c : Char, (!isBlank c.toLower && c.toLower != '>') = (!isBlank c && c != '>') := fun c => by
      rw [isBlank_toLower, bne_toLower (by decide)]
    simp only [lower_cons, toLower_eq_iff (show '>'.isAlpha = false by decide), isQuote_toLower]
    split
    · rfl
    · split
      · next hq =>
        have hq' := isAlpha_of_isQuote hq
        rw [(toLower_eq_iff hq' c).2 rfl, takeWhile_lower (bne_toLower hq'), dropWhile_lower (bne_toLower hq'),
          drop_lower]
        rfl
      · rw [← lower_cons, takeWhile_lower hstop, dropWhile_lower hstop]
        rfl

end Tag

namespace Token

open Text

/-! ## Raw text -/

theorem atEndTag_lower (name s : Text) : atEndTag (lower name) (lower s) = atEndTag name s := by
  rw [atEndTag, atEndTag, after?_lower (by simp)]
  cases after? "</".toList s with
  | none => rfl
  | some rest =>
    simp only [Option.map_some, length_lower, take_lower, drop_lower, sameLetters, lower_lower]
    cases rest.drop name.length with
    | nil => rfl
    | cons c more => simp only [lower_cons, Tag.isNameChar_toLower]

theorem rawText?_lower (name s : Text) :
    rawText? (lower name) (lower s) = (rawText? name s).map (Prod.map lower lower) := by
  induction s with
  | nil => rfl
  | cons c s ih =>
    rw [lower_cons, rawText?, rawText?, ← lower_cons, atEndTag_lower, ih, length_lower, drop_lower, cut?_lower (by simp)]
    split
    · simp only [Option.map_map]
      rfl
    · simp only [Option.map_map]
      rfl

/-- In texts that differ in the case of letters, raw text ends at the same places. -/
theorem rawText?_congr {name name' s s' : Text} (hn : lower name = lower name') (hs : lower s = lower s') :
    (rawText? name s = none ∧ rawText? name' s' = none) ∨
      ∃ content rest content' rest', rawText? name s = some (content, rest) ∧
        rawText? name' s' = some (content', rest') ∧ lower content = lower content' ∧ lower rest = lower rest' :=
  cases_of_map_lower_eq (by rw [← rawText?_lower, hn, hs, rawText?_lower])

end Token

/-! ## Places -/

theorem byteSize_lower (t : Text) : Text.byteSize (Text.lower t) = Text.byteSize t := by
  induction t with
  | nil => rfl
  | cons c t ih => rw [Text.lower_cons, Text.byteSize, Text.byteSize, utf8Size_toLower, ih]

theorem Position.after_lower (t : Text) : Position.after (Text.lower t) = Position.after t := by
  have hcount : (Text.lower t).count '\n' = t.count '\n' := by
    rw [List.count_eq_countP, Text.lower, List.countP_map, List.count_eq_countP]
    exact List.countP_congr fun c _ => by rw [Function.comp, beq_toLower (by decide)]
  rw [Position.after, Position.after, hcount, Text.reverse_lower, Text.takeWhile_lower (bne_toLower (by decide)),
    byteSize_lower]

end MailTemplate
