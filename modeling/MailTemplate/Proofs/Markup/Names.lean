import Mathlib
import MailTemplate.Markup.Tag
/-!
# Names

Two names are the same in a dialect when it keeps them alike (`sameName_iff`), so that being the same is an equivalence,
and what is decided by a name (whether it may nest, holds nothing or holds raw text) is decided by the name as kept.
-/
namespace MailTemplate

/-! ## Lower case -/

namespace Text

@[simp]
theorem lower_lower (t : Text) : lower (lower t) = lower t := by simp [lower]

@[simp]
theorem length_lower (t : Text) : (lower t).length = t.length := List.length_map _

theorem sameLetters_iff {s t : Text} : sameLetters s t = true ↔ lower s = lower t := by simp [sameLetters]

theorem length_eq_of_sameLetters {s t : Text} (h : sameLetters s t = true) : s.length = t.length := by
  rw [← length_lower s, sameLetters_iff.1 h, length_lower]

theorem sameLetters_lower (s t : Text) : sameLetters s (lower t) = sameLetters s t := by simp [sameLetters]

/-- Lowering letters brings in letters only. -/
theorem mem_of_mem_lower {c : Char} {t : Text} (h : c ∈ lower t) (hc : c.isAlpha = false) : c ∈ t := by
  obtain ⟨x, hx, rfl⟩ := List.mem_map.1 h
  rw [Char.isAlpha_toLower_eq_isAlpha, Char.isAlpha, Bool.or_eq_false_iff] at hc
  rwa [Char.toLower_eq_of_not_isUpper (by simp [hc.1])]

theorem mem_lower_of_mem {c : Char} {t : Text} (h : c ∈ t) (hc : c.isAlpha = false) : c ∈ lower t := by
  rw [Char.isAlpha, Bool.or_eq_false_iff] at hc
  exact List.mem_map.2 ⟨c, h, Char.toLower_eq_of_not_isUpper (by simp [hc.1])⟩

theorem mem_of_sameLetters {s t : Text} (h : sameLetters s t = true) {c : Char} (hs : c ∈ s) (hc : c.isAlpha = false) :
    c ∈ t := by
  have hl := mem_lower_of_mem hs hc
  rw [sameLetters_iff.1 h] at hl
  exact mem_of_mem_lower hl hc

end Text

namespace Tag

theorem isNameChar_of_isAlpha {c : Char} (h : c.isAlpha = true) : isNameChar c = true := by
  simp [isNameChar, Char.isAlphanum, h]

theorem isAttributeNameChar_of_isAlpha {c : Char} (h : c.isAlpha = true) : isAttributeNameChar c = true := by
  rw [isAttributeNameChar, Bool.not_eq_true', Bool.eq_false_iff]
  simp only [Text.isBlank, ne_eq, Bool.or_eq_true, beq_iff_eq]
  rintro hc
  rcases hc with ((((((((((rfl | rfl) | rfl) | rfl) | rfl) | rfl) | rfl) | rfl) | rfl) | rfl) | rfl) <;>
    exact absurd h (by decide)

/-- What holds of every letter does not depend on the case of letters. -/
theorem toLower_congr {p : Char → Bool} (hp : ∀ c, c.isAlpha = true → p c = true) (c : Char) : p c.toLower = p c := by
  by_cases h : c.isAlpha = true
  · rw [hp c h, hp c.toLower (by rw [Char.isAlpha_toLower_eq_isAlpha, h])]
  · rw [Char.toLower_eq_of_not_isUpper]
    simp only [Char.isAlpha, Bool.or_eq_true, not_or] at h
    exact h.1

theorem isNameChar_toLower (c : Char) : isNameChar c.toLower = isNameChar c :=
  toLower_congr (fun _ => isNameChar_of_isAlpha) c

theorem isAttributeNameChar_toLower (c : Char) : isAttributeNameChar c.toLower = isAttributeNameChar c :=
  toLower_congr (fun _ => isAttributeNameChar_of_isAlpha) c

end Tag

/-! ## Names in a dialect -/

namespace Dialect

variable {d : Dialect} {a b c : Text}

theorem keep_of_ignoresCase (h : d.caseSensitive = false) (a : Text) : d.keep a = Text.lower a := by simp [keep, h]

@[simp]
theorem keep_keep (d : Dialect) (a : Text) : d.keep (d.keep a) = d.keep a := by
  unfold keep
  split
  · rfl
  · exact Text.lower_lower a

theorem sameName_iff : d.sameName a b = true ↔ d.keep a = d.keep b := by
  unfold sameName keep
  split <;> simp [Text.sameLetters_iff]

@[simp]
theorem sameName_self (d : Dialect) (a : Text) : d.sameName a a = true := sameName_iff.2 rfl

/-- Names that differ in more than the case of their letters are not the same in any dialect. -/
theorem sameName_of_not_sameLetters (d : Dialect) (h : Text.sameLetters a b = false) : d.sameName a b = false := by
  unfold sameName
  split
  · rw [beq_eq_false_iff_ne]
    rintro rfl
    rw [Text.sameLetters_iff.2 rfl] at h
    cases h
  · exact h

theorem sameName_congr_right (h : d.sameName a b = true) (c : Text) : d.sameName c a = d.sameName c b := by
  rw [Bool.eq_iff_iff, sameName_iff, sameName_iff, sameName_iff.1 h]

theorem sameName_keep_self (d : Dialect) (a : Text) : d.sameName (d.keep a) a = true := sameName_iff.2 (keep_keep d a)

@[simp]
theorem sameName_keep (d : Dialect) (a b : Text) : d.sameName a (d.keep b) = d.sameName a b :=
  sameName_congr_right (sameName_keep_self d b) a

theorem isNestable_congr (h : d.sameName a b = true) : d.isNestable a = d.isNestable b := by
  unfold isNestable
  simp only [sameName_congr_right h]

@[simp]
theorem isNestable_keep (d : Dialect) (a : Text) : d.isNestable (d.keep a) = d.isNestable a :=
  isNestable_congr (sameName_keep_self d a)

end Dialect

theorem isAmong_lower (names : List Text) (name : Text) : isAmong names (Text.lower name) = isAmong names name := by
  simp only [isAmong, Text.sameLetters_lower]

theorem isAmong_keep (d : Dialect) (names : List Text) (name : Text) :
    isAmong names (d.keep name) = isAmong names name := by
  unfold Dialect.keep
  split
  · rfl
  · exact isAmong_lower names name

@[simp]
theorem holdsRawText_keep (d : Dialect) (name : Text) : holdsRawText (d.keep name) = holdsRawText name :=
  isAmong_keep d _ name

/-- Whether an element holds raw text or nothing is decided by what a dialect takes its name for. -/
theorem holdsRawText_congr {d : Dialect} {a b : Text} (h : d.sameName a b = true) : holdsRawText a = holdsRawText b := by
  rw [← holdsRawText_keep d a, Dialect.sameName_iff.1 h, holdsRawText_keep]

theorem Dialect.isVoid_congr {d : Dialect} {a b : Text} (h : d.sameName a b = true) : d.isVoid a = d.isVoid b := by
  unfold Dialect.isVoid Dialect.isSelfClosing
  rw [← isAmong_keep d _ a, Dialect.sameName_iff.1 h, isAmong_keep]
  simp only [Dialect.sameName_congr_right h]

/-! ## Names of elements and attributes -/

/-- Names that a tag can begin with: a letter, then characters of names. -/
def IsElementName (name : Text) : Prop :=
  ∃ c more, name = c :: more ∧ c.isAlpha = true ∧ ∀ x ∈ more, Tag.isNameChar x = true

/-- Names that an attribute can have. -/
def IsAttributeName (name : Text) : Prop := name ≠ [] ∧ ∀ c ∈ name, Tag.isAttributeNameChar c = true

theorem IsElementName.isNameChar {name : Text} (h : IsElementName name) : ∀ c ∈ name, Tag.isNameChar c = true := by
  obtain ⟨c, more, rfl, hc, hmore⟩ := h
  rintro x (_ | ⟨_, hx⟩)
  · exact Tag.isNameChar_of_isAlpha hc
  · exact hmore x hx

theorem IsElementName.ne_nil {name : Text} (h : IsElementName name) : name ≠ [] := by
  obtain ⟨c, more, rfl, -⟩ := h
  exact List.cons_ne_nil c more

/-- Whether a name is one of an element does not depend on the case of its letters. -/
theorem IsElementName.of_lower {a b : Text} (h : IsElementName a) (hl : Text.lower a = Text.lower b) :
    IsElementName b := by
  obtain ⟨c, more, rfl, hc, hmore⟩ := h
  cases b with
  | nil => cases hl
  | cons x b =>
    obtain ⟨hx, hb⟩ := List.cons.inj hl
    refine ⟨x, b, rfl, by rw [← Char.isAlpha_toLower_eq_isAlpha, ← hx, Char.isAlpha_toLower_eq_isAlpha, hc], ?_⟩
    intro y hy
    have hlow : y.toLower ∈ more.map Char.toLower := by
      rw [hb]
      exact List.mem_map_of_mem hy
    obtain ⟨z, hz, hzy⟩ := List.mem_map.1 hlow
    rw [← Tag.isNameChar_toLower, ← hzy, Tag.isNameChar_toLower, hmore z hz]

theorem IsElementName.keep {name : Text} (h : IsElementName name) (d : Dialect) : IsElementName (d.keep name) := by
  unfold Dialect.keep
  split
  · exact h
  · exact h.of_lower (Text.lower_lower name).symm

theorem IsElementName.congr {d : Dialect} {a b : Text} (h : IsElementName a) (hs : d.sameName a b = true) :
    IsElementName b := by
  unfold Dialect.sameName at hs
  split at hs
  · rwa [← eq_of_beq hs]
  · exact h.of_lower (Text.sameLetters_iff.1 hs)

theorem IsAttributeName.keep {name : Text} (h : IsAttributeName name) (d : Dialect) : IsAttributeName (d.keep name) := by
  unfold Dialect.keep
  split
  · exact h
  · refine ⟨by simpa [Text.lower] using h.1, fun x hx => ?_⟩
    obtain ⟨y, hy, rfl⟩ := List.mem_map.1 hx
    rw [Tag.isAttributeNameChar_toLower, h.2 y hy]

end MailTemplate
