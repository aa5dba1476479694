import MailTemplate.Proofs.Correcting.Spaces
import MailTemplate.Proofs.Markup.Lowering
/-!
# Corrections that last

A pattern that begins with a character which comes only once in it, and once in what is put in its place, is gone after
its correction (`BeginsOnce.not_infix_apply`). Corrections that only raise letters bring no pattern in lower case back
(`Raised.isInfix`). So a corrected Jelly template has nothing left to correct, and but for the case of letters it is the
template with its spaces escaped twice (`applyAll_jelly`).
-/
namespace MailTemplate

namespace Correction

variable {c : Correction} {q s t u : Text} {cs : List Correction}

/-- Texts are told apart by what a correction does to them: the end, its pattern, and another character. -/
theorem apply_induct (hp : c.pattern ≠ []) {motive : Text → Prop} (nil : motive [])
    (pattern : ∀ s, motive s → motive (c.pattern ++ s))
    (cons : ∀ x s, ¬ c.pattern <+: x :: s → motive s → motive (x :: s)) (s : Text) : motive s := by
  induction hl : s.length using Nat.strong_induction_on generalizing s with
  | _ n ih =>
    by_cases h : c.pattern <+: s
    · obtain ⟨s, rfl⟩ := h
      have hpos := List.length_pos_iff.2 hp
      rw [List.length_append] at hl
      exact pattern s (ih s.length (by omega) s rfl)
    · cases s with
      | nil => exact nil
      | cons x s => exact cons x s h (ih s.length (by rw [← hl]; exact Nat.lt_succ_self _) s rfl)

/-! ## Patterns that are gone -/

/-- The character that a pattern begins with. -/
def first (c : Correction) : Char := c.pattern.headD ' '

/-- Pattern and replacement begin with one character, which neither of them has a second time; and the replacement does
not begin with the pattern. -/
structure BeginsOnce (c : Correction) : Prop where
  pattern_eq : c.pattern = c.first :: c.pattern.tail
  replacement_eq : c.replacement = c.first :: c.replacement.tail
  not_mem_pattern : c.first ∉ c.pattern.tail
  not_mem_replacement : c.first ∉ c.replacement.tail
  length_le : c.pattern.length ≤ c.replacement.length
  not_prefix : ¬ c.pattern <+: c.replacement

theorem beginsOnce_of_mem_jelly (h : c ∈ jelly) : BeginsOnce c where
  pattern_eq := (show ∀ c ∈ jelly, c.pattern = c.first :: c.pattern.tail by decide) c h
  replacement_eq := (show ∀ c ∈ jelly, c.replacement = c.first :: c.replacement.tail by decide) c h
  not_mem_pattern := (show ∀ c ∈ jelly, c.first ∉ c.pattern.tail by decide) c h
  not_mem_replacement := (show ∀ c ∈ jelly, c.first ∉ c.replacement.tail by decide) c h
  length_le := (show ∀ c ∈ jelly, c.pattern.length ≤ c.replacement.length by decide) c h
  not_prefix := (show ∀ c ∈ jelly, ¬ c.pattern <+: c.replacement by decide) c h

namespace BeginsOnce

theorem pattern_ne_nil (h : BeginsOnce c) : c.pattern ≠ [] := by
  rw [h.pattern_eq]
  exact List.cons_ne_nil _ _

/-- What does not have that character comes to the front of no corrected text. -/
theorem prefix_of_prefix_apply (h : BeginsOnce c) (hu : c.first ∉ u) (hs : u <+: c.apply s) : u <+: s := by
  induction u generalizing s with
  | nil => exact List.nil_prefix
  | cons y u ih =>
    rw [List.mem_cons, not_or] at hu
    by_cases hp : c.pattern <+: s
    · obtain ⟨s, rfl⟩ := hp
      rw [apply_pattern_append h.pattern_ne_nil, h.replacement_eq, List.cons_append] at hs
      exact absurd (List.cons_prefix_cons.1 hs).1.symm hu.1
    · cases s with
      | nil => rwa [apply_nil] at hs
      | cons x s =>
        rw [apply_cons hp] at hs
        obtain ⟨rfl, hmore⟩ := List.cons_prefix_cons.1 hs
        exact List.cons_prefix_cons.2 ⟨rfl, ih hu.2 hmore⟩

/-- A correction leaves nothing of its pattern. -/
theorem not_infix_apply (h : BeginsOnce c) (s : Text) : ¬ c.pattern <:+: c.apply s := by
  induction s using apply_induct h.pattern_ne_nil with
  | nil =>
    rw [apply_nil]
    exact fun hi => h.pattern_ne_nil (List.infix_nil.1 hi)
  | pattern s ih =>
    rw [apply_pattern_append h.pattern_ne_nil]
    intro hi
    rw [h.replacement_eq, List.cons_append, List.infix_cons_iff] at hi
    rcases hi with hi | hi
    · rw [← List.cons_append, ← h.replacement_eq] at hi
      exact h.not_prefix (List.prefix_of_prefix_length_le hi (List.prefix_append _ _) h.length_le)
    · -- what does not begin in the replacement begins after it
      rw [h.pattern_eq] at hi ih
      exact ih (infix_of_infix_append h.not_mem_replacement hi)
  | cons x s hx ih =>
    rw [apply_cons hx, List.infix_cons_iff, not_or]
    refine ⟨fun hi => hx ?_, ih⟩
    rw [h.pattern_eq] at hi ⊢
    obtain ⟨hfirst, hmore⟩ := List.cons_prefix_cons.1 hi
    exact List.cons_prefix_cons.2 ⟨hfirst, h.prefix_of_prefix_apply h.not_mem_pattern hmore⟩

end BeginsOnce

/-! ## Raised letters -/

/-- The second text is the first one with some of its letters raised to capitals. -/
def Raised (s t : Text) : Prop := List.Forall₂ (fun a b => b = a ∨ b.isUpper = true ∧ b.toLower = a) s t

instance : DecidableRel Raised := fun s t =>
  inferInstanceAs (Decidable (List.Forall₂ (fun a b => b = a ∨ b.isUpper = true ∧ b.toLower = a) s t))

namespace Raised

theorem refl (s : Text) : Raised s s := List.forall₂_same.2 fun _ _ => .inl rfl

theorem lower_eq (h : Raised s t) : Text.lower t = Text.lower s := by
  induction h with
  | nil => rfl
  | @cons a b _ _ hab _ ih =>
    have hlower : b.toLower = a.toLower := by
      rcases hab with rfl | ⟨-, rfl⟩
      · rfl
      · exact (Char.toLower_toLower_eq_toLower b).symm
    rw [Text.lower_cons, Text.lower_cons, ih, hlower]

theorem isPrefix (h : Raised s t) (hq : ∀ x ∈ q, x.isUpper = false) (ht : q <+: t) : q <+: s := by
  induction h generalizing q with
  | nil => exact ht
  | @cons a b _ _ hab _ ih =>
    cases q with
    | nil => exact List.nil_prefix
    | cons x q =>
      obtain ⟨rfl, hmore⟩ := List.cons_prefix_cons.1 ht
      rw [List.forall_mem_cons] at hq
      rcases hab with rfl | ⟨hup, -⟩
      · exact List.cons_prefix_cons.2 ⟨rfl, ih hq.2 hmore⟩
      · rw [hq.1] at hup
        cases hup

/-- What has no capitals stood there before letters were raised. -/
theorem isInfix (h : Raised s t) (hq : ∀ x ∈ q, x.isUpper = false) (ht : q <:+: t) : q <:+: s := by
  induction h with
  | nil => exact ht
  | cons hab hmore ih =>
    rw [List.infix_cons_iff] at ht ⊢
    exact ht.imp (Raised.isPrefix (.cons hab hmore) hq) ih

end Raised

theorem raised_apply (hp : c.pattern ≠ []) (h : Raised c.pattern c.replacement) (s : Text) :
    Raised s (c.apply s) := by
  induction s using apply_induct hp with
  | nil =>
    rw [apply_nil]
    exact .refl []
  | pattern s ih =>
    rw [apply_pattern_append hp]
    exact List.rel_append h ih
  | cons x s hx ih =>
    rw [apply_cons hx]
    exact .cons (.inl rfl) ih

/-! ## The corrections of names -/

/-- What the corrections of names have in common: they raise letters of patterns without capitals, their texts do not
touch a space, and no space has the character that they begin with. -/
structure Raises (c : Correction) : Prop extends BeginsOnce c where
  raised : Raised c.pattern c.replacement
  lower : ∀ x ∈ c.pattern, x.isUpper = false
  amp_not_mem_pattern : '&' ∉ c.pattern
  amp_not_mem_replacement : '&' ∉ c.replacement
  semicolon_not_mem_pattern : ';' ∉ c.pattern
  first_not_mem : c.first ∉ "nbsp;".toList
  not_infix : ¬ c.pattern <:+: "&amp;nbsp".toList

theorem raises_of_mem_names (h : c ∈ names) : Raises c where
  toBeginsOnce := beginsOnce_of_mem_jelly (List.mem_of_mem_take h)
  raised := (show ∀ c ∈ names, Raised c.pattern c.replacement by decide) c h
  lower x hx := by
    have hall := (show ∀ c ∈ names, c.pattern.all (!·.isUpper) = true by decide) c h
    simpa using List.all_eq_true.1 hall x hx
  amp_not_mem_pattern := (show ∀ c ∈ names, '&' ∉ c.pattern by decide) c h
  amp_not_mem_replacement := (show ∀ c ∈ names, '&' ∉ c.replacement by decide) c h
  semicolon_not_mem_pattern := (show ∀ c ∈ names, ';' ∉ c.pattern by decide) c h
  first_not_mem := (show ∀ c ∈ names, c.first ∉ "nbsp;".toList by decide) c h
  not_infix := (show ∀ c ∈ names, ¬ c.pattern <:+: "&amp;nbsp".toList by decide) c h

section Names

variable (hcs : ∀ c ∈ cs, Raises c)
include hcs

/-- What has no capitals stood there before the corrections. -/
theorem infix_of_infix_applyAll (hq : ∀ x ∈ q, x.isUpper = false) (h : q <:+: applyAll cs s) : q <:+: s := by
  induction cs generalizing s with
  | nil => exact h
  | cons c cs ih =>
    rw [List.forall_mem_cons] at hcs
    exact (raised_apply hcs.1.pattern_ne_nil hcs.1.raised s).isInfix hq (ih hcs.2 h)

/-- No later correction brings back what an earlier one took away. -/
theorem not_infix_applyAll (s : Text) : ∀ c ∈ cs, ¬ c.pattern <:+: applyAll cs s := by
  induction cs generalizing s with
  | nil => simp
  | cons c cs ih =>
    rw [List.forall_mem_cons] at hcs ⊢
    exact ⟨fun h => hcs.1.not_infix_apply s (infix_of_infix_applyAll hcs.2 hcs.1.lower h), ih hcs.2 (c.apply s)⟩

end Names

/-! ## Names and spaces -/

theorem beginsOnce_space : BeginsOnce space := beginsOnce_of_mem_jelly (by decide)

/-- What is put in the place of a space makes no name. -/
theorem Raises.infix_of_infix_space_apply (h : Raises c) (hi : c.pattern <:+: space.apply s) : c.pattern <:+: s := by
  induction s using apply_induct beginsOnce_space.pattern_ne_nil with
  | nil => rwa [apply_nil] at hi
  | pattern s ih =>
    have hsemicolon : space.replacement = "&amp;nbsp".toList ++ [';'] := by decide
    rw [apply_pattern_append beginsOnce_space.pattern_ne_nil, hsemicolon, List.append_assoc, List.singleton_append,
      Text.infix_append_cons_iff h.semicolon_not_mem_pattern] at hi
    exact (ih (hi.resolve_left h.not_infix)).trans (List.suffix_append _ _).isInfix
  | cons x s hx ih =>
    rw [apply_cons hx, List.infix_cons_iff] at hi
    rw [List.infix_cons_iff]
    refine hi.imp (fun hprefix => ?_) ih
    have hamp := h.amp_not_mem_pattern
    rw [h.pattern_eq] at hprefix hamp ⊢
    rw [List.mem_cons, not_or] at hamp
    obtain ⟨hfirst, hmore⟩ := List.cons_prefix_cons.1 hprefix
    exact List.cons_prefix_cons.2 ⟨hfirst, beginsOnce_space.prefix_of_prefix_apply hamp.2 hmore⟩

/-- The correction of a name finds the same text between spaces. -/
theorem Raises.apply_space_append (h : Raises c) (s : Text) :
    c.apply (space.pattern ++ s) = space.pattern ++ c.apply s := by
  have hsemicolon : space.pattern = "&nbsp".toList ++ [';'] := by decide
  have hno : ¬ c.pattern <:+: "&nbsp".toList := by
    intro hi
    rw [show "&nbsp".toList = [] ++ '&' :: "nbsp".toList by decide,
      Text.infix_append_cons_iff h.amp_not_mem_pattern] at hi
    refine h.not_infix (hi.elim (fun hnil => ?_) fun hnbsp => hnbsp.trans ⟨"&amp;".toList, [], by decide⟩)
    exact absurd (List.infix_nil.1 hnil) h.pattern_ne_nil
  rw [hsemicolon, List.append_assoc, List.singleton_append, apply_append_cons h.semicolon_not_mem_pattern,
    apply_eq_self hno, List.append_assoc, List.singleton_append]

/-- The correction of a name leaves the spaces where they are. -/
theorem Raises.lower_space_apply (h : Raises c) (s : Text) :
    Text.lower (space.apply (c.apply s)) = Text.lower (space.apply s) := by
  have hspace := beginsOnce_space.pattern_ne_nil
  induction hl : s.length using Nat.strong_induction_on generalizing s with
  | _ n ih =>
    by_cases hs : space.pattern <+: s
    · obtain ⟨s, rfl⟩ := hs
      have hpos := List.length_pos_iff.2 hspace
      rw [List.length_append] at hl
      rw [h.apply_space_append, apply_pattern_append hspace, apply_pattern_append hspace, Text.lower_append,
        Text.lower_append, ih s.length (by omega) s rfl]
    · by_cases hc : c.pattern <+: s
      · obtain ⟨s, rfl⟩ := hc
        have hpos := List.length_pos_iff.2 h.pattern_ne_nil
        rw [List.length_append] at hl
        rw [apply_pattern_append h.pattern_ne_nil, space_apply_append h.amp_not_mem_replacement,
          space_apply_append h.amp_not_mem_pattern, Text.lower_append, Text.lower_append, h.raised.lower_eq,
          ih s.length (by omega) s rfl]
      · cases s with
        | nil => rw [apply_nil]
        | cons x s =>
          -- no space comes about where there was none
          have hs' : ¬ space.pattern <+: x :: c.apply s := by
            intro hprefix
            refine hs ?_
            rw [space_pattern] at hprefix ⊢
            obtain ⟨rfl, hmore⟩ := List.cons_prefix_cons.1 hprefix
            exact List.cons_prefix_cons.2 ⟨rfl, h.prefix_of_prefix_apply h.first_not_mem hmore⟩
          rw [apply_cons hc, apply_cons hs, apply_cons hs', Text.lower_cons, Text.lower_cons,
            ih s.length (by rw [← hl]; exact Nat.lt_succ_self _) s rfl]

theorem lower_space_applyAll (hcs : ∀ c ∈ cs, Raises c) (s : Text) :
    Text.lower (space.apply (applyAll cs s)) = Text.lower (space.apply s) := by
  induction cs generalizing s with
  | nil => rfl
  | cons c cs ih =>
    rw [List.forall_mem_cons] at hcs
    exact (ih hcs.2 (c.apply s)).trans (hcs.1.lower_space_apply s)

/-! ## All corrections -/

theorem applyAll_jelly_eq (s : Text) : applyAll jelly s = space.apply (applyAll names s) := by
  rw [jelly_eq, applyAll, List.foldl_append]
  rfl

theorem not_infix_applyAll_jelly (s : Text) : ∀ c ∈ jelly, ¬ c.pattern <:+: applyAll jelly s := by
  intro c hc hi
  rw [applyAll_jelly_eq] at hi
  rw [jelly_eq, List.mem_append, List.mem_singleton] at hc
  rcases hc with hc | rfl
  · exact not_infix_applyAll (fun _ => raises_of_mem_names) s c hc
      ((raises_of_mem_names hc).infix_of_infix_space_apply hi)
  · exact beginsOnce_space.not_infix_apply _ hi

/-- A corrected text has no pattern in it, so that correcting it again changes nothing; and it is the text with its
spaces escaped, but for the case of letters. -/
theorem applyAll_jelly (s : Text) : (∀ c ∈ jelly, ¬ c.pattern <:+: applyAll jelly s) ∧
    applyAll jelly (applyAll jelly s) = applyAll jelly s ∧
    Text.sameLetters (applyAll jelly s) (apply ⟨"&nbsp;".toList, "&amp;nbsp;".toList⟩ s) = true := by
  refine ⟨not_infix_applyAll_jelly s, applyAll_eq_self (not_infix_applyAll_jelly s), ?_⟩
  rw [Text.sameLetters_iff, applyAll_jelly_eq]
  exact lower_space_applyAll (fun _ => raises_of_mem_names) s

end Correction

end MailTemplate
