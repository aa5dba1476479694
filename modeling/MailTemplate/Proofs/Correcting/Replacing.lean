import MailTemplate.Correction
import MailTemplate.Proofs.Text.Cutting
/-!
# Replacing

A correction can be made piece by piece wherever a character stands that is not in its pattern (`apply_append_cons`), and
it leaves alone what does not hold its pattern (`apply_eq_self`).
-/
namespace MailTemplate

namespace Correction

variable {c : Correction} {s : Text}

/-! ## One correction -/

theorem pieces_ne_nil (pattern s : Text) : pieces pattern s ≠ [] := by
  rw [pieces]
  split
  · exact List.cons_ne_nil s []
  · split
    · exact List.cons_ne_nil s []
    · exact List.cons_ne_nil _ _

theorem pieces_of_none {pattern : Text} (h : Text.cut? pattern s = none) : pieces pattern s = [s] := by
  rw [pieces]
  split
  · rfl
  · split
    · rfl
    · next hsome =>
      rw [h] at hsome
      cases hsome

theorem pieces_of_cut? {pattern before rest : Text} (hp : pattern ≠ []) (h : Text.cut? pattern s = some (before, rest)) :
    pieces pattern s = before :: pieces pattern rest := by
  rw [pieces, dif_neg hp]
  split
  · next hnone =>
    rw [h] at hnone
    cases hnone
  · next hsome =>
    rw [h] at hsome
    obtain ⟨rfl, rfl⟩ := Prod.mk.inj (Option.some.inj hsome)
    rfl

theorem apply_of_pattern_eq_nil (h : c.pattern = []) (s : Text) : c.apply s = s := by
  rw [apply, pieces, dif_pos h]
  rfl

theorem apply_eq_self (h : ¬ c.pattern <:+: s) : c.apply s = s := by
  rw [apply, pieces_of_none (Text.cut?_eq_none_iff.2 h)]
  rfl

theorem apply_of_cut? (hp : c.pattern ≠ []) {before rest : Text} (h : Text.cut? c.pattern s = some (before, rest)) :
    c.apply s = before ++ c.replacement ++ c.apply rest := by
  rw [apply, pieces_of_cut? hp h, Text.join_cons _ _ (pieces_ne_nil _ _), apply]

theorem apply_nil (c : Correction) : c.apply [] = [] := by
  by_cases hp : c.pattern = []
  · exact apply_of_pattern_eq_nil hp []
  · exact apply_eq_self fun h => hp (List.infix_nil.1 h)

theorem apply_pattern_append (hp : c.pattern ≠ []) (s : Text) : c.apply (c.pattern ++ s) = c.replacement ++ c.apply s := by
  have hcut : Text.cut? c.pattern (c.pattern ++ s) = some ([], s) := by
    unfold Text.cut?
    rw [Text.after?_append]
  exact apply_of_cut? hp hcut

theorem apply_cons {x : Char} (h : ¬ c.pattern <+: x :: s) : c.apply (x :: s) = x :: c.apply s := by
  have hp : c.pattern ≠ [] := by
    intro hp
    rw [hp] at h
    exact h List.nil_prefix
  have hcut : Text.cut? c.pattern (x :: s) = (Text.cut? c.pattern s).map fun r => (x :: r.1, r.2) := by
    rw [Text.cut?, Text.after?_eq_none_iff.2 h]
  cases hs : Text.cut? c.pattern s with
  | none =>
    rw [hs] at hcut
    rw [apply_eq_self (Text.cut?_eq_none_iff.1 hs), apply_eq_self (Text.cut?_eq_none_iff.1 hcut)]
  | some r =>
    rw [hs] at hcut
    rw [apply_of_cut? hp hs, apply_of_cut? hp hcut]
    rfl

/-- No pattern lies across a character that it does not have. -/
theorem apply_append_cons {z : Char} (hz : z ∉ c.pattern) (a b : Text) :
    c.apply (a ++ z :: b) = c.apply a ++ z :: c.apply b := by
  by_cases hp : c.pattern = []
  · rw [apply_of_pattern_eq_nil hp, apply_of_pattern_eq_nil hp, apply_of_pattern_eq_nil hp]
  induction hl : a.length using Nat.strong_induction_on generalizing a with
  | _ k ih =>
    cases ha : Text.cut? c.pattern a with
    | none =>
      have hcut := Text.cut?_append_of_none ha hz b
      rw [apply_eq_self (Text.cut?_eq_none_iff.1 ha)]
      cases hb : Text.cut? c.pattern b with
      | none =>
        rw [hb] at hcut
        rw [apply_eq_self (Text.cut?_eq_none_iff.1 hb), apply_eq_self (Text.cut?_eq_none_iff.1 hcut)]
      | some r =>
        rw [hb] at hcut
        rw [apply_of_cut? hp hb, apply_of_cut? hp hcut]
        simp
    | some r =>
      obtain ⟨before, rest⟩ := r
      have hlt := Text.length_lt_of_cut? hp ha
      rw [apply_of_cut? hp ha, apply_of_cut? hp (Text.cut?_append ha _), ih rest.length (by omega) rest rfl]
      simp

/-! ## Several corrections -/

variable {cs : List Correction}

theorem applyAll_nil (cs : List Correction) : applyAll cs [] = [] := by
  induction cs with
  | nil => rfl
  | cons c cs ih =>
    rw [applyAll, List.foldl_cons, apply_nil]
    exact ih

theorem applyAll_eq_self (h : ∀ c ∈ cs, ¬ c.pattern <:+: s) : applyAll cs s = s := by
  induction cs with
  | nil => rfl
  | cons c cs ih =>
    rw [applyAll, List.foldl_cons, apply_eq_self (h c List.mem_cons_self)]
    exact ih fun c' hc' => h c' (List.mem_cons_of_mem c hc')

theorem applyAll_append_cons {z : Char} (hz : ∀ c ∈ cs, z ∉ c.pattern) (a b : Text) :
    applyAll cs (a ++ z :: b) = applyAll cs a ++ z :: applyAll cs b := by
  induction cs generalizing a b with
  | nil => rfl
  | cons c cs ih =>
    simp only [applyAll, List.foldl_cons] at ih ⊢
    rw [apply_append_cons (hz c List.mem_cons_self), ih fun c' hc' => hz c' (List.mem_cons_of_mem c hc')]

end Correction

end MailTemplate
