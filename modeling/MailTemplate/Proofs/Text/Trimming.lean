import Mathlib
import MailTemplate.Text.WhiteSpace
/-!
# Trimming

What is trimmed off a text is all that has to be known about its two ends (`strip_append`), and a text is what is left
of it between what was trimmed off (`exists_strip`).
-/
namespace MailTemplate.Text

variable {p : Char → Bool} {t w w' : Text}

/-- A text of white space only, or no text. -/
def AllWhite (t : Text) : Prop := ∀ c ∈ t, isWhiteSpace c = true

/-! ## Both ends -/

theorem dropEnd_append (t : Text) (hw : ∀ c ∈ w, p c = true) : dropEnd p (t ++ w) = dropEnd p t := by
  rw [dropEnd, List.reverse_append, List.dropWhile_append_of_pos (by simpa using hw), dropEnd]

theorem dropEnd_concat {c : Char} (t : Text) (hc : p c = false) : dropEnd p (t ++ [c]) = t ++ [c] := by
  rw [dropEnd, List.reverse_append, List.reverse_singleton, List.singleton_append,
    List.dropWhile_cons_of_neg (by simp [hc])]
  simp

theorem strip_append_left (t : Text) (hw : ∀ c ∈ w, p c = true) : strip p (w ++ t) = strip p t := by
  rw [strip, List.dropWhile_append_of_pos hw, strip]

theorem strip_append_right (t : Text) (hw : ∀ c ∈ w, p c = true) : strip p (t ++ w) = strip p t := by
  rw [strip, strip, List.dropWhile_append]
  split
  · next h => rw [List.dropWhile_eq_nil_iff.2 hw, List.isEmpty_iff.1 h]
  · exact dropEnd_append _ hw

theorem strip_append (t : Text) (hw : ∀ c ∈ w, p c = true) (hw' : ∀ c ∈ w', p c = true) :
    strip p (w ++ t ++ w') = strip p t := by
  rw [strip_append_right _ hw', strip_append_left _ hw]

theorem strip_eq_nil_iff : strip p t = [] ↔ ∀ c ∈ t, p c = true := by
  constructor
  · intro h c hc
    rw [strip, dropEnd, List.reverse_eq_nil_iff, List.dropWhile_eq_nil_iff] at h
    rw [← List.takeWhile_append_dropWhile (p := p) (l := t)] at hc
    rcases List.mem_append.1 hc with hc | hc
    · exact List.mem_takeWhile_imp hc
    · exact h c (List.mem_reverse.2 hc)
  · intro h
    have hs := strip_append_left (p := p) [] h
    rwa [List.append_nil] at hs

/-- What was trimmed off stood around what is left. -/
theorem exists_strip (p : Char → Bool) (t : Text) :
    ∃ w w', t = w ++ strip p t ++ w' ∧ (∀ c ∈ w, p c = true) ∧ ∀ c ∈ w', p c = true := by
  refine ⟨t.takeWhile p, ((t.dropWhile p).reverse.takeWhile p).reverse, ?_, fun c hc => List.mem_takeWhile_imp hc,
    fun c hc => List.mem_takeWhile_imp (List.mem_reverse.1 hc)⟩
  rw [strip, dropEnd, List.append_assoc, ← List.reverse_append, List.takeWhile_append_dropWhile, List.reverse_reverse,
    List.takeWhile_append_dropWhile]

/-! ## White space -/

theorem AllWhite.append (hw : w.AllWhite) (hw' : w'.AllWhite) : AllWhite (w ++ w') := by
  intro c hc
  exact (List.mem_append.1 hc).elim (hw c) (hw' c)

theorem AllWhite.not_mem {c : Char} (hw : w.AllWhite) (hc : isWhiteSpace c = false) : c ∉ w := by
  intro hmem
  rw [hw c hmem] at hc
  cases hc

theorem trim_append (t : Text) (hw : w.AllWhite) (hw' : w'.AllWhite) : trim (w ++ t ++ w') = trim t :=
  strip_append t hw hw'

theorem trim_eq_nil_iff : trim t = [] ↔ t.AllWhite := strip_eq_nil_iff

theorem exists_trim (t : Text) : ∃ w w', t = w ++ trim t ++ w' ∧ AllWhite w ∧ AllWhite w' :=
  exists_strip isWhiteSpace t

theorem allWhite_nil : AllWhite [] := by
  rintro c ⟨⟩

theorem allWhite_space : AllWhite [' '] := by
  intro c hc
  rw [List.mem_singleton.1 hc]
  rfl

theorem trim_trim (t : Text) : trim (trim t) = trim t := by
  obtain ⟨w, w', ht, hw, hw'⟩ := exists_trim t
  conv_rhs => rw [ht]
  exact (trim_append _ hw hw').symm

/-- White space at the end of a trimmed text is no text. -/
theorem eq_nil_of_trim_eq_append {u : Text} (h : trim t = u ++ w) (hw : w.AllWhite) : w = [] := by
  have hu : trim t = trim u := by rw [← trim_trim, h, trim, strip_append_right u hw, trim]
  obtain ⟨v, v', hv, -, -⟩ := exists_trim u
  have hlength := congrArg List.length (h.symm.trans hu)
  have hlength' := congrArg List.length hv
  simp only [List.length_append] at hlength hlength'
  exact List.length_eq_zero_iff.1 (by omega)

/-- Trimming takes off nothing from the first character on that is not white space. -/
theorem exists_trim_cons {z : Char} (hz : isWhiteSpace z = false) (t : Text) :
    ∃ u w, trim (z :: t) = z :: u ∧ t = u ++ w := by
  obtain ⟨w, w', ht, hw, -⟩ := exists_trim (z :: t)
  cases w with
  | cons c w =>
    obtain ⟨rfl, -⟩ := List.cons.inj ht
    exact absurd List.mem_cons_self (hw.not_mem hz)
  | nil =>
    cases htrim : trim (z :: t) with
    | nil => exact absurd List.mem_cons_self ((trim_eq_nil_iff.1 htrim).not_mem hz)
    | cons c u =>
      rw [htrim] at ht
      obtain ⟨rfl, rfl⟩ := List.cons.inj ht
      exact ⟨u, w', rfl, rfl⟩

/-- Trimming takes nothing off but white space. -/
theorem countP_trim (t : Text) : (trim t).countP (!isWhiteSpace ·) = t.countP (!isWhiteSpace ·) := by
  obtain ⟨w, w', ht, hw, hw'⟩ := exists_trim t
  have hwhite : ∀ {w : Text}, w.AllWhite → w.countP (!isWhiteSpace ·) = 0 := fun hw =>
    List.countP_eq_zero.2 fun c hc => by simp [hw c hc]
  conv_rhs => rw [ht]
  rw [List.countP_append, List.countP_append, hwhite hw, hwhite hw', Nat.zero_add, Nat.add_zero]

/-- Nothing is trimmed off where no white space is at either end. -/
theorem trim_eq_self {init : Text} {a z : Char} (ha : t.head? = some a) (hz : t = init ++ [z])
    (hwa : isWhiteSpace a = false) (hwz : isWhiteSpace z = false) : trim t = t := by
  obtain ⟨u, hu⟩ := List.head?_eq_some_iff.1 ha
  have hdrop : t.dropWhile isWhiteSpace = t := by
    rw [hu, List.dropWhile_cons_of_neg (by simp [hwa])]
  rw [trim, strip, hdrop, hz, dropEnd_concat init hwz]

/-- What goes on after a text with a character that is not white space is not trimmed to the same. -/
theorem trim_append_cons_ne {z : Char} (hz : isWhiteSpace z = false) (t u : Text) : trim (t ++ z :: u) ≠ trim t := by
  intro htrim
  have hcount := congrArg (List.countP (!isWhiteSpace ·)) htrim
  rw [countP_trim, countP_trim, List.countP_append, List.countP_cons_of_pos (by simp [hz])] at hcount
  omega

theorem mem_of_mem_trim {c : Char} (h : c ∈ trim t) : c ∈ t := by
  obtain ⟨w, w', ht, -, -⟩ := exists_trim t
  rw [ht]
  exact List.mem_append_left w' (List.mem_append_right w h)

end MailTemplate.Text
