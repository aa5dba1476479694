import MailTemplate.Proofs.Css.Balanced
import MailTemplate.Proofs.Css.SelectorReading
/-!
# Selectors as pieces

A comma, a quote or a bracket that a backslash stands before belongs to a name, or ends a string. The reader that looks
for commas does not know that. Where a selector has no such mark, all its brackets and strings are what the reader takes
them for (`Uncut.of_selectorWritten`), and it is a piece between commas (`isPiece_of_escapesNoMark`).
-/
namespace MailTemplate.Css

variable {c q : Char} {name value s t : Text}

/-- What a reader that looks for commas goes by. -/
def cutMarks : List Char := [',', '"', '\'', '(', ')', '[', ']']

/-- Whether no backslash stands before a comma, a quote or a bracket. -/
def EscapesNoMark (s : Text) : Prop := ∀ c ∈ cutMarks, ¬ ['\\', c] <:+: s

instance (s : Text) : Decidable (EscapesNoMark s) := List.decidableBAll _ _

namespace EscapesNoMark

theorem of_infix (h : EscapesNoMark s) (hts : t <:+: s) : EscapesNoMark t := fun c hc hi => h c hc (hi.trans hts)

theorem append_left (h : EscapesNoMark (s ++ t)) : EscapesNoMark s := h.of_infix (List.prefix_append s t).isInfix

theorem append_right (h : EscapesNoMark (s ++ t)) : EscapesNoMark t := h.of_infix (List.suffix_append s t).isInfix

theorem tail (h : EscapesNoMark (c :: s)) : EscapesNoMark s := h.of_infix (List.suffix_cons c s).isInfix

theorem not_mem (h : EscapesNoMark ('\\' :: c :: s)) : c ∉ cutMarks := fun hc => h c hc ⟨[], s, rfl⟩

end EscapesNoMark

/-! ## Names and strings -/

/-- Texts that a reader passes which looks for commas outside strings and brackets. -/
abbrev Uncut : Text → Prop := Balanced .roundOrSquare [',']

namespace Uncut

theorem of_forall (h : ∀ c ∈ s, c ∉ cutMarks) : Uncut s := by
  refine Balanced.of_forall fun c hc hmem => h c hc ?_
  simp only [Brackets.roundOrSquare, List.cons_append, List.nil_append] at hmem
  simp only [cutMarks, List.mem_cons, List.not_mem_nil, or_false] at hmem ⊢
  tauto

theorem cons (hc : c ∉ cutMarks) (hs : Uncut s) : Uncut (c :: s) := (of_forall (List.forall_mem_singleton.2 hc)).append hs

theorem of_allBlank (h : s.AllBlank) : Uncut s := of_forall fun c hc => Text.not_mem_of_all_not (by decide) (h c hc)

theorem of_allWhite (h : s.AllWhite) : Uncut s := of_forall fun c hc => Text.not_mem_of_all_not (by decide) (h c hc)

theorem of_spelledOut (h : SpelledOut name s) (hs : EscapesNoMark s) : Uncut s := by
  induction h with
  | nil => exact .nil
  | plain hc _ ih => exact cons (Text.not_mem_of_all_not (by decide) (isNameChar_iff.2 hc)) (ih hs.tail)
  | escaped _ ih => exact cons (by decide) (cons hs.not_mem (ih hs.tail.tail))

/-- A text that ends with the first quote of its kind is closed by it, unless a backslash stands before that quote. -/
theorem stringBody (hq : q ∈ cutMarks) : ∀ {value : Text}, q ∉ value → EscapesNoMark (value ++ [q]) → StringBody q value
  | [], _, _ => .nil
  | [c], hv, hs => by
    refine .plain ?_ (Ne.symm (List.ne_of_not_mem_cons hv)) .nil
    rintro rfl
    exact hs.not_mem hq
  | c :: d :: value, hv, hs => by
    obtain ⟨hcq, hdv⟩ := List.ne_and_not_mem_of_not_mem_cons hv
    by_cases hc : c = '\\'
    · rw [hc]
      exact .escaped (stringBody hq (List.not_mem_of_not_mem_cons hdv) hs.tail.tail)
    · exact .plain hc hcq.symm (stringBody hq hdv hs.tail)

theorem of_isOperand (h : IsOperand value s) (hs : EscapesNoMark s) : Uncut s := by
  cases h with
  | @quoted q value hq hvalue =>
    have hmem : q ∈ cutMarks := by
      simp only [Text.isQuote, Bool.or_eq_true, beq_iff_eq] at hq
      rcases hq with rfl | rfl <;> decide
    exact .string hq (stringBody hmem hvalue hs.tail) .nil
  | name h => exact of_spelledOut h.spelledOut hs

/-- What is not cut is not cut inside brackets. -/
theorem brackets (hs : Uncut s) : Uncut ('[' :: (s ++ [']'])) :=
  Balanced.brackets (by decide) (by decide) (hs.mono (List.nil_subset _)) .nil

/-! ## Selectors -/

theorem of_simple {a : Simple} (h : a.Written s) (hs : EscapesNoMark s) : Uncut s := by
  cases h with
  | ofClass h => exact cons (by decide) (of_spelledOut h.spelledOut hs.tail)
  | id h => exact cons (by decide) (of_spelledOut h.spelledOut hs.tail)
  | firstChild h _ => exact cons (by decide) (of_spelledOut h.spelledOut hs.tail)
  | lastChild h _ => exact cons (by decide) (of_spelledOut h.spelledOut hs.tail)
  | @present name s w w' hw h hw' =>
    have hname : Uncut s := of_spelledOut h.spelledOut hs.tail.append_right.append_left
    have hall := brackets ((of_allBlank hw).append (hname.append (of_allBlank hw')))
    simpa only [List.append_assoc] using hall
  | @compare name value s t w w' x x' k hw h hw' hx ht hx' =>
    have hrest := hs.tail.append_right
    have hname : Uncut s := of_spelledOut h.spelledOut hrest.append_left
    have hoperand : Uncut t := of_isOperand ht hrest.append_right.append_right.append_right.append_right.append_left
    have hmark : Uncut k.mark := of_forall (by cases k <;> simp [Comparison.mark, cutMarks])
    have hall := brackets ((of_allBlank hw).append (hname.append ((of_allBlank hw').append (hmark.append
      ((of_allBlank hx).append (hoperand.append (of_allBlank hx')))))))
    simpa only [List.append_assoc] using hall

theorem of_conditions {as : List Simple} (h : ConditionsWritten as s) (hs : EscapesNoMark s) : Uncut s := by
  induction h with
  | nil => exact .nil
  | cons ha _ ih => exact (of_simple ha hs.append_left).append (ih hs.append_right)

theorem of_compound {a : Compound} (h : a.Written s) (hs : EscapesNoMark s) : Uncut s := by
  obtain ⟨type, conditions⟩ := a
  obtain ⟨-, t, u, rfl, ht, hu⟩ := h
  have htype : Uncut t := by
    cases ht with
    | absent => exact .nil
    | any => exact cons (by decide) .nil
    | name h => exact of_spelledOut h.spelledOut hs.append_left
  exact htype.append (of_conditions hu hs.append_right)

theorem of_combinator {k : Combinator} (h : k.Written s) : Uncut s := by
  cases h with
  | descendant _ hw => exact of_allBlank hw
  | child hw hw' => exact (of_allBlank hw).append (cons (by decide) (of_allBlank hw'))
  | adjacent hw hw' => exact (of_allBlank hw).append (cons (by decide) (of_allBlank hw'))
  | sibling hw hw' => exact (of_allBlank hw).append (cons (by decide) (of_allBlank hw'))

theorem of_selectorWritten {cs : List Compound} {ks : List Combinator} (h : SelectorWritten cs ks s)
    (hs : EscapesNoMark s) : Uncut s := by
  induction h with
  | single hc => exact of_compound hc hs
  | cons hc hk _ ih =>
    exact (of_compound hc hs.append_left).append ((of_combinator hk).append (ih hs.append_right.append_right))

end Uncut

/-- A selector that is read is a piece, if no backslash in it stands before a comma, a quote or a bracket. -/
theorem isPiece_of_escapesNoMark {x : Selector} (h : Selector.parse s = .ok x) (hs : EscapesNoMark s) :
    IsPiece ',' .top s := by
  obtain ⟨w, w', htrim, hw, hw'⟩ := Text.exists_trim s
  have hwritten := (selectorWritten_of_parse h).1
  rw [htrim] at hs
  have huncut : Uncut (Text.trim s) := .of_selectorWritten hwritten hs.append_left.append_right
  rw [htrim]
  exact isPiece_of_balanced (((Uncut.of_allWhite hw).append huncut).append (Uncut.of_allWhite hw'))

end MailTemplate.Css
