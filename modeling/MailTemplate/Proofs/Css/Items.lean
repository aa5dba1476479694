import MailTemplate.Css.Stylesheet
import MailTemplate.Proofs.Text.Cutting
import MailTemplate.Proofs.Text.Trimming
/-!
# Items

What is cut off a sheet and what is left make up the sheet (`eq_append_of_cutOutside?`, `eq_append_of_cutBlock`,
`append_of_cutAtRule`). What the items of a sheet are is said by its first character that is not blank, and by where the
block ends that follows (`items_of_at`, `items_of_cutOutside`).
-/
namespace MailTemplate.Css

/-! ## Cuts -/

theorem eq_append_of_cutOutside? {mark : Char} {st : StringState} {s before rest : Text}
    (h : cutOutside? mark st s = some (before, rest)) : s = before ++ mark :: rest := by
  induction s generalizing st before with
  | nil => cases h
  | cons c s ih =>
    rw [cutOutside?] at h
    split at h
    · next hc =>
      cases h
      rw [hc.1]
      rfl
    · obtain ⟨⟨b, r⟩, hs, he⟩ := Option.map_eq_some_iff.1 h
      cases he
      rw [ih hs]
      rfl

theorem eq_append_of_cutBlock (d : Nat) (st : StringState) (s : Text) :
    s = (cutBlock d st s).1 ++ ((cutBlock d st s).2.map ('\x7d' :: ·)).getD [] := by
  induction s generalizing d st with
  | nil => rfl
  | cons c s ih =>
    rw [cutBlock]
    by_cases hc : c = '\x7d' ∧ st = .outside ∧ d = 0
    · rw [if_pos hc, hc.1]
      rfl
    · rw [if_neg hc]
      exact congrArg (c :: ·) (ih (braceDepth d st c) (st.step c))

theorem append_of_cutAtRule (st : StringState) (s : Text) : (cutAtRule st s).1 ++ (cutAtRule st s).2 = s := by
  induction s generalizing st with
  | nil => rfl
  | cons c s ih =>
    rw [cutAtRule]
    split
    · rfl
    split
    · have hblock := eq_append_of_cutBlock 0 .outside s
      split <;>
      · next heq =>
        rw [heq] at hblock
        conv_rhs => rw [hblock]
        simp
    · exact congrArg (c :: ·) (ih (st.step c))

/-! ## Blocks -/

theorem cutBlock_allWhite (depth : Nat) (st : StringState) {w : Text} (hw : w.AllWhite) :
    cutBlock depth st w = (w, none) := by
  induction w generalizing depth st with
  | nil => rfl
  | cons c w ih =>
    have hc : c ≠ '\x7d' := by
      rintro rfl
      exact absurd (hw _ List.mem_cons_self) (by decide)
    rw [cutBlock, if_neg (by simp [hc]), ih _ _ fun x hx => hw x (List.mem_cons_of_mem c hx)]

/-- A block is closed, and then read alike whatever follows it, or it stays open, and so do all its beginnings. -/
theorem cutBlock_cases (depth : Nat) (st : StringState) (s : Text) :
    (∃ body rest, s = body ++ '\x7d' :: rest ∧ ∀ q, cutBlock depth st (body ++ '\x7d' :: q) = (body, some q)) ∨
      ∀ p w, p <+: s → w.AllWhite → cutBlock depth st (p ++ w) = (p ++ w, none) := by
  induction s generalizing depth st with
  | nil =>
    right
    intro p w hp hw
    rw [List.prefix_nil.1 hp, List.nil_append]
    exact cutBlock_allWhite depth st hw
  | cons c s ih =>
    by_cases hc : c = '\x7d' ∧ st = .outside ∧ depth = 0
    · left
      obtain ⟨rfl, rfl, rfl⟩ := hc
      exact ⟨[], s, rfl, fun q => by rw [List.nil_append, cutBlock, if_pos ⟨rfl, rfl, rfl⟩]⟩
    · rcases ih (braceDepth depth st c) (st.step c) with ⟨body, rest, rfl, hread⟩ | hopen
      · left
        refine ⟨c :: body, rest, rfl, fun q => ?_⟩
        rw [List.cons_append, cutBlock, if_neg hc, hread]
      · right
        intro p w hp hw
        rcases List.prefix_cons_iff.1 hp with rfl | ⟨p, rfl, hp'⟩
        · exact cutBlock_allWhite depth st hw
        · rw [List.cons_append, cutBlock, if_neg hc, hopen p w hp' hw]

/-! ## At-rules -/

/-- Whether an at-rule ends in a mark, whatever follows. -/
def IsClosed (st : StringState) (rule : Text) : Prop :=
  (∃ init z, rule = init ++ [z] ∧ Text.isWhiteSpace z = false) ∧ ∀ q, cutAtRule st (rule ++ q) = (rule, q)

/-- What is between the mark of at-rules and a character that is not white space is not trimmed. -/
theorem IsClosed.trim {st : StringState} {rule : Text} (hat : rule.head? = some '@') (h : IsClosed st rule) :
    Text.trim rule = rule := by
  obtain ⟨⟨init, z, hlast, hz⟩, -⟩ := h
  exact Text.trim_eq_self hat hlast (by decide) hz

/-! ## Comments -/

theorem stripComments_eq_self {s : Text} (h : ¬ "/*".toList <:+: s) : stripComments s = s := by
  rw [stripComments]
  split
  · rfl
  · next h' =>
    rw [Text.cut?_eq_none_iff.2 h] at h'
    cases h'

/-! ## Items -/

theorem items_of_at {s rest : Text} (h : skipBlanks s = '@' :: rest) : items s =
    .atRule (Text.trim (cutAtRule .outside ('@' :: rest)).1) :: items (cutAtRule .outside ('@' :: rest)).2 := by
  rw [items]
  split
  · next h' =>
    rw [h] at h'
    cases h'
  · next c s' h' =>
    rw [h] at h'
    obtain ⟨rfl, rfl⟩ := List.cons.inj h'
    rw [if_pos rfl]

/-- An at-rule that ends in a mark is an item. -/
theorem items_of_isClosed {rule : Text} (hat : rule.head? = some '@') (h : IsClosed .outside rule) (q : Text) :
    items (rule ++ q) = .atRule rule :: items q := by
  have htrim := h.trim hat
  obtain ⟨t, rfl⟩ := List.head?_eq_some_iff.1 hat
  have hskip : skipBlanks ('@' :: t ++ q) = '@' :: (t ++ q) := rfl
  rw [items_of_at hskip, ← List.cons_append, h.2, htrim]

theorem items_nil : items [] = [] := by
  rw [items]
  rfl

theorem items_of_cutOutside {s prelude rest : Text} (hat : (skipBlanks s).head? ≠ some '@')
    (h : cutOutside? '\x7b' .outside (skipBlanks s) = some (prelude, rest)) :
    items s = .rule prelude (cutBlock 0 .outside rest).1 :: items ((cutBlock 0 .outside rest).2.getD []) := by
  rw [items]
  split
  · next h' =>
    rw [h'] at h
    cases h
  · next c s' h' =>
    rw [h'] at h hat
    rw [if_neg fun hc => hat (congrArg some hc)]
    split
    · next hnone =>
      rw [h] at hnone
      cases hnone
    · next hsome =>
      rw [h] at hsome
      cases hsome
      rfl

/-- Text without a block behind it is the last item. -/
theorem items_of_cutOutside_none {s : Text} (hne : skipBlanks s ≠ []) (hat : (skipBlanks s).head? ≠ some '@')
    (h : cutOutside? '\x7b' .outside (skipBlanks s) = none) : items s = [.trailing (Text.trim (skipBlanks s))] := by
  rw [items]
  split
  · next h' => exact absurd h' hne
  · next c s' h' =>
    rw [h'] at h hat ⊢
    rw [if_neg fun hc => hat (congrArg some hc)]
    split
    · rfl
    · next hsome =>
      rw [h] at hsome
      cases hsome

/-- Blanks before a sheet say nothing. -/
theorem items_congr {s t : Text} (h : skipBlanks s = skipBlanks t) : items s = items t := by
  rw [items, items, h]

end MailTemplate.Css
