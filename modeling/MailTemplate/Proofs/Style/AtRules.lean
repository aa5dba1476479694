import MailTemplate.Proofs.Css.Items
import MailTemplate.Proofs.Style.Frame
import MailTemplate.Proofs.Text.Trimming
/-!
# At-rules read again

An at-rule either ends in a mark, and is then read alike whatever follows it, or runs on to the end of its sheet, and
does so still when white space follows (`cutAtRule_cases`). So the at-rules of a sheet, each on a line of its own, are
read again as the same at-rules, with no rule beside them (`parse_onLines`).
-/
namespace MailTemplate.Css

/-! ## Where an at-rule ends -/

theorem cutAtRule_allWhite (st : StringState) {w : Text} (hw : w.AllWhite) : cutAtRule st w = (w, []) := by
  induction w generalizing st with
  | nil => rfl
  | cons c w ih =>
    have hc : c ≠ ';' ∧ c ≠ '\x7b' := by
      constructor
      · rintro rfl
        exact absurd (hw _ List.mem_cons_self) (by decide)
      · rintro rfl
        exact absurd (hw _ List.mem_cons_self) (by decide)
    rw [cutAtRule, if_neg (by simp [hc.1]), if_neg (by simp [hc.2]), ih _ fun x hx => hw x (List.mem_cons_of_mem c hx)]

/-- Whether an at-rule would go on, even after white space. -/
def StaysOpen (st : StringState) (rule : Text) : Prop :=
  ∀ w, Text.AllWhite w → cutAtRule st (rule ++ w) = (rule ++ w, [])

theorem IsClosed.cons {st : StringState} {c : Char} {rule : Text} (hc : ¬ (c = ';' ∧ st = .outside))
    (hb : ¬ (c = '\x7b' ∧ st = .outside)) (h : IsClosed (st.step c) rule) : IsClosed st (c :: rule) := by
  obtain ⟨⟨init, z, rfl, hz⟩, hread⟩ := h
  refine ⟨⟨c :: init, z, rfl, hz⟩, fun q => ?_⟩
  rw [List.cons_append, cutAtRule, if_neg hc, if_neg hb, hread]

theorem StaysOpen.cons {st : StringState} {c : Char} {rule : Text} (hc : ¬ (c = ';' ∧ st = .outside))
    (hb : ¬ (c = '\x7b' ∧ st = .outside)) (h : StaysOpen (st.step c) rule) : StaysOpen st (c :: rule) := by
  intro w hw
  rw [List.cons_append, cutAtRule, if_neg hc, if_neg hb, h w hw]

/-- A text begins with an at-rule that ends in a mark, or none of its beginnings has the end of one. -/
theorem cutAtRule_cases (st : StringState) (s : Text) :
    (∃ rule rest, s = rule ++ rest ∧ IsClosed st rule) ∨ ∀ p, p <+: s → StaysOpen st p := by
  have hnil : ∀ st, StaysOpen st [] := fun st w hw => cutAtRule_allWhite st hw
  induction s generalizing st with
  | nil =>
    right
    intro p hp
    rw [List.prefix_nil.1 hp]
    exact hnil st
  | cons c s ih =>
    by_cases hc : c = ';' ∧ st = .outside
    · left
      refine ⟨[c], s, rfl, ⟨[], c, rfl, by rw [hc.1]; decide⟩, fun q => ?_⟩
      rw [List.singleton_append, cutAtRule, if_pos hc]
    by_cases hb : c = '\x7b' ∧ st = .outside
    · -- the at-rule is over with its block
      rcases cutBlock_cases 0 .outside s with ⟨body, rest, rfl, hread⟩ | hopen
      · left
        refine ⟨c :: body ++ ['\x7d'], rest, by simp, ⟨c :: body, '\x7d', rfl, by decide⟩, fun q => ?_⟩
        have hq : c :: body ++ ['\x7d'] ++ q = c :: (body ++ '\x7d' :: q) := by simp
        rw [hq, cutAtRule, if_neg hc, if_pos hb, hread]
      · right
        intro p hp
        rcases List.prefix_cons_iff.1 hp with rfl | ⟨p, rfl, hp'⟩
        · exact hnil st
        · intro w hw
          rw [List.cons_append, cutAtRule, if_neg hc, if_pos hb, hopen p w hp' hw]
    · rcases ih (st.step c) with ⟨rule, rest, rfl, hclosed⟩ | hopen
      · exact .inl ⟨c :: rule, rest, rfl, hclosed.cons hc hb⟩
      · right
        intro p hp
        rcases List.prefix_cons_iff.1 hp with rfl | ⟨p, rfl, hp'⟩
        · exact hnil st
        · exact (hopen p hp').cons hc hb

/-! ## Rows of at-rules -/

/-- Whether a text begins with the mark of at-rules, and white space is at neither of its ends. -/
def IsAtRule (rule : Text) : Prop := rule.head? = some '@' ∧ Text.trim rule = rule

/-- At-rules of which only the last may be without a mark at its end. -/
inductive AtRuleRow : List Text → Prop
  | nil : AtRuleRow []
  | last {rule : Text} : IsAtRule rule → StaysOpen .outside rule → AtRuleRow [rule]
  | cons {rule : Text} {rules : List Text} : IsAtRule rule → IsClosed .outside rule → AtRuleRow rules →
      AtRuleRow (rule :: rules)

theorem IsClosed.isAtRule {rule : Text} (hat : rule.head? = some '@') (h : IsClosed .outside rule) : IsAtRule rule :=
  ⟨hat, h.trim hat⟩

/-- Trimming takes nothing off before the mark of at-rules. -/
theorem isAtRule_trim (s : Text) : Text.trim ('@' :: s) <+: '@' :: s ∧ IsAtRule (Text.trim ('@' :: s)) := by
  obtain ⟨u, w, htrim, rfl⟩ := Text.exists_trim_cons (by decide : Text.isWhiteSpace '@' = false) s
  refine ⟨⟨w, ?_⟩, ?_, Text.trim_trim _⟩
  · rw [htrim]
    rfl
  · rw [htrim]
    rfl

/-- The at-rules of a sheet make up a row: one that runs on to the end leaves nothing after it. -/
theorem atRuleRow_items (s : Text) : AtRuleRow ((items s).filterMap Item.atRule?) := by
  fun_induction items s with
  | case1 s h => exact .nil
  | case2 s s' h ih =>
    rw [List.filterMap_cons]
    rcases cutAtRule_cases .outside ('@' :: s') with ⟨rule, rest, hrest, hclosed⟩ | hopen
    · have hat : rule.head? = some '@' := by
        cases rule with
        | nil =>
          obtain ⟨⟨init, z, hnil, -⟩, -⟩ := hclosed
          simp at hnil
        | cons c rule =>
          obtain ⟨rfl, -⟩ := List.cons.inj hrest
          rfl
      have hrule := hclosed.isAtRule hat
      rw [hrest, hclosed.2] at ih ⊢
      simp only [hrule.2]
      exact .cons hrule hclosed ih
    · obtain ⟨hp, hrule⟩ := isAtRule_trim s'
      have hall := hopen _ (List.prefix_refl _) [] Text.allWhite_nil
      rw [List.append_nil] at hall
      rw [hall, items_nil]
      exact .last hrule (hopen _ hp)
  | case3 s c s' h hc h' => exact .nil
  | case4 s c s' h hc prelude rest h' ih => exact ih

/-! ## Lines -/

theorem skipBlanks_onLines {rule : Text} (h : IsAtRule rule) (rules : List Text) :
    ∃ rest, rule ++ onLines rules = '@' :: rest ∧ skipBlanks (onLines (rule :: rules)) = '@' :: rest := by
  obtain ⟨t, rfl⟩ := List.head?_eq_some_iff.1 h.1
  refine ⟨t ++ onLines rules, rfl, ?_⟩
  rw [onLines_cons]
  rfl

theorem items_onLines {rules : List Text} (h : AtRuleRow rules) : items (onLines rules) = rules.map .atRule := by
  induction h with
  | nil =>
    rw [items]
    rfl
  | @last rule hrule hopen =>
    obtain ⟨rest, hrest, hskip⟩ := skipBlanks_onLines hrule []
    have hwhite : Text.AllWhite (onLines []) := by
      intro c hc
      rw [List.mem_singleton.1 hc]
      decide
    have htrim := Text.trim_append rule Text.allWhite_nil hwhite
    rw [List.nil_append, hrule.2] at htrim
    rw [items_of_at hskip, ← hrest, hopen _ hwhite, htrim, items_nil]
    rfl
  | @cons rule rules hrule hclosed _ ih =>
    obtain ⟨rest, hrest, hskip⟩ := skipBlanks_onLines hrule rules
    rw [items_of_at hskip, ← hrest, hclosed.2, hrule.2, ih]
    rfl

/-- A mark without a line break does not come about where lines meet. -/
theorem not_infix_onLines {mark : Text} (hn : '\n' ∉ mark) (hne : mark ≠ []) {lines : List Text}
    (h : ∀ line ∈ lines, ¬ mark <:+: line) : ¬ mark <:+: onLines lines := by
  have hempty : ¬ mark <:+: [] := fun hi => hne (List.infix_nil.1 hi)
  have hlines : ¬ mark <:+: lines.flatMap (· ++ ['\n']) := by
    induction lines with
    | nil => exact hempty
    | cons line lines ih =>
      rw [List.forall_mem_cons] at h
      rw [List.flatMap_cons, List.append_assoc, List.singleton_append, Text.infix_append_cons_iff hn, not_or]
      exact ⟨h.1, ih h.2⟩
  rw [onLines, ← List.nil_append ('\n' :: _), Text.infix_append_cons_iff hn, not_or]
  exact ⟨hempty, hlines⟩

/-- The at-rules of a sheet are read again from lines, if no comment begins in them. -/
theorem parse_onLines {rules : List Text} (h : AtRuleRow rules) (hc : ∀ rule ∈ rules, ¬ "/*".toList <:+: rule) :
    Stylesheet.parse (onLines rules) = ⟨[], rules⟩ := by
  have hcomment : ¬ "/*".toList <:+: onLines rules := not_infix_onLines (by decide) (by decide) hc
  have hrules : (rules.map Item.atRule).filterMap Item.rule? = [] := by
    rw [List.filterMap_map, List.filterMap_eq_nil_iff]
    intro rule _
    rfl
  have hatRules : (rules.map Item.atRule).filterMap Item.atRule? = rules := by
    rw [List.filterMap_map]
    exact List.filterMap_some
  rw [Stylesheet.parse, stripComments_eq_self hcomment, items_onLines h, Stylesheet.ofItems, hrules, hatRules]

end MailTemplate.Css
