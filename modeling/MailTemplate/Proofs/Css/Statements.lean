import MailTemplate.Proofs.Css.Sheets
/-!
# Where at-rule statements end

An at-rule ends with the first semicolon, or with the block of the first brace, outside strings. Brackets do not count,
as they do where declarations are parted. So a statement ends with its own semicolon exactly if none of these marks
stands before that outside strings (`parse_statement_append_iff`): the address in brackets of an import may have a
semicolon, and then what follows that is read as the beginning of a rule (`not_forall_parse_statement_append`).
-/
namespace MailTemplate.Css

variable {t u : Text}

/-- At-rules of one sheet before another, where nothing is a comment. -/
theorem parse_append_of_isClosed {rule : Text} (hat : rule.head? = some '@') (h : IsClosed .outside rule) {rest : Text}
    (hc : ¬ "/*".toList <:+: rule ++ rest) :
    Stylesheet.parse (rule ++ rest) = .append ⟨[], [rule]⟩ (Stylesheet.parse rest) := by
  have hrest : ¬ "/*".toList <:+: rest := fun h => hc (h.trans (List.suffix_append rule rest).isInfix)
  rw [Stylesheet.parse, Stylesheet.parse, stripComments_eq_self hc, stripComments_eq_self hrest,
    items_of_isClosed hat h]
  rfl

/-- A mark outside strings ends an at-rule before the semicolon of the statement, or has it go on behind that. -/
theorem cutAtRule_ne {m : Char} (hm : m ∈ [';', '\x7b']) (hu : Balanced .none [';', '\x7b'] u) (v : Text) :
    Text.trim (cutAtRule .outside ('@' :: (u ++ m :: (v ++ [';', 'x'])))).1 ≠ '@' :: (u ++ m :: (v ++ [';'])) := by
  rw [cutAtRule_at_append hu]
  simp only [List.mem_cons, List.not_mem_nil, or_false] at hm
  rcases hm with rfl | rfl
  · -- the at-rule is too short
    have hrule : '@' :: (u ++ [';']) = '@' :: u ++ [';'] := rfl
    rw [cutAtRule, if_pos ⟨rfl, rfl⟩, hrule, Text.trim_eq_self rfl rfl (by decide) (by decide)]
    intro h
    have hlength := congrArg List.length h
    simp at hlength
  · rw [cutAtRule, if_neg (by simp), if_pos ⟨rfl, rfl⟩]
    rcases cutBlock_cases 0 .outside (v ++ [';', 'x']) with ⟨body, rest, hv, hread⟩ | hopen
    · -- the at-rule ends with a brace
      have hrule : '@' :: (u ++ ('\x7b' :: body ++ ['\x7d'])) = '@' :: (u ++ '\x7b' :: body) ++ ['\x7d'] := by simp
      have hstatement : '@' :: (u ++ '\x7b' :: (v ++ [';'])) = '@' :: (u ++ '\x7b' :: v) ++ [';'] := by simp
      rw [hv, hread, hrule, Text.trim_eq_self rfl rfl (by decide) (by decide), hstatement]
      intro h
      exact absurd (List.append_inj_right' h rfl) (by decide)
    · -- the at-rule is too long
      have hall := hopen _ [] (List.prefix_refl _) Text.allWhite_nil
      rw [List.append_nil] at hall
      have hrule : '@' :: (u ++ '\x7b' :: (v ++ [';', 'x'])) = '@' :: (u ++ '\x7b' :: (v ++ [';'])) ++ ['x'] := by simp
      rw [hall, hrule, Text.trim_eq_self rfl rfl (by decide) (by decide)]
      intro h
      exact absurd (List.append_right_eq_self.1 h) (by decide)

/-- A statement whose strings are closed and whose round brackets are balanced is read as one at-rule before all that
follows it, exactly if no semicolon and no brace in it is outside strings. -/
theorem parse_statement_append_iff (ht : Balanced .round [';', '\x7b'] t)
    (hc : ¬ "/*".toList <:+: '@' :: (t ++ [';'])) :
    (∀ rest, ¬ "/*".toList <:+: '@' :: (t ++ [';']) ++ rest →
      Stylesheet.parse ('@' :: (t ++ [';']) ++ rest) = .append ⟨[], ['@' :: (t ++ [';'])]⟩ (Stylesheet.parse rest)) ↔
      Balanced .none [';', '\x7b'] t := by
  constructor
  · intro hall
    cases FirstMark.of_balanced rfl ht [';', '\x7b'] with
    | missing h => exact h
    | @found u v m hu hm =>
      -- one letter after the statement is enough to see where it ends
      have hx : ¬ "/*".toList <:+: '@' :: (u ++ m :: v ++ [';']) ++ ['x'] := by
        rw [Text.infix_append_cons_iff (by decide), not_or]
        exact ⟨hc, by decide⟩
      have hatRules := congrArg (·.atRules.head?) (hall ['x'] hx)
      have htext : '@' :: (u ++ m :: v ++ [';']) ++ ['x'] = '@' :: (u ++ m :: (v ++ [';', 'x'])) := by simp
      have htext' : '@' :: (u ++ m :: v ++ [';']) = '@' :: (u ++ m :: (v ++ [';'])) := by simp
      rw [Stylesheet.parse, stripComments_eq_self hx, htext, items_of_at rfl, htext'] at hatRules
      exact absurd (Option.some.inj hatRules) (cutAtRule_ne hm hu v)
  · intro h rest hrest
    exact parse_append_of_isClosed rfl (isClosed_statement h) hrest

/-- An import whose address is a string in brackets, without the marks at its two ends. -/
def quotedImport : Text := "import url".toList ++ '(' :: ('"' :: (['a', ';', 'b'] ++ ['"']) ++ [')'])

theorem parse_statement_append_iff_quotedImport : Balanced .round [';', '\x7b'] quotedImport ∧
    ¬ "/*".toList <:+: '@' :: (quotedImport ++ [';']) ∧ Balanced .none [';', '\x7b'] quotedImport ∧
    ∀ rest, ¬ "/*".toList <:+: '@' :: (quotedImport ++ [';']) ++ rest →
      Stylesheet.parse ('@' :: (quotedImport ++ [';']) ++ rest) =
        .append ⟨[], ['@' :: (quotedImport ++ [';'])]⟩ (Stylesheet.parse rest) := by
  have hstring : ∀ {b : Brackets} {marks : List Char}, Balanced b marks ('"' :: (['a', ';', 'b'] ++ ['"'])) :=
    .string (by decide) (.plain (by decide) (by decide) (.plain (by decide) (by decide)
      (.plain (by decide) (by decide) .nil))) .nil
  have hround : Balanced .round [';', '\x7b'] quotedImport :=
    .append (.of_all (by decide)) (.brackets (by decide) (by decide) hstring .nil)
  have hnone : Balanced .none [';', '\x7b'] quotedImport :=
    .append (.of_all (by decide)) (.plain (by decide) (by decide) (by decide) (by decide) (hstring.append
      (.of_all (by decide))))
  have hcomment : ¬ "/*".toList <:+: '@' :: (quotedImport ++ [';']) := by decide +kernel
  exact ⟨hround, hcomment, hnone, (parse_statement_append_iff hround hcomment).2 hnone⟩

/-- A semicolon in the brackets of an address ends the import, and the rule behind it is lost. -/
theorem not_forall_parse_statement_append : ¬ ∀ t rest : Text, Balanced .round [';', '\x7b'] t →
    ¬ "/*".toList <:+: '@' :: (t ++ [';']) ++ rest →
    Stylesheet.parse ('@' :: (t ++ [';']) ++ rest) = .append ⟨[], ['@' :: (t ++ [';'])]⟩ (Stylesheet.parse rest) := by
  intro hall
  have hread := hall
    ("import url".toList ++ '(' :: ("https://fonts.googleapis.com/css2?family=Inter:wght@400;700".toList ++ [')']))
    "p\x7bmargin:0\x7d".toList
    (.append (.of_all (by decide)) (.brackets (by decide) (by decide) (.of_all (by decide)) .nil)) (by decide +kernel)
  revert hread
  decide +kernel

end MailTemplate.Css
