import MailTemplate.Css.SelectorParser
import MailTemplate.Proofs.Markup.Spelling
/-!
# How selectors are written

A grammar says how names, conditions, compounds, combinators and selectors are written. A name, an operand or a condition
that is written is read back whatever follows it, if that does not go on with it (`readName_of_isName`,
`readCondition?_of_written`), and whatever is read was written (`exists_isName_of_readName`,
`written_of_readCondition?`).
-/
namespace MailTemplate.Css

variable {c z : Char} {name value s t w w' x x' rest : Text} {k : Comparison}

/-! ## The grammar -/

/-- What stands in a name without a backslash: an ASCII letter or digit, a dash, an underscore, or any character outside
ASCII. -/
def IsPlain (c : Char) : Prop := c.isAlphanum = true ∨ c = '-' ∨ c = '_' ∨ 0x80 ≤ c.toNat

instance (c : Char) : Decidable (IsPlain c) := inferInstanceAs (Decidable (_ ∨ _))

/-- How the characters of a name are written: each may stand behind a backslash, and has to if it is not plain. -/
inductive SpelledOut : Text → Text → Prop
  | nil : SpelledOut [] []
  | plain {c : Char} {name s : Text} : IsPlain c → SpelledOut name s → SpelledOut (c :: name) (c :: s)
  | escaped {c : Char} {name s : Text} : SpelledOut name s → SpelledOut (c :: name) ('\\' :: c :: s)

/-- A name, which may not be empty, and how it is written. -/
structure IsName (name s : Text) : Prop where
  ne_nil : name ≠ []
  spelledOut : SpelledOut name s

/-- An operand of an attribute test, between quotes, where a backslash is a character as any other, or as a name. -/
inductive IsOperand : Text → Text → Prop
  | quoted {q : Char} {value : Text} : Text.isQuote q = true → q ∉ value → IsOperand value (q :: (value ++ [q]))
  | name {value s : Text} : IsName value s → IsOperand value s

/-- The mark of a comparison. -/
def Comparison.mark : Comparison → Text
  | equal => ['=']
  | word => ['~', '=']
  | dash => ['|', '=']
  | start => ['^', '=']
  | finish => ['$', '=']
  | within => ['*', '=']

/-- How a condition is written. -/
inductive Simple.Written : Simple → Text → Prop
  | ofClass {name s : Text} : IsName name s → Written (.ofClass name) ('.' :: s)
  | id {name s : Text} : IsName name s → Written (.id name) ('#' :: s)
  | firstChild {name s : Text} : IsName name s → Text.sameLetters name "first-child".toList = true →
      Written .firstChild (':' :: s)
  | lastChild {name s : Text} : IsName name s → Text.sameLetters name "last-child".toList = true →
      Written .lastChild (':' :: s)
  | present {name s w w' : Text} : w.AllBlank → IsName name s → w'.AllBlank →
      Written (.present name) ('[' :: (w ++ (s ++ (w' ++ [']']))))
  | compare {name value s t w w' x x' : Text} (k : Comparison) : w.AllBlank → IsName name s → w'.AllBlank →
      x.AllBlank → IsOperand value t → x'.AllBlank →
      Written (.compare name k value) ('[' :: (w ++ (s ++ (w' ++ (k.mark ++ (x ++ (t ++ (x' ++ [']']))))))))

/-- How conditions are written, one after the other. -/
inductive ConditionsWritten : List Simple → Text → Prop
  | nil : ConditionsWritten [] []
  | cons {a : Simple} {as : List Simple} {s t : Text} : a.Written s → ConditionsWritten as t →
      ConditionsWritten (a :: as) (s ++ t)

/-- How a type is written; `*` is written for none. -/
inductive TypeWritten : Option Text → Text → Prop
  | absent : TypeWritten none []
  | any : TypeWritten none ['*']
  | name {name s : Text} : IsName name s → TypeWritten (some name) s

/-- How a compound is written, which may not be with nothing. -/
def Compound.Written (c : Compound) (s : Text) : Prop :=
  s ≠ [] ∧ ∃ t u, s = t ++ u ∧ TypeWritten c.type t ∧ ConditionsWritten c.conditions u

/-- How a combinator is written: with a mark among blanks, or with blanks alone. -/
inductive Combinator.Written : Combinator → Text → Prop
  | descendant {w : Text} : w ≠ [] → w.AllBlank → Written .descendant w
  | child {w w' : Text} : w.AllBlank → w'.AllBlank → Written .child (w ++ '>' :: w')
  | adjacent {w w' : Text} : w.AllBlank → w'.AllBlank → Written .adjacent (w ++ '+' :: w')
  | sibling {w w' : Text} : w.AllBlank → w'.AllBlank → Written .sibling (w ++ '~' :: w')

/-- How compounds with combinators between them are written. -/
inductive SelectorWritten : List Compound → List Combinator → Text → Prop
  | single {c : Compound} {s : Text} : c.Written s → SelectorWritten [c] [] s
  | cons {c : Compound} {k : Combinator} {cs : List Compound} {ks : List Combinator} {s t u : Text} : c.Written s →
      k.Written t → SelectorWritten cs ks u → SelectorWritten (c :: cs) (k :: ks) (s ++ (t ++ u))

/-! ## Characters -/

theorem isNameChar_iff : isNameChar c = true ↔ IsPlain c := by
  simp [isNameChar, IsPlain, or_assoc]

theorem IsPlain.ne (h : IsPlain c) (hz : ¬ IsPlain z) : c ≠ z := by
  rintro rfl
  exact hz h

theorem not_isPlain_of_isBlank (h : Text.isBlank c = true) : ¬ IsPlain c := by
  simp only [Text.isBlank, Bool.or_eq_true, beq_iff_eq] at h
  rcases h with (((rfl | rfl) | rfl) | rfl) | rfl <;> decide

theorem not_isPlain_of_isQuote (h : Text.isQuote c = true) : ¬ IsPlain c := by
  simp only [Text.isQuote, Bool.or_eq_true, beq_iff_eq] at h
  rcases h with rfl | rfl <;> decide

/-- Whether a character goes on with a name. -/
def ContinuesName (c : Char) : Prop := IsPlain c ∨ c = '\\'

instance (c : Char) : Decidable (ContinuesName c) := inferInstanceAs (Decidable (_ ∨ _))

/-- Whether a name before a text is over: a name runs on into nothing else than what could stand in it. -/
def EndsName (s : Text) : Prop := ∀ c, s.head? = some c → ¬ ContinuesName c

theorem endsName_cons (h : ¬ ContinuesName c) : EndsName (c :: s) := by
  rintro _ ⟨⟩
  exact h

theorem not_continuesName_of_isBlank (h : Text.isBlank c = true) : ¬ ContinuesName c := by
  rintro (hplain | rfl)
  · exact not_isPlain_of_isBlank h hplain
  · exact absurd h (by decide)

theorem not_continuesName_of_isQuote (h : Text.isQuote c = true) : ¬ ContinuesName c := by
  rintro (hplain | rfl)
  · exact not_isPlain_of_isQuote h hplain
  · exact absurd h (by decide)

theorem endsName_blanks_append (hw : w.AllBlank) (hs : EndsName s) : EndsName (w ++ s) := by
  cases w with
  | nil => exact hs
  | cons c w => exact endsName_cons (not_continuesName_of_isBlank (hw c List.mem_cons_self))

theorem SpelledOut.head (h : SpelledOut name s) (hne : name ≠ []) : ∃ c t, s = c :: t ∧ ContinuesName c := by
  cases h with
  | nil => exact absurd rfl hne
  | plain hc _ => exact ⟨_, _, rfl, .inl hc⟩
  | escaped _ => exact ⟨_, _, rfl, .inr rfl⟩

theorem IsName.head (h : IsName name s) : ∃ c t, s = c :: t ∧ ContinuesName c := h.spelledOut.head h.ne_nil

/-! ## Names -/

theorem spanName_of_spelledOut (h : SpelledOut name s) (hrest : EndsName rest) :
    spanName (s ++ rest) = .ok (name, rest) := by
  induction h with
  | nil =>
    cases rest with
    | nil => rfl
    | cons c rest =>
      have hc := hrest c rfl
      rw [ContinuesName, not_or, ← isNameChar_iff] at hc
      rw [List.nil_append, spanName.eq_def]
      simp only [if_neg hc.1, if_neg hc.2]
  | plain hc _ ih =>
    rw [List.cons_append, spanName.eq_def]
    simp only [if_neg (hc.ne (by decide : ¬ IsPlain '\\')), if_pos (isNameChar_iff.2 hc), ih]
    rfl
  | escaped _ ih =>
    rw [List.cons_append, List.cons_append, spanName.eq_def]
    simp only [if_pos, ih]
    rfl

theorem exists_spelledOut_of_spanName (h : spanName s = .ok (name, rest)) :
    ∃ t, s = t ++ rest ∧ SpelledOut name t := by
  fun_induction spanName s generalizing name rest with
  | case1 =>
    obtain ⟨rfl, rfl⟩ := by simpa using h
    exact ⟨[], rfl, .nil⟩
  | case2 => cases h
  | case3 c s ih =>
    obtain ⟨⟨n, r⟩, hs, he⟩ := exists_of_map_eq_ok h
    obtain ⟨rfl, rfl⟩ := by simpa using he
    obtain ⟨t, rfl, ht⟩ := ih hs
    exact ⟨'\\' :: c :: t, rfl, .escaped ht⟩
  | case4 c s _ hc ih =>
    obtain ⟨⟨n, r⟩, hs, he⟩ := exists_of_map_eq_ok h
    obtain ⟨rfl, rfl⟩ := by simpa using he
    obtain ⟨t, rfl, ht⟩ := ih hs
    exact ⟨c :: t, rfl, .plain (isNameChar_iff.1 hc) ht⟩
  | case5 c s =>
    obtain ⟨rfl, rfl⟩ := by simpa using h
    exact ⟨[], rfl, .nil⟩

theorem readName_of_isName (h : IsName name s) (hrest : EndsName rest) : readName (s ++ rest) = .ok (name, rest) := by
  rw [readName, spanName_of_spelledOut h.spelledOut hrest]
  exact if_neg h.ne_nil

theorem exists_isName_of_readName (h : readName s = .ok (name, rest)) : ∃ t, s = t ++ rest ∧ IsName name t := by
  unfold readName at h
  split at h
  · cases h
  · next n r hs =>
    split at h
    · cases h
    · next hne =>
      obtain ⟨rfl, rfl⟩ := by simpa using h
      obtain ⟨t, rfl, ht⟩ := exists_spelledOut_of_spanName hs
      exact ⟨t, rfl, hne, ht⟩

/-! ## Attribute tests -/

theorem exists_skipBlanks (s : Text) : ∃ w, w.AllBlank ∧ s = w ++ skipBlanks s :=
  ⟨s.takeWhile Text.isBlank, fun _ hc => List.mem_takeWhile_imp hc, List.takeWhile_append_dropWhile.symm⟩

theorem skipBlanks_blanks_append (hw : w.AllBlank) (hs : ∀ c, s.head? = some c → Text.isBlank c = false) :
    skipBlanks (w ++ s) = s := Text.dropWhile_append_stop hw hs

theorem skipBlanks_blanks_append_cons (hw : w.AllBlank) (hc : Text.isBlank c = false) :
    skipBlanks (w ++ c :: s) = c :: s := by
  apply skipBlanks_blanks_append hw
  rintro _ ⟨⟩
  exact hc

theorem isBlank_of_continuesName (h : ContinuesName c) : Text.isBlank c = false := by
  rw [Bool.eq_false_iff]
  exact fun hb => not_continuesName_of_isBlank hb h

theorem readOperand_of_isOperand (h : IsOperand value s) (hrest : EndsName rest) :
    readOperand (s ++ rest) = .ok (value, rest) := by
  cases h with
  | quoted hq hv =>
    rw [List.cons_append, readOperand, if_pos hq, List.append_assoc, List.singleton_append, Text.cut?_singleton hv]
  | name h =>
    obtain ⟨c, t, rfl, hc⟩ := h.head
    have hq : ¬ Text.isQuote c = true := fun hq => not_continuesName_of_isQuote hq hc
    rw [List.cons_append, readOperand, if_neg hq]
    exact readName_of_isName h hrest

theorem exists_isOperand_of_readOperand (h : readOperand s = .ok (value, rest)) :
    ∃ t, s = t ++ rest ∧ IsOperand value t := by
  unfold readOperand at h
  split at h
  · cases h
  · next c s =>
    split at h
    · next hq =>
      split at h
      · cases h
      · next p hcut =>
        obtain rfl := Except.ok.inj h
        refine ⟨c :: (value ++ [c]), ?_, .quoted hq (Text.not_mem_of_cut? hcut)⟩
        rw [Text.eq_append_of_cut? hcut, List.cons_append]
    · obtain ⟨t, ht, hname⟩ := exists_isName_of_readName h
      exact ⟨t, ht, .name hname⟩

theorem IsOperand.head (h : IsOperand value s) : ∃ c t, s = c :: t ∧ Text.isBlank c = false := by
  cases h with
  | quoted hq _ => exact ⟨_, _, rfl, Tag.isBlank_of_isQuote hq⟩
  | name h =>
    obtain ⟨c, t, rfl, hc⟩ := h.head
    exact ⟨c, t, rfl, isBlank_of_continuesName hc⟩

/-- After a comparison its operand is read, up to the bracket. -/
theorem readComparison_of_isOperand (k : Comparison) (hx : x.AllBlank) (ht : IsOperand value t) (hx' : x'.AllBlank) :
    readComparison name k (x ++ (t ++ (x' ++ ']' :: rest))) = .ok (.compare name k value, rest) := by
  have hskip : skipBlanks (x ++ (t ++ (x' ++ ']' :: rest))) = t ++ (x' ++ ']' :: rest) := by
    obtain ⟨c, t, rfl, hc⟩ := ht.head
    exact skipBlanks_blanks_append_cons hx hc
  have hends : EndsName (x' ++ ']' :: rest) := endsName_blanks_append hx' (endsName_cons (by decide))
  have hbracket : skipBlanks (x' ++ ']' :: rest) = ']' :: rest := skipBlanks_blanks_append_cons hx' (by decide)
  unfold readComparison
  simp only [hskip, readOperand_of_isOperand ht hends, hbracket]

theorem exists_isOperand_of_readComparison {a : Simple} (h : readComparison name k s = .ok (a, rest)) :
    ∃ value x t x', s = x ++ (t ++ (x' ++ ']' :: rest)) ∧ x.AllBlank ∧ IsOperand value t ∧ x'.AllBlank ∧
      a = .compare name k value := by
  unfold readComparison at h
  split at h
  · cases h
  · next value r hoperand =>
    obtain ⟨x, hx, hs⟩ := exists_skipBlanks s
    obtain ⟨t, hr, ht⟩ := exists_isOperand_of_readOperand hoperand
    obtain ⟨x', hx', hr'⟩ := exists_skipBlanks r
    split at h
    · next heq =>
      obtain ⟨rfl, rfl⟩ := by simpa using h
      rw [heq] at hr'
      exact ⟨value, x, t, x', by rw [← hr', ← hr, ← hs], hx, ht, hx', rfl⟩
    · cases h

theorem readTest_present (hw : w.AllBlank) (hs : IsName name s) (hw' : w'.AllBlank) :
    readTest (w ++ (s ++ (w' ++ ']' :: rest))) = .ok (.present name, rest) := by
  have hskip : skipBlanks (w ++ (s ++ (w' ++ ']' :: rest))) = s ++ (w' ++ ']' :: rest) := by
    obtain ⟨c, t, rfl, hc⟩ := hs.head
    exact skipBlanks_blanks_append_cons hw (isBlank_of_continuesName hc)
  have hends : EndsName (w' ++ ']' :: rest) := endsName_blanks_append hw' (endsName_cons (by decide))
  have hbracket : skipBlanks (w' ++ ']' :: rest) = ']' :: rest := skipBlanks_blanks_append_cons hw' (by decide)
  unfold readTest
  simp only [hskip, readName_of_isName hs hends, hbracket]

/-- After the name of a test its comparison is read. -/
theorem readTest_compare (k : Comparison) (hw : w.AllBlank) (hs : IsName name s) (hw' : w'.AllBlank) :
    readTest (w ++ (s ++ (w' ++ (k.mark ++ rest)))) = readComparison name k rest := by
  have hmark : ∃ c m, k.mark = c :: m ∧ ¬ ContinuesName c ∧ Text.isBlank c = false := by
    cases k <;> exact ⟨_, _, rfl, by decide, by decide⟩
  obtain ⟨m, marks, hm, hname, hblank⟩ := hmark
  have hskip : skipBlanks (w ++ (s ++ (w' ++ (k.mark ++ rest)))) = s ++ (w' ++ (k.mark ++ rest)) := by
    obtain ⟨c, t, rfl, hc⟩ := hs.head
    exact skipBlanks_blanks_append_cons hw (isBlank_of_continuesName hc)
  have hends : EndsName (w' ++ (k.mark ++ rest)) := by
    rw [hm]
    exact endsName_blanks_append hw' (endsName_cons hname)
  have hskip' : skipBlanks (w' ++ (k.mark ++ rest)) = k.mark ++ rest := by
    rw [hm]
    exact skipBlanks_blanks_append_cons hw' hblank
  unfold readTest
  simp only [hskip, readName_of_isName hs hends, hskip']
  cases k <;> rfl

theorem mark_of_comparisonOf? (h : comparisonOf? c = some k) : k.mark = [c, '='] := by
  unfold comparisonOf? at h
  split at h <;> cases h <;> rfl

theorem written_of_readTest {a : Simple} (h : readTest s = .ok (a, rest)) :
    ∃ t, '[' :: s = t ++ rest ∧ a.Written t := by
  unfold readTest at h
  split at h
  · cases h
  · next name r hname =>
    obtain ⟨w, hw, hs⟩ := exists_skipBlanks s
    obtain ⟨t, hr, ht⟩ := exists_isName_of_readName hname
    obtain ⟨w', hw', hr'⟩ := exists_skipBlanks r
    rw [hr, hr'] at hs
    -- what stands after a mark is read as a comparison with it
    have hcompare : ∀ (k : Comparison) (s' : Text), skipBlanks r = k.mark ++ s' →
        readComparison name k s' = .ok (a, rest) → ∃ u, '[' :: s = u ++ rest ∧ a.Written u := by
      intro k s' hk hread
      obtain ⟨value, x, v, x', rfl, hx, hv, hx', rfl⟩ := exists_isOperand_of_readComparison hread
      refine ⟨_, ?_, .compare k hw ht hw' hx hv hx'⟩
      rw [hs, hk]
      simp
    split at h
    · next heq =>
      obtain ⟨rfl, rfl⟩ := by simpa using h
      refine ⟨_, ?_, .present hw ht hw'⟩
      rw [hs, heq]
      simp
    · next heq => exact hcompare .equal _ heq h
    · next c s' _ _ heq =>
      split at h
      · cases h
      · next k hk => exact hcompare k s' (by rw [heq, mark_of_comparisonOf? hk]; rfl) h
    · cases h

/-! ## Conditions -/

theorem readPseudoClass_of_isName (h : IsName name s) (hrest : EndsName rest) :
    (Text.sameLetters name "first-child".toList = true → readPseudoClass (s ++ rest) = .ok (.firstChild, rest)) ∧
      (Text.sameLetters name "last-child".toList = true → readPseudoClass (s ++ rest) = .ok (.lastChild, rest)) := by
  obtain ⟨c, t, rfl, hc⟩ := h.head
  have hcolon : ¬ (c :: t ++ rest).head? = some ':' := by
    rintro ⟨⟩
    exact absurd hc (by decide)
  have hfirst : Text.lower "first-child".toList = "first-child".toList := by decide
  have hlast : Text.lower "last-child".toList = "last-child".toList := by decide
  rw [Text.sameLetters_iff, Text.sameLetters_iff, hfirst, hlast]
  unfold readPseudoClass
  rw [if_neg hcolon, readName_of_isName h hrest]
  constructor
  · intro hname
    exact if_pos hname
  · intro hname
    simp only [hname]
    rfl

theorem written_of_readPseudoClass {a : Simple} (h : readPseudoClass s = .ok (a, rest)) :
    ∃ t, ':' :: s = t ++ rest ∧ a.Written t := by
  unfold readPseudoClass at h
  split at h
  · cases h
  · split at h
    · cases h
    · next name r hname =>
      obtain ⟨t, rfl, ht⟩ := exists_isName_of_readName hname
      split at h
      · next hfirst =>
        obtain ⟨rfl, rfl⟩ := by simpa using h
        exact ⟨':' :: t, rfl, .firstChild ht (Text.sameLetters_iff.2 hfirst)⟩
      · split at h
        · next hlast =>
          obtain ⟨rfl, rfl⟩ := by simpa using h
          exact ⟨':' :: t, rfl, .lastChild ht (Text.sameLetters_iff.2 hlast)⟩
        · cases h

theorem readCondition?_of_written {a : Simple} (h : a.Written s) (hrest : EndsName rest) :
    readCondition? (s ++ rest) = some (.ok (a, rest)) := by
  cases h with
  | ofClass h => rw [List.cons_append, readCondition?, readName_of_isName h hrest]; rfl
  | id h => rw [List.cons_append, readCondition?, readName_of_isName h hrest]; rfl
  | firstChild h hname =>
    rw [List.cons_append, readCondition?, (readPseudoClass_of_isName h hrest).1 hname]
  | lastChild h hname =>
    rw [List.cons_append, readCondition?, (readPseudoClass_of_isName h hrest).2 hname]
  | present hw h hw' =>
    rw [List.cons_append, readCondition?]
    simp only [List.append_assoc, List.singleton_append]
    rw [readTest_present hw h hw']
  | compare k hw h hw' hx ht hx' =>
    rw [List.cons_append, readCondition?]
    simp only [List.append_assoc, List.singleton_append]
    rw [readTest_compare k hw h hw', readComparison_of_isOperand k hx ht hx']

theorem written_of_readCondition? {a : Simple} (h : readCondition? s = some (.ok (a, rest))) :
    ∃ t, s = t ++ rest ∧ a.Written t := by
  unfold readCondition? at h
  split at h
  · next s =>
    obtain ⟨⟨name, r⟩, hname, he⟩ := exists_of_map_eq_ok (Option.some.inj h)
    obtain ⟨rfl, rfl⟩ := by simpa using he
    obtain ⟨t, rfl, ht⟩ := exists_isName_of_readName hname
    exact ⟨'.' :: t, rfl, .ofClass ht⟩
  · next s =>
    obtain ⟨⟨name, r⟩, hname, he⟩ := exists_of_map_eq_ok (Option.some.inj h)
    obtain ⟨rfl, rfl⟩ := by simpa using he
    obtain ⟨t, rfl, ht⟩ := exists_isName_of_readName hname
    exact ⟨'#' :: t, rfl, .id ht⟩
  · exact written_of_readTest (Option.some.inj h)
  · exact written_of_readPseudoClass (Option.some.inj h)
  · cases h

end MailTemplate.Css
