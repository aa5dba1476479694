import MailTemplate.Proofs.Css.Meaning
import MailTemplate.Proofs.Css.SelectorGrammar
import MailTemplate.Proofs.Text.Trimming
/-!
# Selectors are read as they are written

A compound is read back where a combinator or the end follows it (`readCompound_of_written`), and a combinator where a
compound does (`readCombinator_of_written`). So the selectors that are read are those that the grammar allows, and a text
is written for one row of compounds and combinators at most (`parse_iff_written`).
-/
namespace MailTemplate.Css

variable {c : Char} {s t rest : Text}

/-! ## Conditions in a row -/

/-- Whether a character begins a combinator. -/
def OpensCombinator (c : Char) : Prop := Text.isBlank c = true ∨ c = '>' ∨ c = '+' ∨ c = '~'

instance (c : Char) : Decidable (OpensCombinator c) := inferInstanceAs (Decidable (_ ∨ _))

/-- Whether a compound before a text is over. -/
def EndsCompound (s : Text) : Prop := ∀ c, s.head? = some c → OpensCombinator c

theorem endsCompound_nil : EndsCompound [] := by
  rintro _ ⟨⟩

theorem not_continuesName_of_opensCombinator (h : OpensCombinator c) : ¬ ContinuesName c := by
  rcases h with hb | rfl | rfl | rfl
  · exact not_continuesName_of_isBlank hb
  all_goals decide

theorem EndsCompound.endsName (h : EndsCompound s) : EndsName s := fun c hc =>
  not_continuesName_of_opensCombinator (h c hc)

theorem Simple.Written.head {a : Simple} (h : a.Written s) :
    ∃ c t, s = c :: t ∧ ¬ ContinuesName c ∧ ¬ OpensCombinator c ∧ c ≠ '*' := by
  cases h <;> exact ⟨_, _, rfl, by decide, by decide, by decide⟩

/-- Conditions go on neither with a type before them nor with nothing. -/
theorem ConditionsWritten.head {as : List Simple} (h : ConditionsWritten as s) (hrest : EndsCompound rest) :
    EndsName (s ++ rest) ∧ (s ++ rest).head? ≠ some '*' := by
  cases h with
  | nil =>
    refine ⟨hrest.endsName, fun hstar => ?_⟩
    exact absurd (hrest '*' hstar) (by decide)
  | cons ha _ =>
    obtain ⟨c, t, rfl, hname, -, hstar⟩ := ha.head
    exact ⟨endsName_cons hname, fun h => hstar (Option.some.inj h)⟩

theorem readConditions_of_none (h : readCondition? s = none) : readConditions s = .ok ([], s) := by
  rw [readConditions]
  split
  · rfl
  · next h' => rw [h] at h'; cases h'
  · next h' => rw [h] at h'; cases h'

theorem readConditions_of_error {e : Refusal} (h : readCondition? s = some (.error e)) :
    readConditions s = .error e := by
  rw [readConditions]
  split
  · next h' => rw [h] at h'; cases h'
  · next h' =>
    rw [h] at h'
    cases h'
    rfl
  · next h' => rw [h] at h'; cases h'

theorem readConditions_of_ok {a : Simple} (h : readCondition? s = some (.ok (a, rest))) :
    readConditions s = (readConditions rest).map fun (as, rest) => (a :: as, rest) := by
  rw [readConditions]
  split
  · next h' => rw [h] at h'; cases h'
  · next h' => rw [h] at h'; cases h'
  · next h' =>
    rw [h] at h'
    cases h'
    rfl

theorem readCondition?_of_endsCompound (h : EndsCompound s) : readCondition? s = none := by
  unfold readCondition?
  split
  case h_5 => rfl
  all_goals exact absurd (h _ rfl) (by decide)

theorem readConditions_of_written {as : List Simple} (h : ConditionsWritten as s) (hrest : EndsCompound rest) :
    readConditions (s ++ rest) = .ok (as, rest) := by
  induction h with
  | nil => exact readConditions_of_none (readCondition?_of_endsCompound hrest)
  | cons ha has ih =>
    rw [List.append_assoc, readConditions_of_ok (readCondition?_of_written ha (has.head hrest).1), ih]
    rfl

theorem exists_written_of_readConditions {as : List Simple} (h : readConditions s = .ok (as, rest)) :
    ∃ t, s = t ++ rest ∧ ConditionsWritten as t := by
  fun_induction readConditions s generalizing as rest with
  | case1 s _ =>
    obtain ⟨rfl, rfl⟩ := by simpa using h
    exact ⟨[], rfl, .nil⟩
  | case2 => cases h
  | case3 s a r hread ih =>
    obtain ⟨⟨as', r'⟩, hr, he⟩ := exists_of_map_eq_ok h
    obtain ⟨rfl, rfl⟩ := by simpa using he
    obtain ⟨t, rfl, ha⟩ := written_of_readCondition? hread
    obtain ⟨u, rfl, has⟩ := ih hr
    exact ⟨t ++ u, by rw [List.append_assoc], .cons ha has⟩

/-! ## Compounds -/

theorem readType_of_written {type : Option Text} (h : TypeWritten type s) (hrest : EndsName rest)
    (hstar : rest.head? ≠ some '*') : readType (s ++ rest) = .ok (type, rest) := by
  cases h with
  | absent =>
    cases rest with
    | nil => rfl
    | cons c rest =>
      have hc := hrest c rfl
      have hname : ¬ (isNameChar c || c == '\\') = true := by
        rwa [Bool.or_eq_true, isNameChar_iff, beq_iff_eq]
      have hne : c ≠ '*' := fun he => hstar (congrArg some he)
      rw [List.nil_append, readType, if_neg hne, if_neg hname]
  | any => rfl
  | name h =>
    obtain ⟨c, t, rfl, hc⟩ := h.head
    have hname : (isNameChar c || c == '\\') = true := by
      rwa [Bool.or_eq_true, isNameChar_iff, beq_iff_eq]
    have hne : c ≠ '*' := by
      rintro rfl
      exact absurd hc (by decide)
    rw [List.cons_append, readType, if_neg hne, if_pos hname, ← List.cons_append, readName_of_isName h hrest]
    rfl

theorem exists_written_of_readType {type : Option Text} (h : readType s = .ok (type, rest)) :
    ∃ t, s = t ++ rest ∧ TypeWritten type t := by
  unfold readType at h
  split at h
  · obtain ⟨rfl, rfl⟩ := by simpa using h
    exact ⟨[], rfl, .absent⟩
  · next c s =>
    split at h
    · next hstar =>
      obtain ⟨rfl, rfl⟩ := by simpa using h
      exact ⟨['*'], by rw [hstar]; rfl, .any⟩
    · split at h
      · obtain ⟨⟨name, r⟩, hname, he⟩ := exists_of_map_eq_ok h
        obtain ⟨rfl, rfl⟩ := by simpa using he
        obtain ⟨t, ht, hname⟩ := exists_isName_of_readName hname
        exact ⟨t, ht, .name hname⟩
      · obtain ⟨rfl, rfl⟩ := by simpa using h
        exact ⟨[], rfl, .absent⟩

theorem Compound.Written.head {c : Compound} (h : c.Written s) : ∃ z t, s = z :: t ∧ ¬ OpensCombinator z := by
  obtain ⟨type, conditions⟩ := c
  obtain ⟨hne, t, u, rfl, ht, hu⟩ := h
  cases ht with
  | absent =>
    cases hu with
    | nil => exact absurd rfl hne
    | cons ha _ =>
      obtain ⟨z, v, rfl, -, hz, -⟩ := ha.head
      exact ⟨z, _, rfl, hz⟩
  | any => exact ⟨'*', u, rfl, by decide⟩
  | name hname =>
    obtain ⟨z, v, rfl, hz⟩ := hname.head
    exact ⟨z, _, rfl, fun h => not_continuesName_of_opensCombinator h hz⟩

theorem readCompound_of_written {c : Compound} (h : c.Written s) (hrest : EndsCompound rest) :
    readCompound (s ++ rest) = .ok (c, rest) := by
  obtain ⟨hne, t, u, rfl, ht, hu⟩ := h
  have hends := hu.head hrest
  have hlength : rest.length ≠ (t ++ u ++ rest).length := by
    have := List.length_pos_iff.2 hne
    rw [List.length_append]
    omega
  unfold readCompound
  rw [List.append_assoc, readType_of_written ht hends.1 hends.2]
  dsimp only
  rw [readConditions_of_written hu hrest]
  dsimp only
  rw [← List.append_assoc, if_neg hlength]

theorem exists_written_of_readCompound {c : Compound} (h : readCompound s = .ok (c, rest)) :
    ∃ t, s = t ++ rest ∧ c.Written t := by
  unfold readCompound at h
  split at h
  · cases h
  · next type afterType htype =>
    split at h
    · cases h
    · next conditions r hconditions =>
      obtain ⟨t, rfl, ht⟩ := exists_written_of_readType htype
      obtain ⟨u, rfl, hu⟩ := exists_written_of_readConditions hconditions
      split at h
      · cases h
      · next hlength =>
        obtain ⟨rfl, rfl⟩ := by simpa using h
        refine ⟨t ++ u, by rw [List.append_assoc], ?_, t, u, rfl, ht, hu⟩
        intro hnil
        exact hlength (by rw [← List.append_assoc, hnil, List.nil_append])

/-! ## Combinators -/

theorem Combinator.Written.head {k : Combinator} (h : k.Written s) : ∃ z t, s = z :: t ∧ OpensCombinator z := by
  have hmark : ∀ {w w' : Text} {m : Char}, w.AllBlank → OpensCombinator m →
      ∃ z t, w ++ m :: w' = z :: t ∧ OpensCombinator z := by
    intro w w' m hw hm
    cases w with
    | nil => exact ⟨m, w', rfl, hm⟩
    | cons c w => exact ⟨c, _, rfl, .inl (hw c List.mem_cons_self)⟩
  cases h with
  | descendant hne hw =>
    obtain ⟨c, w, rfl⟩ := List.exists_cons_of_ne_nil hne
    exact ⟨c, w, rfl, .inl (hw c List.mem_cons_self)⟩
  | child hw hw' => exact hmark hw (by decide)
  | adjacent hw hw' => exact hmark hw (by decide)
  | sibling hw hw' => exact hmark hw (by decide)

theorem readCombinator_of_written {k : Combinator} (h : k.Written t) (hc : ¬ OpensCombinator c) :
    readCombinator (t ++ c :: s) = .ok (k, c :: s) := by
  have hblank : Text.isBlank c = false := Bool.eq_false_iff.2 fun hb => hc (.inl hb)
  have hmark : ∀ {w w' : Text} {m : Char}, w.AllBlank → w'.AllBlank → Text.isBlank m = false →
      skipBlanks (w ++ m :: w' ++ c :: s) = m :: (w' ++ c :: s) ∧ skipBlanks (w' ++ c :: s) = c :: s := by
    intro w w' m hw hw' hm
    rw [List.append_assoc]
    exact ⟨skipBlanks_blanks_append_cons hw hm, skipBlanks_blanks_append_cons hw' hblank⟩
  unfold readCombinator
  cases h with
  | descendant hne hw =>
    have hlength : (c :: s).length < (t ++ c :: s).length := by
      have := List.length_pos_iff.2 hne
      rw [List.length_append]
      omega
    rw [skipBlanks_blanks_append_cons hw hblank]
    split
    case h_4 => rw [if_pos hlength]
    all_goals next heq => exact absurd (by rw [(List.cons.inj heq).1]; decide) hc
  | child hw hw' =>
    obtain ⟨h, h'⟩ := hmark hw hw' (show Text.isBlank '>' = false by decide)
    simp only [h, h']
  | adjacent hw hw' =>
    obtain ⟨h, h'⟩ := hmark hw hw' (show Text.isBlank '+' = false by decide)
    simp only [h, h']
  | sibling hw hw' =>
    obtain ⟨h, h'⟩ := hmark hw hw' (show Text.isBlank '~' = false by decide)
    simp only [h, h']

theorem exists_written_of_readCombinator {k : Combinator} (h : readCombinator s = .ok (k, rest)) :
    ∃ t, s = t ++ rest ∧ k.Written t := by
  obtain ⟨w, hw, hs⟩ := exists_skipBlanks s
  have hmark : ∀ {r : Text} {m : Char}, skipBlanks s = m :: r →
      ∃ w' : Text, w'.AllBlank ∧ s = (w ++ m :: w') ++ skipBlanks r := by
    intro r m hm
    obtain ⟨w', hw', hr⟩ := exists_skipBlanks r
    exact ⟨w', hw', by rw [List.append_assoc, List.cons_append, ← hr, ← hm, ← hs]⟩
  unfold readCombinator at h
  split at h
  · next heq =>
    obtain ⟨rfl, rfl⟩ := by simpa using h
    obtain ⟨w', hw', hs'⟩ := hmark heq
    exact ⟨_, hs', .child hw hw'⟩
  · next heq =>
    obtain ⟨rfl, rfl⟩ := by simpa using h
    obtain ⟨w', hw', hs'⟩ := hmark heq
    exact ⟨_, hs', .adjacent hw hw'⟩
  · next heq =>
    obtain ⟨rfl, rfl⟩ := by simpa using h
    obtain ⟨w', hw', hs'⟩ := hmark heq
    exact ⟨_, hs', .sibling hw hw'⟩
  · split at h
    · next hlength =>
      obtain ⟨rfl, rfl⟩ := by simpa using h
      refine ⟨w, hs, .descendant ?_ hw⟩
      rintro rfl
      rw [List.nil_append] at hs
      rw [← hs] at hlength
      exact Nat.lt_irrefl _ hlength
    · cases h

/-! ## Selectors -/

theorem SelectorWritten.head {cs : List Compound} {ks : List Combinator} (h : SelectorWritten cs ks s) :
    ∃ z t, s = z :: t ∧ ¬ OpensCombinator z := by
  cases h with
  | single hc => exact hc.head
  | cons hc _ _ =>
    obtain ⟨z, v, rfl, hz⟩ := hc.head
    exact ⟨z, _, rfl, hz⟩

theorem readContinuation_nil : readContinuation [] = .ok [] := by
  rw [readContinuation]
  rfl

theorem readContinuation_of_ok {k : Combinator} {c : Compound} {t u : Text} (h : skipBlanks s ≠ [])
    (hk : readCombinator s = .ok (k, t)) (hc : readCompound t = .ok (c, u)) :
    readContinuation s = (readContinuation u).map ((k, c) :: ·) := by
  rw [readContinuation, if_neg h]
  split
  · next h' => rw [hk] at h'; cases h'
  · next h' =>
    rw [hk] at h'
    cases h'
    split
    · next h' => rw [hc] at h'; cases h'
    · next h' =>
      rw [hc] at h'
      cases h'
      rfl

/-- What is written for compounds and combinators is read as these, from the first compound on. -/
theorem read_of_selectorWritten {cs : List Compound} {ks : List Combinator} (h : SelectorWritten cs ks s) :
    ∃ c t more, readCompound s = .ok (c, t) ∧ readContinuation t = .ok more ∧ cs = c :: more.map Prod.snd ∧
      ks = more.map Prod.fst := by
  induction h with
  | @single c s hc =>
    have hread := readCompound_of_written hc endsCompound_nil
    rw [List.append_nil] at hread
    exact ⟨c, [], [], hread, readContinuation_nil, rfl, rfl⟩
  | @cons c k cs ks s t u hc hk hu ih =>
    obtain ⟨c', t', more, hc', hmore, rfl, rfl⟩ := ih
    have hends : EndsCompound (t ++ u) := by
      obtain ⟨z, v, rfl, hz⟩ := hk.head
      rintro _ ⟨⟩
      exact hz
    obtain ⟨z, v, rfl, hz⟩ := hu.head
    have hskip : skipBlanks (t ++ z :: v) ≠ [] := by
      rw [skipBlanks, ne_eq, List.dropWhile_eq_nil_iff]
      exact fun hall => hz (.inl (hall z (by simp)))
    refine ⟨c, t ++ z :: v, (k, c') :: more, readCompound_of_written hc hends, ?_, rfl, rfl⟩
    rw [readContinuation_of_ok hskip (readCombinator_of_written hk hz) hc', hmore]
    rfl

/-- What is read from the first compound on was written for it, up to blanks at the end. -/
theorem exists_selectorWritten_of_read {c : Compound} {more : List (Combinator × Compound)}
    (hc : readCompound s = .ok (c, t)) (hmore : readContinuation t = .ok more) :
    ∃ u w, s = u ++ w ∧ w.AllBlank ∧ SelectorWritten (c :: more.map Prod.snd) (more.map Prod.fst) u := by
  fun_induction readContinuation t generalizing s c more with
  | case1 t hblank =>
    obtain rfl := Except.ok.inj hmore
    obtain ⟨u, rfl, hu⟩ := exists_written_of_readCompound hc
    exact ⟨u, t, rfl, List.dropWhile_eq_nil_iff.1 hblank, .single hu⟩
  | case2 => cases hmore
  | case3 => cases hmore
  | case4 t _ k r hk c' r' hc' ih =>
    obtain ⟨more', hmore', rfl⟩ := exists_of_map_eq_ok hmore
    obtain ⟨u, rfl, hu⟩ := exists_written_of_readCompound hc
    obtain ⟨v, rfl, hv⟩ := exists_written_of_readCombinator hk
    obtain ⟨u', w, rfl, hw, hu'⟩ := ih hc' hmore'
    exact ⟨u ++ (v ++ u'), w, by simp, hw, .cons hu hv hu'⟩

theorem parse_eq_ok_iff {x : Selector} : Selector.parse s = .ok x ↔ ∃ c t more,
    readCompound (Text.trim s) = .ok (c, t) ∧ readContinuation t = .ok more ∧ x = .ofParts (Text.trim s) c more := by
  unfold Selector.parse
  dsimp only
  constructor
  · intro h
    split at h
    · cases h
    · next c t hc =>
      cases hmore : readContinuation t with
      | error r =>
        rw [hmore] at h
        cases h
      | ok more =>
        rw [hmore] at h
        exact ⟨c, t, more, hc, hmore, (Except.ok.inj h).symm⟩
  · rintro ⟨c, t, more, hc, hmore, rfl⟩
    rw [hc]
    dsimp only
    rw [hmore]
    rfl

/-- A selector that is read was written for its compounds and combinators. -/
theorem selectorWritten_of_parse {x : Selector} (h : Selector.parse s = .ok x) :
    SelectorWritten x.compounds x.combinators (Text.trim s) ∧ x.source = Text.trim s := by
  obtain ⟨c, t, more, hc, hmore, rfl⟩ := parse_eq_ok_iff.1 h
  obtain ⟨hcompounds, hcombinators⟩ := Selector.parts_ofParts (Text.trim s) c more
  obtain ⟨u, w, hu, hw, hwritten⟩ := exists_selectorWritten_of_read hc hmore
  -- nothing is left of blanks at the end of what was trimmed
  have hnil : w = [] := by
    apply Text.eq_nil_of_trim_eq_append hu
    exact fun c hc => Text.isWhiteSpace_of_isBlank (hw c hc)
  refine ⟨?_, rfl⟩
  rw [hcompounds, hcombinators, hu, hnil, List.append_nil]
  exact hwritten

/-- A text is written for one row of compounds and combinators at most. -/
theorem SelectorWritten.unique {cs cs' : List Compound} {ks ks' : List Combinator} (h : SelectorWritten cs ks s)
    (h' : SelectorWritten cs' ks' s) : cs' = cs ∧ ks' = ks := by
  obtain ⟨c, t, more, hc, hmore, rfl, rfl⟩ := read_of_selectorWritten h
  obtain ⟨c', t', more', hc', hmore', rfl, rfl⟩ := read_of_selectorWritten h'
  rw [hc] at hc'
  cases hc'
  rw [hmore] at hmore'
  cases hmore'
  exact ⟨rfl, rfl⟩

/-- The selectors that are read are those that the grammar allows, as the compounds and combinators that they are written
for. -/
theorem parse_iff_written (s : Text) :
    ((∃ x, Selector.parse s = .ok x) ↔ ∃ cs ks, SelectorWritten cs ks (Text.trim s)) ∧
    ∀ cs ks, SelectorWritten cs ks (Text.trim s) →
      (∃ x, Selector.parse s = .ok x ∧ x.compounds = cs ∧ x.combinators = ks ∧ x.source = Text.trim s) ∧
      cs.length = ks.length + 1 ∧ ∀ cs' ks', SelectorWritten cs' ks' (Text.trim s) → cs' = cs ∧ ks' = ks := by
  have hread : ∀ cs ks, SelectorWritten cs ks (Text.trim s) →
      (∃ x, Selector.parse s = .ok x ∧ x.compounds = cs ∧ x.combinators = ks ∧ x.source = Text.trim s) ∧
        cs.length = ks.length + 1 := by
    intro cs ks h
    obtain ⟨c, t, more, hc, hmore, rfl, rfl⟩ := read_of_selectorWritten h
    obtain ⟨hcompounds, hcombinators⟩ := Selector.parts_ofParts (Text.trim s) c more
    exact ⟨⟨_, parse_eq_ok_iff.2 ⟨c, t, more, hc, hmore, rfl⟩, hcompounds, hcombinators, rfl⟩, by simp⟩
  refine ⟨⟨?_, ?_⟩, fun cs ks h => ⟨(hread cs ks h).1, (hread cs ks h).2, fun _ _ h' => h.unique h'⟩⟩
  · rintro ⟨x, hx⟩
    exact ⟨_, _, (selectorWritten_of_parse hx).1⟩
  · rintro ⟨cs, ks, h⟩
    obtain ⟨x, hx, -⟩ := (hread cs ks h).1
    exact ⟨x, hx⟩

/-- Cells with escapes, blanks and letters of both cases in their selector. -/
def totalCells : Text := " j\\:if > td.total[ title |= \"x,y\" ]:First-Child~*#sum ".toList

/-- The compounds of `totalCells`. -/
def totalCompounds : List Compound :=
  [⟨some "j:if".toList, []⟩, ⟨some "td".toList, [.ofClass "total".toList, .compare "title".toList .dash "x,y".toList,
    .firstChild]⟩, ⟨none, [.id "sum".toList]⟩]

theorem parse_iff_written_totalCells : SelectorWritten totalCompounds [.child, .sibling] (Text.trim totalCells) ∧
    ∃ x, Selector.parse totalCells = .ok x ∧ x.compounds = totalCompounds ∧ x.combinators = [.child, .sibling] ∧
      x.source = Text.trim totalCells := by
  have hparse : Selector.parse totalCells = .ok (.ofParts (Text.trim totalCells) ⟨some "j:if".toList, []⟩
      [(.child, ⟨some "td".toList, [.ofClass "total".toList, .compare "title".toList .dash "x,y".toList, .firstChild]⟩),
        (.sibling, ⟨none, [.id "sum".toList]⟩)]) := by decide +kernel
  have hwritten : SelectorWritten totalCompounds [.child, .sibling] (Text.trim totalCells) :=
    (selectorWritten_of_parse hparse).1
  exact ⟨hwritten, ((parse_iff_written totalCells).2 _ _ hwritten).1⟩

end MailTemplate.Css
