import MailTemplate.Proofs.Bytes.Scanning
import MailTemplate.Proofs.Css.Balanced
import MailTemplate.Proofs.Css.Comments
import MailTemplate.Proofs.Css.Items
import MailTemplate.Proofs.Css.Splitting
/-!
# Style sheet text by bytes

Style sheets are scanned by bytes outside strings. Within a string, a backslash takes the next byte along, which may be the
first of several that a character has: the others close no string, so that the scan is at a character again when it ends
(`stringEnd_eq`). Marks, blocks, at-rules and pieces are then found where they are found by characters.
-/
namespace MailTemplate.Bytes

open Text Css

variable {b c mark q sep : Char} {piece r rest s str t : Text} {depth i start : Nat}

/-! ## Strings -/

/-- The offset behind the string that `q` closes, from an offset within it. -/
def stringEnd (q : Char) (t : Text) (i : Nat) : Nat :=
  match _h : unit? t i with
  | none => byteSize t
  | some b => if b = '\\' then stringEnd q t (i + 2) else if b = q then i + 1 else stringEnd q t (i + 1)
termination_by byteSize t - i
decreasing_by
  all_goals
    have := lt_of_unit? (by assumption)
    omega

theorem stringEnd_unfold (q : Char) (t : Text) (i : Nat) : stringEnd q t i =
    match unit? t i with
    | none => byteSize t
    | some b => if b = '\\' then stringEnd q t (i + 2) else if b = q then i + 1 else stringEnd q t (i + 1) := by
  rw [stringEnd]
  split <;> next h => rw [h]

theorem stringEnd_of_isInside (hq : isQuote q = true) (h : isInside t i = true) :
    stringEnd q t i = stringEnd q t (i + 1) := by
  obtain ⟨b, hb, hle⟩ := exists_unit?_of_isInside h
  rw [stringEnd_unfold, hb]
  dsimp only
  rw [if_neg (ne_of_le hle (by decide)), if_neg (ne_of_le hle (lt_of_isQuote hq))]

/-- A string ends by bytes where it ends by characters. -/
theorem stringEnd_eq (hq : isQuote q = true) (hcut : StringCut q s str rest) (h : RestAt t i s) :
    stringEnd q t i = i + byteSize str := by
  have hlt := lt_of_isQuote hq
  induction hcut generalizing i with
  | missing =>
    rw [stringEnd_unfold, unit?_nil h]
    exact h.byteSize_eq
  | closing hne =>
    rw [stringEnd_unfold, unit?_of_lt h hlt]
    dsimp only
    rw [if_neg hne, if_pos rfl, byteSize, utf8Size_of_lt hlt]
    rfl
  | @plain c s str rest hc hne _ ih =>
    obtain ⟨b, hb, hseen⟩ := exists_unit? h
    rw [stringEnd_unfold, hb]
    dsimp only
    rw [if_neg (mt (hseen.eq_iff (by decide)).1 hc), if_neg (mt (hseen.eq_iff hlt).1 hne),
      pass (f := stringEnd q t) (fun _ hj => stringEnd_of_isInside hq hj) h, ih h.tail, byteSize, Nat.add_assoc]
  | @escaped c s str rest _ ih =>
    have hc := tail_of_lt h (by decide)
    rw [stringEnd_unfold, unit?_of_lt h (by decide)]
    dsimp only
    rw [if_pos rfl, pass (f := stringEnd q t) (fun _ hj => stringEnd_of_isInside hq hj) hc, ih hc.tail, byteSize, byteSize,
      ← Nat.add_assoc, ← Nat.add_assoc]
    rfl
  | escaping =>
    have hend := h.byteSize_eq
    rw [stringEnd_unfold, unit?_of_lt h (by decide)]
    dsimp only
    rw [if_pos rfl, stringEnd_unfold, unit?_of_le]
    · exact hend
    · rw [hend]
      change i + 1 ≤ i + 2
      omega

theorem min_le_stringEnd (q : Char) (t : Text) (i : Nat) : min i (byteSize t) ≤ stringEnd q t i := by
  fun_induction stringEnd q t i with
  | case1 => exact Nat.min_le_right _ _
  | case2 | case4 => omega
  | case3 => omega

/-- Behind a quote, the end of the string is further on. -/
theorem lt_stringEnd (h : unit? t i = some b) : i < stringEnd b t (i + 1) := by
  have := lt_of_unit? h
  have := min_le_stringEnd b t (i + 1)
  omega

/-! ## Marks, blocks and at-rules -/

/-- The first offset, from `i` on, of a `mark` outside strings. -/
def findOutside? (mark : Char) (t : Text) (i : Nat) : Option Nat :=
  match _h : unit? t i with
  | none => none
  | some b =>
    if isQuote b then findOutside? mark t (stringEnd b t (i + 1))
    else if b = mark then some i
    else findOutside? mark t (i + 1)
termination_by byteSize t - i
decreasing_by
  all_goals
    have := lt_of_unit? (by assumption)
    have := lt_stringEnd (show unit? t i = some b by assumption)
    omega

/-- The offset of the brace that closes the outermost of the blocks that begin at or behind byte `i`, in `depth` others. -/
def matchingBrace? (depth : Nat) (t : Text) (i : Nat) : Option Nat :=
  match _h : unit? t i with
  | none => none
  | some b =>
    if isQuote b then matchingBrace? depth t (stringEnd b t (i + 1))
    else if b = '\x7b' then matchingBrace? (depth + 1) t (i + 1)
    else if b = '\x7d' then if depth - 1 = 0 then some i else matchingBrace? (depth - 1) t (i + 1)
    else matchingBrace? depth t (i + 1)
termination_by byteSize t - i
decreasing_by
  all_goals
    have := lt_of_unit? (by assumption)
    have := lt_stringEnd (show unit? t i = some b by assumption)
    omega

/-- The offset behind the at-rule that byte `i` is in: behind its `;`, or behind its block. -/
def atRuleEnd (t : Text) (i : Nat) : Nat :=
  match _h : unit? t i with
  | none => byteSize t
  | some b =>
    if isQuote b then atRuleEnd t (stringEnd b t (i + 1))
    else if b = ';' then i + 1
    else if b = '\x7b' then ((matchingBrace? 0 t i).map (· + 1)).getD (byteSize t)
    else atRuleEnd t (i + 1)
termination_by byteSize t - i
decreasing_by
  all_goals
    have := lt_of_unit? (by assumption)
    have := lt_stringEnd (show unit? t i = some b by assumption)
    omega

theorem findOutside?_unfold (mark : Char) (t : Text) (i : Nat) : findOutside? mark t i =
    match unit? t i with
    | none => none
    | some b =>
      if isQuote b then findOutside? mark t (stringEnd b t (i + 1))
      else if b = mark then some i
      else findOutside? mark t (i + 1) := by
  rw [findOutside?]
  split <;> next h => rw [h]

theorem matchingBrace?_unfold (depth : Nat) (t : Text) (i : Nat) : matchingBrace? depth t i =
    match unit? t i with
    | none => none
    | some b =>
      if isQuote b then matchingBrace? depth t (stringEnd b t (i + 1))
      else if b = '\x7b' then matchingBrace? (depth + 1) t (i + 1)
      else if b = '\x7d' then if depth - 1 = 0 then some i else matchingBrace? (depth - 1) t (i + 1)
      else matchingBrace? depth t (i + 1) := by
  rw [matchingBrace?]
  split <;> next h => rw [h]

theorem atRuleEnd_unfold (t : Text) (i : Nat) : atRuleEnd t i =
    match unit? t i with
    | none => byteSize t
    | some b =>
      if isQuote b then atRuleEnd t (stringEnd b t (i + 1))
      else if b = ';' then i + 1
      else if b = '\x7b' then ((matchingBrace? 0 t i).map (· + 1)).getD (byteSize t)
      else atRuleEnd t (i + 1) := by
  rw [atRuleEnd]
  split <;> next h => rw [h]

theorem findOutside?_of_isInside (hlt : mark.toNat < 0x80) (h : isInside t i = true) :
    findOutside? mark t i = findOutside? mark t (i + 1) := by
  obtain ⟨b, hb, hle⟩ := exists_unit?_of_isInside h
  rw [findOutside?_unfold, hb]
  dsimp only
  rw [isQuote_of_le hle, if_neg Bool.false_ne_true, if_neg (ne_of_le hle hlt)]

theorem matchingBrace?_of_isInside (h : isInside t i = true) :
    matchingBrace? depth t i = matchingBrace? depth t (i + 1) := by
  obtain ⟨b, hb, hle⟩ := exists_unit?_of_isInside h
  rw [matchingBrace?_unfold, hb]
  dsimp only
  rw [isQuote_of_le hle, if_neg Bool.false_ne_true, if_neg (ne_of_le hle (by decide)), if_neg (ne_of_le hle (by decide))]

theorem atRuleEnd_of_isInside (h : isInside t i = true) : atRuleEnd t i = atRuleEnd t (i + 1) := by
  obtain ⟨b, hb, hle⟩ := exists_unit?_of_isInside h
  rw [atRuleEnd_unfold, hb]
  dsimp only
  rw [isQuote_of_le hle, if_neg Bool.false_ne_true, if_neg (ne_of_le hle (by decide)), if_neg (ne_of_le hle (by decide))]

/-- What a scan outside strings meets: the end, a string, or another character. -/
theorem scan_induct {P : Nat → Text → Prop} (nil : ∀ i, RestAt t i [] → P i [])
    (string : ∀ i q s str rest, isQuote q = true → RestAt t i (q :: s) → StringCut q s str rest →
      stringEnd q t (i + 1) = i + byteSize (q :: str) → RestAt t (i + byteSize (q :: str)) rest →
      P (i + byteSize (q :: str)) rest → P i (q :: s))
    (other : ∀ i c s, isQuote c = false → RestAt t i (c :: s) → P (i + c.utf8Size) s → P i (c :: s))
    (h : RestAt t i r) : P i r := by
  induction hl : r.length using Nat.strong_induction_on generalizing i r with
  | _ n ih =>
    cases r with
    | nil => exact nil i h
    | cons c s =>
      by_cases hq : isQuote c = true
      · obtain ⟨str, rest, hcut⟩ := exists_stringCut (ne_backslash_of_isQuote hq) s
        have hc := lt_of_isQuote hq
        have hs := hcut.eq_append
        have hend : stringEnd c t (i + 1) = i + byteSize (c :: str) := by
          rw [stringEnd_eq hq hcut (tail_of_lt h hc), byteSize, utf8Size_of_lt hc, Nat.add_assoc]
        have hrest : RestAt t (i + byteSize (c :: str)) rest := RestAt.append (by rwa [List.cons_append, ← hs])
        refine string i c s str rest hq h hcut hend hrest (ih _ ?_ hrest rfl)
        rw [← hl, hs, List.length_cons, List.length_append]
        omega
      · exact other i c s (Bool.eq_false_iff.2 hq) h (ih _ (hl ▸ Nat.lt_succ_self _) h.tail rfl)

/-- A reader by characters goes on behind a string as it does behind other text. -/
theorem stringCut_foldr {β : Type} {f : Nat → StringState → Text → β} {d : Nat} {put : Char → β → β}
    (hquote : ∀ d q s, isQuote q = true → f d .outside (q :: s) = put q (f d (.inside q) s))
    (hinside : ∀ d st c s, st ≠ .outside → f d st (c :: s) = put c (f d (st.step c) s))
    (hnil : ∀ st, f d st [] = f d .outside []) (hq : isQuote q = true) (hcut : StringCut q s str rest) :
    f d .outside (q :: s) = (q :: str).foldr put (f d .outside rest) := by
  rw [hquote _ _ _ hq, List.foldr_cons]
  congr 1
  induction hcut with
  | missing => exact hnil _
  | closing hne =>
    rw [hinside _ _ _ _ StringState.noConfusion, StringState.step, if_neg hne, if_pos rfl]
    rfl
  | plain hc hne _ ih =>
    rw [hinside _ _ _ _ StringState.noConfusion, StringState.step, if_neg hc, if_neg hne, ih]
    rfl
  | escaped _ ih =>
    rw [hinside _ _ _ _ StringState.noConfusion, StringState.step, if_pos rfl,
      hinside _ _ _ _ StringState.noConfusion, StringState.step, ih]
    rfl
  | escaping =>
    rw [hinside _ _ _ _ StringState.noConfusion, StringState.step, if_pos rfl, hnil]
    rfl

section Mark

variable (hlt : mark.toNat < 0x80) (hmark : isQuote mark = false)
include hlt hmark

/-- A mark is found by bytes where it is found by characters. -/
theorem findOutside?_eq (h : RestAt t i r) :
    findOutside? mark t i = (cutOutside? mark .outside r).map fun p => i + byteSize p.1 := by
  refine scan_induct (P := fun i r => findOutside? mark t i = (cutOutside? mark .outside r).map fun p => i + byteSize p.1)
    ?_ ?_ ?_ h
  · intro i h
    rw [findOutside?_unfold, unit?_nil h]
    rfl
  · intro i q s str rest hq h hcut hend _ ih
    rw [findOutside?_unfold, unit?_of_lt h (lt_of_isQuote hq)]
    dsimp only
    rw [if_pos hq, hend, ih, stringCut_foldr (d := 0) (passes_cutOutside hmark).quote
      (passes_cutOutside hmark).inside (fun _ => rfl) hq hcut, foldr_map_consFst, Option.map_map]
    refine congrArg (fun f => (cutOutside? mark .outside rest).map f) (funext fun p => ?_)
    rw [Function.comp_apply, byteSize_append, Nat.add_assoc]
  · intro i c s hc h ih
    obtain ⟨b, hb, hseen⟩ := exists_unit? h
    rw [findOutside?_unfold, hb]
    dsimp only
    rw [hseen.apply_eq coarse_isQuote, hc, if_neg Bool.false_ne_true, cutOutside?]
    by_cases hm : c = mark
    · rw [if_pos ((hseen.eq_iff hlt).2 hm), if_pos ⟨hm, rfl⟩]
      rfl
    · rw [if_neg (mt (hseen.eq_iff hlt).1 hm), if_neg fun h => hm h.1,
        pass (f := findOutside? mark t) (fun _ => findOutside?_of_isInside hlt) h, ih, StringState.step_plain hc, Option.map_map]
      refine congrArg (fun f => (cutOutside? mark .outside s).map f) (funext fun p => ?_)
      rw [Function.comp_apply, byteSize, Nat.add_assoc]

end Mark

/-- A block ends by bytes where it ends by characters. -/
theorem matchingBrace?_eq (d : Nat) (h : RestAt t i r) :
    matchingBrace? (d + 1) t i = (cutBlock d .outside r).2.map fun _ => i + byteSize (cutBlock d .outside r).1 := by
  refine scan_induct (P := fun i r => ∀ d, matchingBrace? (d + 1) t i =
    (cutBlock d .outside r).2.map fun _ => i + byteSize (cutBlock d .outside r).1) ?_ ?_ ?_ h d
  · intro i h d
    rw [matchingBrace?_unfold, unit?_nil h]
    rfl
  · intro i q s str rest hq h hcut hend _ ih d
    rw [matchingBrace?_unfold, unit?_of_lt h (lt_of_isQuote hq)]
    dsimp only
    rw [if_pos hq, hend, ih, stringCut_foldr passes_cutBlock.quote passes_cutBlock.inside (fun _ => rfl) hq hcut,
      foldr_consFst, byteSize_append, Nat.add_assoc]
  · intro i c s hc h ih d
    obtain ⟨b, hb, hseen⟩ := exists_unit? h
    have hnext : ∀ d, matchingBrace? d t (i + 1) = matchingBrace? d t (i + c.utf8Size) :=
      fun d => pass (f := matchingBrace? d t) (fun _ => matchingBrace?_of_isInside) h
    rw [matchingBrace?_unfold, hb]
    dsimp only
    rw [hseen.apply_eq coarse_isQuote, hc, if_neg Bool.false_ne_true]
    simp only [hseen.eq_iff (show '\x7b'.toNat < 0x80 by decide), hseen.eq_iff (show '\x7d'.toNat < 0x80 by decide), hnext]
    by_cases ho : c = '\x7b'
    · rw [if_pos ho, ih, passes_cutBlock.opening _ _ _ (List.mem_singleton.2 ho)]
      simp only [consFst, byteSize, Nat.add_assoc]
    rw [if_neg ho]
    by_cases hclose : c = '\x7d'
    · rw [if_pos hclose, Nat.add_sub_cancel]
      cases d with
      | zero =>
        rw [if_pos rfl, cutBlock, if_pos ⟨hclose, rfl, rfl⟩]
        rfl
      | succ d =>
        rw [if_neg (Nat.succ_ne_zero d), ih, passes_cutBlock.closing _ _ _ (List.mem_singleton.2 hclose)]
        simp only [consFst, byteSize, Nat.add_assoc]
    · rw [if_neg hclose, ih, passes_cutBlock.plain _ _ _ hc (by simpa [Brackets.braces]) (by simpa [Brackets.braces])
        fun _ => List.not_mem_nil]
      simp only [consFst, byteSize, Nat.add_assoc]

/-- A block is closed by bytes where it is closed by characters, from its opening brace on. -/
theorem matchingBrace?_zero (h : RestAt t i ('\x7b' :: s)) : matchingBrace? 0 t i =
    (cutBlock 0 .outside s).2.map fun _ => i + 1 + byteSize (cutBlock 0 .outside s).1 := by
  rw [matchingBrace?_unfold, unit?_of_lt h (by decide)]
  dsimp only
  rw [if_neg (by decide), if_pos rfl, matchingBrace?_eq 0 (tail_of_lt h (by decide))]

/-- An at-rule ends by bytes where it ends by characters. -/
theorem atRuleEnd_eq (h : RestAt t i r) : atRuleEnd t i = i + byteSize (cutAtRule .outside r).1 := by
  refine scan_induct (P := fun i r => atRuleEnd t i = i + byteSize (cutAtRule .outside r).1) ?_ ?_ ?_ h
  · intro i h
    rw [atRuleEnd_unfold, unit?_nil h]
    exact h.byteSize_eq
  · intro i q s str rest hq h hcut hend _ ih
    rw [atRuleEnd_unfold, unit?_of_lt h (lt_of_isQuote hq)]
    dsimp only
    rw [if_pos hq, hend, ih, stringCut_foldr (d := 0) passes_cutAtRule.quote passes_cutAtRule.inside (fun _ => rfl) hq
      hcut, foldr_consFst, byteSize_append, Nat.add_assoc]
  · intro i c s hc h ih
    obtain ⟨b, hb, hseen⟩ := exists_unit? h
    rw [atRuleEnd_unfold, hb]
    dsimp only
    rw [hseen.apply_eq coarse_isQuote, hc, if_neg Bool.false_ne_true]
    simp only [hseen.eq_iff (show ';'.toNat < 0x80 by decide), hseen.eq_iff (show '\x7b'.toNat < 0x80 by decide),
      pass (f := atRuleEnd t) (fun _ => atRuleEnd_of_isInside) h, ih]
    by_cases hsemi : c = ';'
    · rw [if_pos hsemi, cutAtRule, if_pos ⟨hsemi, rfl⟩]
      subst hsemi
      rfl
    rw [if_neg hsemi]
    by_cases ho : c = '\x7b'
    · subst ho
      have hblock := eq_append_of_cutBlock 0 .outside s
      rw [if_pos rfl, cutAtRule, if_neg (by decide), if_pos ⟨rfl, rfl⟩, matchingBrace?_zero h]
      generalize cutBlock 0 .outside s = block at hblock ⊢
      obtain ⟨body, rest⟩ := block
      cases rest with
      | none =>
        rw [Option.map_none, Option.getD_none] at hblock
        rw [Option.map_none, Option.map_none, Option.getD_none, h.byteSize_eq, hblock, List.append_nil]
      | some rest =>
        change i + 1 + byteSize body + 1 = i + byteSize ('\x7b' :: (body ++ ['\x7d']))
        rw [byteSize, byteSize_append, utf8Size_of_lt (by decide), Nat.add_assoc, Nat.add_assoc]
        rfl
    · rw [if_neg ho, passes_cutAtRule.plain 0 _ _ hc List.not_mem_nil List.not_mem_nil (by simp [hsemi, ho])]
      simp only [consFst, byteSize, Nat.add_assoc]

/-! ## Pieces -/

/-- The pieces that the bytes from `i` on are in, in `depth` brackets, when the first of them began at byte `start`. -/
def splitFrom? (sep : Char) (t : Text) (depth start i : Nat) : Option (List Text) :=
  match _h : unit? t i with
  | none => (slice? t (min start (byteSize t)) (byteSize t)).map ([·])
  | some b =>
    if isQuote b then splitFrom? sep t depth start (stringEnd b t (i + 1))
    else if b = '(' ∨ b = '[' then splitFrom? sep t (depth + 1) start (i + 1)
    else if b = ')' ∨ b = ']' then splitFrom? sep t (depth - 1) start (i + 1)
    else if b = sep ∧ depth = 0 then do
      let piece ← slice? t start i
      let more ← splitFrom? sep t depth (i + 1) (i + 1)
      return piece :: more
    else splitFrom? sep t depth start (i + 1)
termination_by byteSize t - i
decreasing_by
  all_goals
    have := lt_of_unit? (by assumption)
    have := lt_stringEnd (show unit? t i = some b by assumption)
    omega

/-- The pieces between the `sep` outside strings and brackets. -/
def split? (sep : Char) (t : Text) : Option (List Text) := splitFrom? sep t 0 0 0

theorem splitFrom?_unfold (sep : Char) (t : Text) (depth start i : Nat) : splitFrom? sep t depth start i =
    match unit? t i with
    | none => (slice? t (min start (byteSize t)) (byteSize t)).map ([·])
    | some b =>
      if isQuote b then splitFrom? sep t depth start (stringEnd b t (i + 1))
      else if b = '(' ∨ b = '[' then splitFrom? sep t (depth + 1) start (i + 1)
      else if b = ')' ∨ b = ']' then splitFrom? sep t (depth - 1) start (i + 1)
      else if b = sep ∧ depth = 0 then do
        let piece ← slice? t start i
        let more ← splitFrom? sep t depth (i + 1) (i + 1)
        return piece :: more
      else splitFrom? sep t depth start (i + 1) := by
  rw [splitFrom?]
  split <;> next h => rw [h]

theorem splitFrom?_of_isInside (hlt : sep.toNat < 0x80) (h : isInside t i = true) :
    splitFrom? sep t depth start i = splitFrom? sep t depth start (i + 1) := by
  obtain ⟨b, hb, hle⟩ := exists_unit?_of_isInside h
  have hne : ∀ {z : Char}, z.toNat < 0x80 → b ≠ z := ne_of_le hle
  rw [splitFrom?_unfold, hb]
  dsimp only
  rw [isQuote_of_le hle, if_neg Bool.false_ne_true, if_neg (not_or.2 ⟨hne (by decide), hne (by decide)⟩),
    if_neg (not_or.2 ⟨hne (by decide), hne (by decide)⟩), if_neg fun h => hne hlt h.1]

/-- Puts a character at the front of the first piece. -/
def consHead (c : Char) : List Text → List Text
  | [] => [[c]]
  | piece :: more => (c :: piece) :: more

theorem foldr_consHead (u piece : Text) (more : List Text) :
    u.foldr consHead (piece :: more) = (u ++ piece) :: more := by
  induction u with
  | nil => rfl
  | cons c u ih => rw [List.foldr_cons, ih, consHead, List.cons_append]

theorem splitFrom_cons {n : Nest} (h : ¬ (c = sep ∧ n = .top)) :
    splitFrom sep n (c :: s) = consHead c (splitFrom sep (n.step c) s) := by
  rw [splitFrom, if_neg h]
  cases splitFrom sep (n.step c) s <;> rfl

theorem splitFrom_inside {st : StringState} (hst : st ≠ .outside) :
    splitFrom sep ⟨st, depth⟩ (c :: s) = consHead c (splitFrom sep ⟨st.step c, depth⟩ s) := by
  rw [splitFrom_cons fun h => hst (Nest.mk.inj h.2).1, Nest.step_inside hst]

theorem splitFrom_quote (hsep : isQuote sep = false) (hq : isQuote q = true) :
    splitFrom sep ⟨.outside, depth⟩ (q :: s) = consHead q (splitFrom sep ⟨.inside q, depth⟩ s) := by
  have hne : q ≠ sep := by
    rintro rfl
    rw [hq] at hsep
    cases hsep
  rw [splitFrom_cons fun h => hne h.1, Nest.step_quote hq]

section Pieces

variable (hlt : sep.toNat < 0x80) (hquote : isQuote sep = false) (hsep : sep ∉ ['(', '[', ')', ']'])
include hlt hquote hsep

/-- Behind a piece, or the beginning of one, the pieces by bytes are those by characters. -/
theorem splitFrom?_eq (h : RestAt t start (piece ++ r)) :
    splitFrom? sep t depth start (start + byteSize piece) =
      some (piece.foldr consHead (splitFrom sep ⟨.outside, depth⟩ r)) := by
  -- the piece that is being read goes along: it began at `start`, and what it has so far ends at `i`
  refine scan_induct (P := fun i r => ∀ depth start piece, RestAt t start (piece ++ r) → i = start + byteSize piece →
    splitFrom? sep t depth start i = some (piece.foldr consHead (splitFrom sep ⟨.outside, depth⟩ r))) ?_ ?_ ?_ h.append
    depth start piece h rfl
  · intro i hi depth start piece h _
    rw [splitFrom?_unfold, unit?_nil hi]
    dsimp only
    rw [List.append_nil] at h
    rw [Nat.min_eq_left (by rw [h.byteSize_eq]; exact Nat.le_add_right _ _), h.slice?_rest, splitFrom, foldr_consHead,
      List.append_nil]
    rfl
  · -- a string belongs to the piece, whatever stands in it
    intro i q s str rest hq hi hcut hend _ ih depth start piece h hpiece
    have hmore : RestAt t start (piece ++ q :: str ++ rest) := by
      rwa [List.append_assoc, List.cons_append, ← hcut.eq_append]
    rw [splitFrom?_unfold, unit?_of_lt hi (lt_of_isQuote hq)]
    dsimp only
    rw [if_pos hq, hend, ih depth start _ hmore (by rw [byteSize_append, hpiece, Nat.add_assoc]), List.foldr_append,
      stringCut_foldr (f := fun d st s => splitFrom sep ⟨st, d⟩ s) (fun _ _ _ => splitFrom_quote hquote)
        (fun _ _ _ _ => splitFrom_inside) (fun _ => rfl) hq hcut]
  · intro i c s hc hi ih depth start piece h hpiece
    obtain ⟨b, hb, hseen⟩ := exists_unit? hi
    have hmore : RestAt t start (piece ++ [c] ++ s) := by rwa [List.append_assoc, List.singleton_append]
    have hnext : ∀ depth, splitFrom? sep t depth start (i + 1) =
        some (piece.foldr consHead (consHead c (splitFrom sep ⟨.outside, depth⟩ s))) := by
      intro depth
      rw [pass (f := splitFrom? sep t depth start) (fun _ => splitFrom?_of_isInside hlt) hi,
        ih depth start _ hmore (by rw [byteSize_append, hpiece, byteSize, byteSize, Nat.add_zero, Nat.add_assoc]),
        List.foldr_append]
      rfl
    rw [splitFrom?_unfold, hb]
    dsimp only
    rw [hseen.apply_eq coarse_isQuote, hc, if_neg Bool.false_ne_true]
    simp only [hseen.eq_iff (show '('.toNat < 0x80 by decide), hseen.eq_iff (show ')'.toNat < 0x80 by decide),
      hseen.eq_iff (show '['.toNat < 0x80 by decide), hseen.eq_iff (show ']'.toNat < 0x80 by decide), hseen.eq_iff hlt,
      hnext]
    by_cases hcut : c = sep ∧ depth = 0
    · obtain ⟨rfl, rfl⟩ := hcut
      simp only [List.mem_cons, List.not_mem_nil, or_false, not_or] at hsep
      have hs := tail_of_lt hi hlt
      have hrest := ih 0 (i + 1) [] hs (by rw [utf8Size_of_lt hlt]; rfl)
      rw [utf8Size_of_lt hlt] at hrest
      rw [if_neg (by simp [hsep]), if_neg (by simp [hsep]), if_pos ⟨rfl, rfl⟩, hpiece, h.slice?, ← hpiece, hrest,
        splitFrom, if_pos ⟨rfl, rfl⟩, foldr_consHead, List.append_nil]
      rfl
    · rw [splitFrom_cons fun h => hcut ⟨h.1, (Nest.mk.inj h.2).2⟩, Nest.step, StringState.step_plain hc, if_pos rfl]
      by_cases ho : c = '(' ∨ c = '['
      · rw [if_pos ho, if_pos ho]
      · by_cases hclose : c = ')' ∨ c = ']'
        · rw [if_neg ho, if_neg ho, if_pos hclose, if_pos hclose]
        · rw [if_neg ho, if_neg ho, if_neg hclose, if_neg hclose, if_neg hcut]

/-- A text is split by bytes as it is split by characters. -/
theorem split?_eq (t : Text) : split? sep t = some (split sep t) :=
  splitFrom?_eq hlt hquote hsep (show RestAt t 0 ([] ++ t) from .start t)

end Pieces

end MailTemplate.Bytes
