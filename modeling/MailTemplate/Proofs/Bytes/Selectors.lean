import MailTemplate.Css.Matching
import MailTemplate.Proofs.Bytes.Readers
import MailTemplate.Proofs.Css.SelectorReading
/-!
# Selectors by bytes

A selector is read by bytes from left to right. All that it refuses is refused for the same reason by characters
(`selector?_eq`), and the reason gives the offset of a byte.
-/
namespace MailTemplate.Bytes

open Text Css

variable {α ε : Type} {c : Char} {r s t : Text} {i : Nat}

/-! ## Names -/

/-- A part of a name: a run of bytes that need no backslash, or the character behind a backslash. -/
def namePart? (t : Text) (i : Nat) : Option (Except String (Option Text × Nat)) :=
  match unit? t i with
  | none => some (.ok (none, i))
  | some b =>
    if b = '\\' then do
      let rest ← slice? t (i + 1) (byteSize t)
      match rest with
      | [] => return .error "dangling escape"
      | c :: _ => return .ok (some [c], i + 1 + c.utf8Size)
    else if isNameChar b then do
      let run ← slice? t i (skipWhile isNameChar t i)
      return .ok (some run, skipWhile isNameChar t i)
    else some (.ok (none, i))

/-- Reads a name, which may not be empty. -/
def name? (t : Text) (i : Nat) : Option (Except String (Text × Nat)) :=
  andThen (many? t (namePart? t) i) fun name j =>
    if name = [] then some (.error s!"expected a name at offset {j}") else some (.ok (name, j))

/-- The reason for refusing `t`. -/
def Says (t : Text) (r : Refusal) (reason : String) : Prop := reason = r.describe t

theorem css_isNameChar_of_le {b : Char} (hb : 0x80 ≤ b.toNat) : isNameChar b = true := by
  simp [isNameChar, hb]

theorem coarse_css_isNameChar : Coarse isNameChar := fun _ _ hb hc =>
  (css_isNameChar_of_le hb).trans (css_isNameChar_of_le hc).symm

theorem spanName_append {run : Text} (h : ∀ c ∈ run, isNameChar c = true) (s : Text) :
    spanName (run ++ s) = (spanName s).map fun p => (run ++ p.1, p.2) := by
  induction run with
  | nil => cases hs : spanName s <;> simp [hs, Except.map]
  | cons c run ih =>
    rw [List.forall_mem_cons] at h
    have hc : c ≠ '\\' := by
      rintro rfl
      exact absurd h.1 (by decide)
    rw [List.cons_append, spanName.eq_def]
    simp only [if_neg hc, if_pos h.1, ih h.2]
    cases spanName s <;> rfl

theorem namePart?_eq (h : RestAt t i r) : Part t (Says t) spanName r (namePart? t i) := by
  cases r with
  | nil =>
    rw [namePart?, unit?_nil h]
    exact .stop h rfl
  | cons c s =>
    obtain ⟨b, hb, hseen⟩ := exists_unit? h
    rw [namePart?, hb]
    dsimp only
    simp only [hseen.eq_iff (show '\\'.toNat < 0x80 by decide), hseen.apply_eq coarse_css_isNameChar]
    by_cases hc : c = '\\'
    · subst hc
      have hs := tail_of_lt h (by decide)
      rw [if_pos rfl, hs.slice?_rest, Option.bind_eq_bind, Option.bind_some]
      cases s with
      | nil =>
        have hreason : Says t .danglingEscape "dangling escape" := rfl
        exact .error rfl hreason
      | cons x s => exact .next hs.tail (by simp) rfl
    · rw [if_neg hc]
      by_cases hn : isNameChar c = true
      · have hrest := skipWhile_rest coarse_css_isNameChar h
        rw [if_pos hn, slice?_skipWhile coarse_css_isNameChar h, Option.bind_eq_bind, Option.bind_some]
        refine .next hrest ?_ ?_
        · rw [List.dropWhile_cons_of_pos hn]
          exact Nat.lt_succ_of_le (List.dropWhile_suffix _).length_le
        · rw [← spanName_append (fun _ => List.mem_takeWhile_imp), List.takeWhile_append_dropWhile]
      · rw [if_neg hn]
        refine .stop h ?_
        rw [spanName.eq_def]
        simp only [if_neg hc, if_neg hn]

theorem offset_eq (h : RestAt t i r) : offset t r = i := by
  rw [offset, h.byteSize_eq, Nat.add_sub_cancel]

/-- What is left behind an empty name is all there was. -/
theorem eq_of_spanName (h : spanName s = .ok ([], r)) : r = s := by
  obtain ⟨t, rfl, ht⟩ := exists_spelledOut_of_spanName h
  cases ht
  rfl

theorem name?_agrees (h : RestAt t i r) : Agrees t (Says t) (readName r) (name? t i) := by
  unfold readName name?
  refine (many?_agrees (fun _ _ => namePart?_eq) h).andThen (fun e he => by rw [he]) fun name rest j hs hj => ?_
  rw [hs]
  dsimp only
  split
  · next hname =>
    rw [hname] at hs
    rw [← offset_eq hj, eq_of_spanName hs]
    exact .error rfl
  · exact .ok hj

/-! ## Attribute tests -/

/-- Reads the value of an attribute test: a string, which has no escapes, or a name. -/
def operand? (t : Text) (i : Nat) : Option (Except String (Text × Nat)) :=
  match unit? t i with
  | none => name? t i
  | some q =>
    if isQuote q then do
      match ← findFrom? [q] t (i + 1) with
      | none => return .error "unterminated string"
      | some stop =>
        let value ← slice? t (i + 1) stop
        return .ok (value, stop + 1)
    else name? t i

theorem operand?_agrees (h : RestAt t i r) : Agrees t (Says t) (readOperand r) (operand? t i) := by
  cases r with
  | nil =>
    rw [operand?, unit?_nil h]
    exact name?_agrees h
  | cons c s =>
    obtain ⟨b, hb, hseen⟩ := exists_unit? h
    rw [operand?, hb, readOperand]
    dsimp only
    rw [hseen.apply_eq coarse_isQuote]
    by_cases hq : isQuote c = true
    · obtain rfl := (hseen.eq_iff (lt_of_isQuote hq)).2 rfl
      have hs := tail_of_lt h (lt_of_isQuote hq)
      rw [if_pos hq, if_pos hq, findFrom?_eq (List.cons_ne_nil _ _) hs, Option.bind_eq_bind, Option.bind_some]
      cases hcut : cut? [b] s with
      | none =>
        have hreason : Says t .unterminatedString "unterminated string" := rfl
        exact .error hreason
      | some p =>
        rw [Option.map_some]
        dsimp only
        rw [slice?_of_cut? hs hcut]
        exact .ok (tail_of_lt (restAt_of_cut? hs hcut) (lt_of_isQuote hq))
    · rw [if_neg hq, if_neg hq]
      exact name?_agrees h

/-- Reads an attribute test from after its comparison to its closing bracket. -/
def comparison? (name : Text) (k : Comparison) (t : Text) (i : Nat) : Option (Except String (Simple × Nat)) :=
  andThen (operand? t (skipWhile isBlank t i)) fun value j =>
    let close := skipWhile isBlank t j
    if unit? t close == some ']' then some (.ok (.compare name k value, close + 1)) else some (.error "expected ']'")

theorem comparison?_agrees (name : Text) (k : Comparison) (h : RestAt t i r) :
    Agrees t (Says t) (readComparison name k r) (comparison? name k t i) := by
  unfold readComparison comparison?
  refine (operand?_agrees (skipWhile_rest coarse_isBlank h)).andThen (fun e he => by rw [skipBlanks, he])
    fun value rest j hv hj => ?_
  have hclose : RestAt t (skipWhile isBlank t j) (skipBlanks rest) := skipWhile_rest coarse_isBlank hj
  rw [skipBlanks, hv]
  dsimp only
  rw [beq_unit? hclose (by decide)]
  split
  · next rest' heq =>
    rw [heq] at hclose ⊢
    exact .ok (tail_of_lt hclose (by decide))
  · next hne =>
    have hreason : Says t .expectedBracket "expected ']'" := rfl
    rw [if_neg]
    · exact .error hreason
    · rw [beq_iff_eq, List.head?_eq_some_iff]
      rintro ⟨rest', heq⟩
      exact hne rest' heq

/-- Reads an attribute test from the byte `b` at `i` on, which a comparison of two characters may begin with. -/
def longComparison? (name : Text) (b : Char) (t : Text) (i : Nat) : Option (Except String (Simple × Nat)) :=
  if unit? t (i + 1) == some '=' then
    match comparisonOf? b with
    | none => some (.error "unknown attribute matcher")
    | some k => comparison? name k t (i + 2)
  else some (.error "malformed attribute selector")

/-- Reads an attribute test from after its opening bracket. -/
def test? (t : Text) (i : Nat) : Option (Except String (Simple × Nat)) :=
  andThen (name? t (skipWhile isBlank t i)) fun name j =>
    let mark := skipWhile isBlank t j
    match unit? t mark with
    | none => some (.error "malformed attribute selector")
    | some b =>
      if b = ']' then some (.ok (.present name, mark + 1))
      else if b = '=' then comparison? name .equal t (mark + 1)
      else longComparison? name b t mark

theorem lt_of_comparisonOf? {k : Comparison} (h : comparisonOf? c = some k) : c.toNat < 0x80 := by
  unfold comparisonOf? at h
  split at h
  case h_6 => cases h
  all_goals decide

theorem malformed (t : Text) : Says t .malformedTest "malformed attribute selector" := rfl

theorem longComparison?_agrees {b : Char} (name : Text) (h : RestAt t i (c :: '=' :: s)) (hseen : Seen b c) :
    Agrees t (Says t)
      (match comparisonOf? c with
        | none => .error (if c.utf8Size = 1 then .unknownComparison else .malformedTest)
        | some k => readComparison name k s) (longComparison? name b t i) := by
  rw [longComparison?, beq_unit?_succ h (by decide), List.head?_cons, beq_self_eq_true, Bool.and_true]
  by_cases hone : c.utf8Size = 1
  · have hlt := utf8Size_eq_one_iff.1 hone
    obtain rfl := (hseen.eq_iff hlt).2 rfl
    rw [if_pos hone, if_pos (decide_eq_true hone)]
    cases comparisonOf? b with
    | none =>
      have hreason : Says t .unknownComparison "unknown attribute matcher" := rfl
      exact .error hreason
    | some k => exact comparison?_agrees name k (tail_of_lt (tail_of_lt h hlt) (by decide))
  · have hnone : comparisonOf? c = none :=
      Option.eq_none_iff_forall_ne_some.2 fun k hk => hone (utf8Size_of_lt (lt_of_comparisonOf? hk))
    rw [hnone, decide_eq_false hone]
    dsimp only
    rw [if_neg hone, if_neg Bool.false_ne_true]
    exact .error (malformed t)

theorem test?_agrees (h : RestAt t i r) : Agrees t (Says t) (readTest r) (test? t i) := by
  unfold readTest test?
  refine (name?_agrees (skipWhile_rest coarse_isBlank h)).andThen (fun e he => by rw [skipBlanks, he])
    fun name rest j hn hj => ?_
  have hmark : RestAt t (skipWhile isBlank t j) (skipBlanks rest) := skipWhile_rest coarse_isBlank hj
  rw [skipBlanks, hn]
  dsimp only
  generalize skipWhile isBlank t j = mark at hmark
  generalize skipBlanks rest = rest at hmark
  cases rest with
  | nil =>
    rw [unit?_nil hmark]
    exact .error (malformed t)
  | cons c s =>
    obtain ⟨b, hb, hseen⟩ := exists_unit? hmark
    rw [hb]
    dsimp only
    simp only [hseen.eq_iff (show ']'.toNat < 0x80 by decide), hseen.eq_iff (show '='.toNat < 0x80 by decide)]
    split
    · next heq =>
      obtain ⟨rfl, rfl⟩ := List.cons.inj heq
      exact .ok (tail_of_lt hmark (by decide))
    · next heq =>
      obtain ⟨rfl, rfl⟩ := List.cons.inj heq
      exact comparison?_agrees name .equal (tail_of_lt hmark (by decide))
    · next hne hne' heq =>
      obtain ⟨rfl, rfl⟩ := List.cons.inj heq
      rw [if_neg hne, if_neg hne']
      exact longComparison?_agrees name hmark hseen
    · next hclose hequal hlong =>
      have hc : c ≠ ']' ∧ c ≠ '=' := ⟨fun hc => hclose s (hc ▸ rfl), fun hc => hequal s (hc ▸ rfl)⟩
      rw [if_neg hc.1, if_neg hc.2, longComparison?, beq_unit?_succ hmark (by decide), if_neg]
      · exact .error (malformed t)
      · rw [Bool.and_eq_true, beq_iff_eq, List.head?_eq_some_iff]
        rintro ⟨-, rest, rfl⟩
        exact hlong c rest rfl

/-! ## Compounds -/

/-- Reads the name of a child condition from after its colon. -/
def pseudoClass? (t : Text) (i : Nat) : Option (Except String (Simple × Nat)) :=
  if unit? t i == some ':' then some (.error "pseudo-elements cannot be inlined")
  else andThen (name? t i) fun name j =>
    if lower name = "first-child".toList then some (.ok (.firstChild, j))
    else if lower name = "last-child".toList then some (.ok (.lastChild, j))
    else some (.error ("pseudo-class :" ++ String.ofList (lower name)))

theorem pseudoClass?_agrees (h : RestAt t i r) : Agrees t (Says t) (readPseudoClass r) (pseudoClass? t i) := by
  unfold readPseudoClass pseudoClass?
  rw [beq_unit? h (by decide), beq_eq_decide]
  simp only [decide_eq_true_iff]
  split
  · have hreason : Says t .pseudoElement "pseudo-elements cannot be inlined" := rfl
    exact .error hreason
  · refine (name?_agrees h).andThen (fun e he => by rw [he]) fun name rest j hn hj => ?_
    rw [hn]
    dsimp only
    split
    · exact .ok hj
    split
    · exact .ok hj
    · exact .error rfl

/-- Reads one condition, if one begins here. -/
def condition? (t : Text) (i : Nat) : Option (Except String (Option (List Simple) × Nat)) :=
  match unit? t i with
  | none => some (.ok (none, i))
  | some b =>
    if b = '.' then becomes (name? t (i + 1)) fun name => some [.ofClass name]
    else if b = '#' then becomes (name? t (i + 1)) fun name => some [.id name]
    else if b = '[' then becomes (test? t (i + 1)) fun c => some [c]
    else if b = ':' then becomes (pseudoClass? t (i + 1)) fun c => some [c]
    else some (.ok (none, i))

/-- A condition that is agreed on is one of those that are read. -/
theorem Part.of_readCondition {x : Except Refusal (α × Text)} {x' : Option (Except String (α × Nat))} {f : α → Simple}
    (h : Agrees t (Says t) x x') (hr : readCondition? r = some (x.map fun p => (f p.1, p.2))) :
    Part t (Says t) readConditions r (becomes x' fun a => some [f a]) := by
  refine .of_agrees h (fun e he => ?_) fun a rest ha => ?_
  · rw [he] at hr
    exact readConditions_of_error hr
  · rw [ha] at hr
    exact ⟨length_lt_of_readCondition hr, readConditions_of_ok hr⟩

theorem map_id_eq (x : Except ε (α × Text)) : x.map (fun p => (id p.1, p.2)) = x := by cases x <;> rfl

theorem condition?_eq (h : RestAt t i r) : Part t (Says t) readConditions r (condition? t i) := by
  cases r with
  | nil =>
    rw [condition?, unit?_nil h]
    exact .stop h (readConditions_of_none rfl)
  | cons c s =>
    obtain ⟨b, hb, hseen⟩ := exists_unit? h
    rw [condition?, hb]
    dsimp only
    simp only [hseen.eq_iff (show '.'.toNat < 0x80 by decide), hseen.eq_iff (show '#'.toNat < 0x80 by decide),
      hseen.eq_iff (show '['.toNat < 0x80 by decide), hseen.eq_iff (show ':'.toNat < 0x80 by decide)]
    by_cases hdot : c = '.'
    · subst hdot
      exact .of_readCondition (name?_agrees (tail_of_lt h (by decide))) rfl
    by_cases hhash : c = '#'
    · subst hhash
      exact .of_readCondition (name?_agrees (tail_of_lt h (by decide))) rfl
    by_cases hbracket : c = '['
    · subst hbracket
      exact .of_readCondition (f := id) (test?_agrees (tail_of_lt h (by decide))) (congrArg some (map_id_eq _).symm)
    by_cases hcolon : c = ':'
    · subst hcolon
      exact .of_readCondition (f := id) (pseudoClass?_agrees (tail_of_lt h (by decide))) (congrArg some (map_id_eq _).symm)
    · rw [if_neg hdot, if_neg hhash, if_neg hbracket, if_neg hcolon]
      refine .stop h (readConditions_of_none ?_)
      unfold readCondition?
      split
      case h_5 => rfl
      all_goals
        next heq =>
          obtain ⟨rfl, -⟩ := List.cons.inj heq
          contradiction

/-- Reads the type of a compound, if it has one. -/
def type? (t : Text) (i : Nat) : Option (Except String (Option Text × Nat)) :=
  match unit? t i with
  | none => some (.ok (none, i))
  | some b =>
    if b = '*' then some (.ok (none, i + 1))
    else if isNameChar b || b == '\\' then becomes (name? t i) some
    else some (.ok (none, i))

theorem type?_agrees (h : RestAt t i r) : Agrees t (Says t) (readType r) (type? t i) := by
  cases r with
  | nil =>
    rw [type?, unit?_nil h]
    exact .ok h
  | cons c s =>
    obtain ⟨b, hb, hseen⟩ := exists_unit? h
    have hname : Coarse fun b => isNameChar b || b == '\\' := by
      intro b c hb hc
      dsimp only
      rw [css_isNameChar_of_le hb, css_isNameChar_of_le hc, Bool.true_or, Bool.true_or]
    simp only [type?, hb, readType, hseen.eq_iff (show '*'.toNat < 0x80 by decide), hseen.apply_eq hname]
    split
    · next hc =>
      subst hc
      exact .ok (tail_of_lt h (by decide))
    split
    · exact (name?_agrees h).becomes some
    · exact .ok h

/-- Reads a compound, which may not be empty. -/
def compound? (t : Text) (i : Nat) : Option (Except String (Compound × Nat)) :=
  andThen (type? t i) fun type afterType =>
    andThen (many? t (condition? t) afterType) fun conditions j =>
      if j = i then some (.error s!"unexpected character at offset {j}") else some (.ok (⟨type, conditions⟩, j))

theorem compound?_agrees (h : RestAt t i r) : Agrees t (Says t) (readCompound r) (compound? t i) := by
  unfold readCompound compound?
  refine (type?_agrees h).andThen (fun e he => by rw [he]) fun type afterType j ht hj => ?_
  rw [ht]
  dsimp only
  refine (many?_agrees (fun _ _ => condition?_eq) hj).andThen (fun e he => by rw [he]) fun conditions rest k hc hk => ?_
  have hle : rest.length ≤ r.length := Nat.le_trans (length_of_readConditions hc) (length_of_readType ht)
  rw [hc]
  dsimp only
  by_cases hlen : rest.length = r.length
  · have hki : k = i := hk.eq_of_length_eq h hlen
    rw [if_pos hlen, if_pos hki, hki, ← offset_eq h]
    exact .error rfl
  · have hik := h.lt_of_length_lt hk (Nat.lt_of_le_of_ne hle hlen)
    rw [if_neg hlen, if_neg (Nat.ne_of_gt hik)]
    exact .ok hk

/-! ## Selectors -/

/-- Reads a combinator with the blanks around it; the text may not end here. -/
def combinator? (t : Text) (i : Nat) : Option (Except String (Combinator × Nat)) :=
  let mark := skipWhile isBlank t i
  if unit? t mark == some '>' then some (.ok (.child, skipWhile isBlank t (mark + 1)))
  else if unit? t mark == some '+' then some (.ok (.adjacent, skipWhile isBlank t (mark + 1)))
  else if unit? t mark == some '~' then some (.ok (.sibling, skipWhile isBlank t (mark + 1)))
  else if i < mark then some (.ok (.descendant, mark))
  else some (.error s!"unexpected character at offset {mark}")

theorem combinator?_agrees (h : RestAt t i r) : Agrees t (Says t) (readCombinator r) (combinator? t i) := by
  have hmark : RestAt t (skipWhile isBlank t i) (skipBlanks r) := skipWhile_rest coarse_isBlank h
  have hle := length_skipBlanks_le r
  have hlt : i < skipWhile isBlank t i ↔ (skipBlanks r).length < r.length := by
    constructor
    · intro hlt
      refine Nat.lt_of_le_of_ne hle fun heq => ?_
      rw [hmark.eq_of_length_eq h heq] at hlt
      exact Nat.lt_irrefl _ hlt
    · exact h.lt_of_length_lt hmark
  unfold readCombinator combinator?
  simp only [beq_unit? hmark (show '>'.toNat < 0x80 by decide), beq_unit? hmark (show '+'.toNat < 0x80 by decide),
    beq_unit? hmark (show '~'.toNat < 0x80 by decide), hlt]
  generalize skipWhile isBlank t i = mark at hmark
  split
  · next rest heq =>
    rw [heq] at hmark ⊢
    exact .ok (skipWhile_rest coarse_isBlank (tail_of_lt hmark (by decide)))
  · next rest heq =>
    rw [heq] at hmark ⊢
    exact .ok (skipWhile_rest coarse_isBlank (tail_of_lt hmark (by decide)))
  · next rest heq =>
    rw [heq] at hmark ⊢
    exact .ok (skipWhile_rest coarse_isBlank (tail_of_lt hmark (by decide)))
  · next hchild hadjacent hsibling =>
    have hmarks : ((skipBlanks r).head? == some '>') = false ∧ ((skipBlanks r).head? == some '+') = false ∧
        ((skipBlanks r).head? == some '~') = false := by
      cases hs : skipBlanks r with
      | nil => exact ⟨rfl, rfl, rfl⟩
      | cons c s =>
        have hc : c ≠ '>' ∧ c ≠ '+' ∧ c ≠ '~' :=
          ⟨fun hc => hchild s (hc ▸ hs), fun hc => hadjacent s (hc ▸ hs), fun hc => hsibling s (hc ▸ hs)⟩
        simpa using hc
    rw [hmarks.1, hmarks.2.1, hmarks.2.2, if_neg Bool.false_ne_true, if_neg Bool.false_ne_true, if_neg Bool.false_ne_true]
    split
    · exact .ok hmark
    · rw [← offset_eq hmark]
      exact .error rfl

/-- Reads a combinator and the compound behind it. -/
def step? (t : Text) (i : Nat) : Option (Except String ((Combinator × Compound) × Nat)) :=
  andThen (combinator? t i) fun k j => becomes (compound? t j) fun c => (k, c)

/-- Reads a combinator and the compound behind it, if the text goes on. -/
def continuation? (t : Text) (i : Nat) : Option (Except String (Option (List (Combinator × Compound)) × Nat)) :=
  let next := skipWhile isBlank t i
  if unit? t next = none then some (.ok (none, next)) else becomes (step? t i) fun part => some [part]

/-- Reads one selector, without commas. -/
def selector? (s : Text) : Option (Except (Text × String) Selector) :=
  let t := trim s
  (andThen (compound? t 0) fun c i => becomes (many? t (continuation? t) i) (Selector.ofParts t c)).map
    fun result => (result.map Prod.fst).mapError (t, ·)

/-- A combinator and the compound behind it, read by characters. -/
def readStep (s : Text) : Except Refusal ((Combinator × Compound) × Text) :=
  match readCombinator s with
  | .error e => .error e
  | .ok (k, rest) => (readCompound rest).map fun p => ((k, p.1), p.2)

theorem length_lt_of_readStep {rest : Text} {part : Combinator × Compound} (h : readStep s = .ok (part, rest)) :
    rest.length < s.length := by
  unfold readStep at h
  split at h
  · cases h
  · next hk =>
    obtain ⟨⟨c, rest⟩, hc, he⟩ := exists_of_map_eq_ok h
    cases he
    exact Nat.lt_trans (length_lt_of_readCompound hc) (length_of_readCombinator hk)

theorem readContinuation_of_ne_nil (h : skipBlanks s ≠ []) : readContinuation s =
    match readStep s with
    | .error e => .error e
    | .ok (part, rest) => (readContinuation rest).map (part :: ·) := by
  rw [readContinuation, if_neg h, readStep]
  split
  · next hk => rw [hk]
  · next hk =>
    rw [hk]
    dsimp only
    split
    · next hc =>
      rw [hc]
      rfl
    · next hc =>
      rw [hc]
      rfl

theorem step?_agrees (h : RestAt t i r) : Agrees t (Says t) (readStep r) (step? t i) := by
  unfold readStep step?
  refine (combinator?_agrees h).andThen (fun e he => by rw [he]) fun k rest j hk hj => ?_
  rw [hk]
  exact (compound?_agrees hj).becomes (k, ·)

theorem continuation?_eq (h : RestAt t i r) :
    Part t (Says t) (fun s => (readContinuation s).map (·, [])) r (continuation? t i) := by
  have hnext : RestAt t (skipWhile isBlank t i) (skipBlanks r) := skipWhile_rest coarse_isBlank h
  by_cases hend : skipBlanks r = []
  · rw [hend] at hnext
    rw [continuation?, unit?_nil hnext]
    refine .stop hnext ?_
    rw [readContinuation, if_pos hend]
    rfl
  · obtain ⟨c, s, hs⟩ := List.exists_cons_of_ne_nil hend
    have hread := readContinuation_of_ne_nil hend
    rw [hs] at hnext
    obtain ⟨b, hb, -⟩ := exists_unit? hnext
    simp only [continuation?, hb, if_neg (Option.some_ne_none b)]
    refine .of_agrees (f := id) (step?_agrees h) (fun e he => ?_) fun part rest hpart => ?_
    · rw [hread, he]
      rfl
    · refine ⟨length_lt_of_readStep hpart, ?_⟩
      rw [hread, hpart]
      dsimp only
      cases readContinuation rest <;> rfl

/-- A trimmed selector, read by characters. -/
def readSelector (t : Text) : Except Refusal Selector :=
  match readCompound t with
  | .error e => .error e
  | .ok (c, rest) => (readContinuation rest).map (Selector.ofParts t c)

theorem readSelector_agrees (t : Text) : Agrees t (Says t) ((readSelector t).map (·, []))
    (andThen (compound? t 0) fun c i => becomes (many? t (continuation? t) i) (Selector.ofParts t c)) := by
  unfold readSelector
  refine (compound?_agrees (.start t)).andThen (fun e he => ?_) fun c rest j hc hj => ?_
  · rw [he]
    rfl
  · have hmore := (many?_agrees (fun _ _ => continuation?_eq) hj).becomes (Selector.ofParts t c)
    rw [hc]
    dsimp only at hmore ⊢
    generalize readContinuation rest = more at hmore ⊢
    cases more <;> exact hmore

/-- A selector is read by bytes as it is read by characters, or refused for the same reason. -/
theorem selector?_eq (s : Text) :
    selector? s = some ((Selector.parse s).mapError fun refused => (refused.source, refused.reason)) := by
  have hparse : Selector.parse s = (readSelector (trim s)).mapError (⟨trim s, ·⟩) := rfl
  have hagrees := readSelector_agrees (trim s)
  rw [hparse, selector?]
  generalize readSelector (trim s) = x at hagrees ⊢
  generalize andThen (compound? (trim s) 0) _ = x' at hagrees ⊢
  cases x with
  | error e =>
    obtain ⟨hreason⟩ := hagrees
    rw [hreason]
    rfl
  | ok selector =>
    cases hagrees with
    | ok => rfl

/-! ## Matching -/

/-- Whether a value passes a comparison; behind the operand, a dash is looked for in what is cut off there. -/
def holds? (k : Comparison) (value operand : Text) : Option Bool :=
  match k with
  | .dash =>
    if value == operand then some true
    else if operand.isPrefixOf value then do
      let rest ← slice? value (byteSize operand) (byteSize value)
      return rest.head? == some '-'
    else some false
  | k => some (k.holds value operand)

/-- Whether an element passes an attribute test. -/
def attributeMatches? (d : Dialect) (e : Element) (name : Text) (k : Comparison) (operand : Text) : Option Bool :=
  match e.attributeIn? d name with
  | none => some false
  | some value => holds? k value operand

theorem holds?_eq (k : Comparison) (value operand : Text) : holds? k value operand = some (k.holds value operand) := by
  cases k with
  | dash =>
    rw [holds?, Comparison.holds]
    by_cases heq : (value == operand) = true
    · rw [if_pos heq, heq, Bool.true_or]
    rw [if_neg heq, Bool.eq_false_iff.2 heq, Bool.false_or]
    by_cases hp : operand <+: value
    · obtain ⟨rest, rfl⟩ := hp
      have hrest : RestAt (operand ++ rest) (byteSize operand) rest := ⟨operand, rfl, rfl⟩
      rw [if_pos (List.isPrefixOf_iff_prefix.2 ⟨rest, rfl⟩), hrest.slice?_rest]
      refine congrArg some (Bool.eq_iff_iff.2 ?_)
      rw [beq_iff_eq, List.isPrefixOf_iff_prefix, List.prefix_append_right_inj, List.head?_eq_some_iff]
      constructor
      · rintro ⟨rest, rfl⟩
        exact ⟨rest, rfl⟩
      · rintro ⟨rest, rfl⟩
        exact ⟨rest, rfl⟩
    · have hdash : ¬ operand ++ ['-'] <+: value := fun h => hp ((List.prefix_append operand ['-']).trans h)
      rw [if_neg (mt List.isPrefixOf_iff_prefix.1 hp), Bool.eq_false_iff.2 (mt List.isPrefixOf_iff_prefix.1 hdash)]
  | equal | word | start | finish | within => rfl

theorem attributeMatches?_eq (d : Dialect) (p : Place) (name : Text) (k : Comparison) (operand : Text) :
    attributeMatches? d p.element name k operand = some ((Simple.compare name k operand).holds d p) := by
  rw [attributeMatches?, Simple.holds]
  cases p.element.attributeIn? d name with
  | none => rfl
  | some value => exact holds?_eq k value operand

end MailTemplate.Bytes
