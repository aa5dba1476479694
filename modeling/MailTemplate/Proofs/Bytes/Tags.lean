import MailTemplate.Proofs.Bytes.Scanning
import MailTemplate.Proofs.Markup.NamePlaces
import MailTemplate.Proofs.Markup.Spelling
/-!
# Tags by bytes

The end of a tag, its name and its attributes, read by bytes. Whatever is cut out of a tag is what the readers of
characters cut out of it (`tagEnd?_eq`, `tagInfo?_eq`, `attributes?_eq`).
-/
namespace MailTemplate.Bytes

open Text

variable {b c : Char} {inside r s t : Text} {i j : Nat} {quote : Option Char}

/-! ## Classes of bytes -/

theorem isNameChar_of_le (hb : 0x80 ≤ b.toNat) : Tag.isNameChar b = false := by
  simp [Tag.isNameChar, isAlphanum_of_le hb, ne_of_le hb]

theorem isAttributeNameChar_of_le (hb : 0x80 ≤ b.toNat) : Tag.isAttributeNameChar b = true := by
  simp [Tag.isAttributeNameChar, isBlank_of_le hb, ne_of_le hb]

theorem coarse_isNameChar : Coarse Tag.isNameChar := .of_eq_false fun _ => isNameChar_of_le

theorem coarse_isAttributeNameChar : Coarse Tag.isAttributeNameChar := fun _ _ hb hc =>
  (isAttributeNameChar_of_le hb).trans (isAttributeNameChar_of_le hc).symm

/-! ## The end of a tag -/

/-- The offset of the first `>` outside quotes, from `i` on; `quote` is the quote open there. -/
def tagEnd? (quote : Option Char) (t : Text) (i : Nat) : Option Nat :=
  match _h : unit? t i with
  | none => none
  | some b => if b = '>' ∧ quote = none then some i else tagEnd? (Tag.quoteAfter quote b) t (i + 1)
termination_by byteSize t - i
decreasing_by
  have := lt_of_unit? (by assumption)
  omega

theorem tagEnd?_of_unit? (h : unit? t i = some b) :
    tagEnd? quote t i = if b = '>' ∧ quote = none then some i else tagEnd? (Tag.quoteAfter quote b) t (i + 1) := by
  rw [tagEnd?]
  split
  · next h' => simp [h] at h'
  · next h' =>
    rw [h] at h'
    cases h'
    rfl

theorem tagEnd?_of_none (h : unit? t i = none) : tagEnd? quote t i = none := by
  rw [tagEnd?]
  split
  · rfl
  · next h' => simp [h] at h'

theorem quoteAfter_of_le (hq : ∀ q ∈ quote, isQuote q = true) (hb : 0x80 ≤ b.toNat) : Tag.quoteAfter quote b = quote := by
  cases quote with
  | none => rw [Tag.quoteAfter, isQuote_of_le hb, if_neg Bool.false_ne_true]
  | some q => rw [Tag.quoteAfter, if_neg (ne_of_le hb (lt_of_isQuote (hq q rfl)))]

theorem isQuote_quoteAfter (hq : ∀ q ∈ quote, isQuote q = true) (c : Char) :
    ∀ q ∈ Tag.quoteAfter quote c, isQuote q = true := by
  intro q h
  cases quote with
  | none =>
    rw [Tag.quoteAfter, Option.mem_def, Option.ite_none_right_eq_some, Option.some_inj] at h
    exact h.2 ▸ h.1
  | some q' =>
    rw [Tag.quoteAfter, Option.mem_def, Option.ite_none_left_eq_some] at h
    exact hq q h.2

theorem tagEnd?_eq (hq : ∀ q ∈ quote, isQuote q = true) (h : RestAt t i r) :
    tagEnd? quote t i = (Tag.endFrom? quote r).map fun p => i + byteSize p.1 := by
  induction r generalizing quote i with
  | nil => rw [tagEnd?_of_none (unit?_nil h), Tag.endFrom?, Option.map_none]
  | cons c r ih =>
    obtain ⟨b, hb, hseen⟩ := exists_unit? h
    have hcoarse : Coarse (Tag.quoteAfter quote) := fun x y hx hy =>
      (quoteAfter_of_le hq hx).trans (quoteAfter_of_le hq hy).symm
    have hpass : ∀ k, isInside t k = true →
        tagEnd? (Tag.quoteAfter quote c) t k = tagEnd? (Tag.quoteAfter quote c) t (k + 1) := by
      intro k hk
      obtain ⟨x, hx, hle⟩ := exists_unit?_of_isInside hk
      rw [tagEnd?_of_unit? hx, if_neg fun h => ne_of_le hle (by decide) h.1,
        quoteAfter_of_le (isQuote_quoteAfter hq c) hle]
    rw [tagEnd?_of_unit? hb, Tag.endFrom?, hseen.apply_eq hcoarse]
    simp only [hseen.eq_iff (show '>'.toNat < 0x80 by decide)]
    split
    · rfl
    · rw [pass (f := tagEnd? _ t) hpass h, ih (isQuote_quoteAfter hq c) h.tail, Option.map_map]
      refine congrArg (fun f => (Tag.endFrom? _ r).map f) (funext fun p => ?_)
      simp only [Function.comp_apply, byteSize, Nat.add_assoc]

/-- The end of a tag is found by bytes where it is found by characters. -/
theorem tagEnd?_none_eq (h : RestAt t i r) : tagEnd? none t i = (Tag.end? r).map fun p => i + byteSize p.1 :=
  tagEnd?_eq (fun q hq => absurd hq (Option.not_mem_none q)) h

/-! ## Name and closing mark -/

/-- Whether what begins at `i` with `<` is a start or end tag. -/
def opensTag (t : Text) (i : Nat) : Bool :=
  match unit? t (i + 1) with
  | none => false
  | some b => if b = '/' then (unit? t (i + 2)).any Char.isAlpha else b.isAlpha

theorem opensTag_eq (h : RestAt t i ('<' :: s)) : opensTag t i = Tag.opens s := by
  have hs := tail_of_lt h (by decide)
  unfold opensTag
  cases s with
  | nil => rw [unit?_nil hs, Tag.opens]
  | cons c s =>
    obtain ⟨b, hb, hseen⟩ := exists_unit? hs
    rw [hb]
    dsimp only
    by_cases hc : c = '/'
    · subst hc
      rw [if_pos ((hseen.eq_iff (by decide)).2 rfl), any_unit? coarse_isAlpha (tail_of_lt hs (by decide))]
      cases s <;> rfl
    · rw [if_neg fun h => hc ((hseen.eq_iff (by decide)).1 h), hseen.apply_eq coarse_isAlpha, Tag.opens]
      rintro _ _ h
      exact absurd h hc

/-- What is read off a tag besides its attributes. -/
structure TagInfo where
  name : Text
  isEnd : Bool
  closesItself : Bool
  deriving Repr, DecidableEq

/-- The offset behind the last byte before `i` that `p` does not accept. -/
def skipBack (p : Char → Bool) (t : Text) : Nat → Nat
  | 0 => 0
  | j + 1 => if (unit? t j).any p then skipBack p t j else j + 1

/-- Reads the name of a tag, from its `<` on, and whether it is an end tag or closes itself. -/
def tagInfo? (tag : Text) : Option TagInfo := do
  let isEnd := unit? tag 1 == some '/'
  let start := skipWhile isBlank tag (if isEnd then 2 else 1)
  let name ← slice? tag start (skipWhile Tag.isNameChar tag start)
  let j := skipBack isBlank tag (byteSize tag - 1)
  return ⟨name, isEnd, !isEnd && (2 ≤ j && unit? tag (j - 1) == some '/')⟩

/-- The last byte of a character is seen as its first byte is. -/
theorem exists_unit?_last (h : RestAt t i (c :: r)) : ∃ b, unit? t (i + c.utf8Size - 1) = some b ∧ Seen b c := by
  rcases Nat.eq_or_lt_of_le (Nat.succ_le_of_lt c.utf8Size_pos) with hone | hmore
  · rw [← hone]
    exact exists_unit? h
  · obtain ⟨b, hb, hle⟩ := exists_unit?_of_isInside (isInside_of_lt h (k := c.utf8Size - 1) (by omega) (by omega))
    rw [← Nat.add_sub_assoc (by omega)] at hb
    refine ⟨b, hb, .inr ⟨?_, hle⟩⟩
    by_contra hlt
    rw [utf8Size_of_lt (by omega)] at hmore
    exact Nat.lt_irrefl _ hmore

/-- Blanks are skipped backwards as they are taken off the end of a text. -/
theorem skipBack_eq (s r : Text) : skipBack isBlank (s ++ r) (byteSize s) = byteSize (dropEnd isBlank s) := by
  induction s using List.reverseRecOn generalizing r with
  | nil => rfl
  | append_singleton s c ih =>
    have hat : RestAt (s ++ [c] ++ r) (byteSize s) (c :: r) := ⟨s, by simp, rfl⟩
    obtain ⟨b, hb, hseen⟩ := exists_unit?_last hat
    obtain ⟨k, hk⟩ := Nat.exists_eq_add_one_of_ne_zero (Nat.ne_of_gt c.utf8Size_pos)
    have hsize : byteSize (s ++ [c]) = byteSize s + k + 1 := by
      rw [byteSize_append, byteSize, byteSize, hk]
      rfl
    rw [hk] at hb
    rw [hsize, skipBack, show unit? _ (byteSize s + k) = some b from hb, Option.any_some, hseen.apply_eq coarse_isBlank]
    by_cases hc : isBlank c = true
    · have hone : c.utf8Size = 1 := utf8Size_of_lt (Nat.lt_of_not_le fun hle => by simp [isBlank_of_le hle] at hc)
      obtain rfl : k = 0 := by omega
      rw [if_pos hc, Nat.add_zero, List.append_assoc, ih, dropEnd_append s (by simpa using hc)]
    · rw [if_neg hc, ← hsize, dropEnd_concat s (by simpa using hc)]

/-- Where the last byte is a slash, the last character is. -/
theorem unit?_pred_eq_some_iff (s r : Text) (hs : s ≠ []) :
    unit? (s ++ r) (byteSize s - 1) = some '/' ↔ s.getLast? = some '/' := by
  obtain ⟨s, c, rfl⟩ := List.eq_nil_or_concat s |>.resolve_left hs
  obtain ⟨b, hb, hseen⟩ := exists_unit?_last (t := s ++ [c] ++ r) (r := r) (c := c)
    ⟨s, by simp, rfl⟩
  rw [List.concat_eq_append, byteSize_append, byteSize, byteSize, Nat.add_zero, hb, Option.some_inj,
    hseen.eq_iff (by decide), List.getLast?_concat, Option.some_inj]

/-- Where the name stands in what follows the `<`, with a slash and blanks before it. -/
def nameIn (s : Text) : Text := (if s.head? = some '/' then s.drop 1 else s).dropWhile isBlank

theorem tagInfo?_start (s : Text) : RestAt ('<' :: s)
    (skipWhile isBlank ('<' :: s) (if unit? ('<' :: s) 1 == some '/' then 2 else 1)) (nameIn s) := by
  have hs : RestAt ('<' :: s) 1 s := tail_of_lt (.start _) (by decide)
  refine skipWhile_rest coarse_isBlank ?_
  rw [beq_unit? hs (by decide)]
  cases hslash : s.head? == some '/' with
  | false => rwa [if_neg Bool.false_ne_true, if_neg (by simpa using hslash)]
  | true =>
    obtain ⟨more, rfl⟩ := List.head?_eq_some_iff.1 (beq_iff_eq.1 hslash)
    exact tail_of_lt hs (by decide)

/-- The name can be cut out of any text that begins with `<`, as all tags do. -/
theorem tagInfo?_name (s : Text) : (tagInfo? ('<' :: s)).map TagInfo.name = some (Tag.name (nameIn s)) := by
  rw [tagInfo?]
  dsimp only
  rw [slice?_skipWhile coarse_isNameChar (tagInfo?_start s)]
  rfl

theorem dropEnd_cons (s : Text) : dropEnd isBlank ('<' :: s) = '<' :: dropEnd isBlank s := by
  induction s using List.reverseRecOn with
  | nil => rfl
  | append_singleton s c ih =>
    cases hc : isBlank c with
    | true => rw [← List.cons_append, dropEnd_append _ (by simpa using hc), dropEnd_append _ (by simpa using hc), ih]
    | false => rw [← List.cons_append, dropEnd_concat _ hc, dropEnd_concat _ hc, List.cons_append]

/-- Whether a tag closes itself can be told from the byte before its end mark, blanks aside. -/
theorem closesItself_eq (inside : Text) :
    (let j := skipBack isBlank ('<' :: (inside ++ ['>'])) (byteSize ('<' :: (inside ++ ['>'])) - 1)
    2 ≤ j && unit? ('<' :: (inside ++ ['>'])) (j - 1) == some '/') = Tag.closesItself inside := by
  have hsize : byteSize ('<' :: (inside ++ ['>'])) - 1 = byteSize ('<' :: inside) := by
    rw [← List.cons_append, byteSize_append]
    rfl
  have hj : skipBack isBlank ('<' :: (inside ++ ['>'])) (byteSize ('<' :: inside)) =
      byteSize ('<' :: dropEnd isBlank inside) := by
    rw [← List.cons_append, skipBack_eq, dropEnd_cons]
  obtain ⟨blanks, hblanks⟩ : dropEnd isBlank inside <+: inside := List.rdropWhile_prefix isBlank inside
  have hslash := unit?_pred_eq_some_iff ('<' :: dropEnd isBlank inside) (blanks ++ ['>']) (List.cons_ne_nil _ _)
  rw [List.cons_append, ← List.append_assoc, hblanks] at hslash
  dsimp only
  rw [hsize, hj, Tag.closesItself, Bool.eq_iff_iff, Bool.and_eq_true, decide_eq_true_iff, beq_iff_eq, beq_iff_eq, hslash]
  cases dropEnd isBlank inside with
  | nil => decide
  | cons c s =>
    rw [List.getLast?_cons_cons, and_iff_right]
    have := c.utf8Size_pos
    rw [byteSize, byteSize]
    change 2 ≤ 1 + _
    omega

theorem tagInfo?_eq (inside : Text) : tagInfo? ('<' :: (inside ++ ['>'])) = some ⟨Tag.name (nameIn (inside ++ ['>'])),
    (inside ++ ['>']).head? == some '/', !((inside ++ ['>']).head? == some '/') && Tag.closesItself inside⟩ := by
  rw [tagInfo?]
  dsimp only
  rw [slice?_skipWhile coarse_isNameChar (tagInfo?_start _), ← closesItself_eq inside,
    beq_unit? (tail_of_lt (.start _) (by decide)) (by decide)]
  rfl

theorem name_concat (s : Text) : Tag.name (s ++ ['>']) = Tag.name s := by
  induction s with
  | nil => rfl
  | cons c s ih =>
    rw [Tag.name, Tag.name] at ih
    rw [Tag.name, Tag.name, List.cons_append, List.takeWhile_cons, List.takeWhile_cons, ih]

theorem not_isBlank_of_isAlpha (hc : c.isAlpha = true) : ¬ isBlank c = true := by
  intro h
  rw [isAlpha_of_isWhiteSpace (isWhiteSpace_of_isBlank h)] at hc
  cases hc

theorem tagInfo?_of_isStart (h : Tag.IsStart inside) :
    tagInfo? ('<' :: (inside ++ ['>'])) = some ⟨Tag.name inside, false, Tag.closesItself inside⟩ := by
  have hhead := h.head?_ne
  obtain ⟨-, c, more, rfl, hc⟩ := h
  rw [List.head?_cons] at hhead
  rw [tagInfo?_eq, List.cons_append, nameIn, List.head?_cons, if_neg hhead, beq_eq_false_iff_ne.2 hhead,
    List.dropWhile_cons_of_neg (not_isBlank_of_isAlpha hc), ← List.cons_append, name_concat]
  rfl

theorem tagInfo?_of_isEnd (h : Tag.IsEnd inside) :
    tagInfo? ('<' :: (inside ++ ['>'])) = some ⟨Tag.name (inside.drop 1), true, false⟩ := by
  obtain ⟨-, c, more, rfl, hc⟩ := h
  have hname : nameIn ('/' :: c :: more ++ ['>']) = c :: more ++ ['>'] :=
    List.dropWhile_cons_of_neg (not_isBlank_of_isAlpha hc)
  rw [tagInfo?_eq, hname, name_concat]
  rfl

/-! ## Attributes -/

/-- Reads a value from after its `=`: the value, and the offset behind it. -/
def value? (tag : Text) (i : Nat) : Option (Text × Nat) := do
  let start := skipWhile isBlank tag i
  match unit? tag start with
  | none => return ([], start)
  | some b =>
    if b = '>' then return ([], start)
    else if isQuote b then
      let stop := skipWhile (· != b) tag (start + 1)
      let value ← slice? tag (start + 1) stop
      return (value, if stop < byteSize tag then stop + 1 else stop)
    else
      let stop := skipWhile (fun b => !isBlank b && b != '>') tag start
      let value ← slice? tag start stop
      return (value, stop)

/-- Reads an attribute, the first byte of whose name stands at `i`, and the offset behind it. -/
def attribute? (tag : Text) (i : Nat) : Option (Attribute × Nat) := do
  let stop := skipWhile Tag.isAttributeNameChar tag (i + 1)
  let name ← slice? tag i stop
  let next := skipWhile isBlank tag stop
  if unit? tag next == some '=' then
    let (value, behind) ← value? tag (next + 1)
    return (⟨name, some value⟩, behind)
  else return (⟨name, none⟩, next)

/-- A round of the loop over the attributes: what it passes over, and the attribute that it reads, if it comes to one. -/
def attributeRound? (tag : Text) (i : Nat) : Option (List Attribute × Option Nat) :=
  if (unit? tag i).all (· == '>') then some ([], none)
  else
    let start := skipWhile (fun b => isBlank b || b == '/') tag i
    match unit? tag start with
    | none => some ([], none)
    | some b =>
      if b = '>' then some ([], none)
      else if !Tag.isAttributeNameChar b then some ([], some (start + 1))
      else (attribute? tag start).map fun (a, behind) => ([a], some behind)

/-- Reads the attributes of a tag, from its `<` on. -/
def attributes? (tag : Text) : Option (List Attribute) :=
  if byteSize tag < 2 then some []
  else loop? tag (attributeRound? tag) (skipWhile Tag.isNameChar tag 1)

theorem coarse_unquoted : Coarse fun b => !isBlank b && b != '>' :=
  .and (.not coarse_isBlank) (coarse_bne (by decide))

theorem coarse_passed : Coarse fun b => isBlank b || b == '/' := .of_eq_false fun b hb => by
  rw [isBlank_of_le hb, Bool.false_or, beq_eq_false_iff_ne]
  exact ne_of_le hb (by decide)

theorem value?_eq (h : RestAt t i r) :
    ∃ j, value? t i = some ((Tag.readValue r).1, j) ∧ RestAt t j (Tag.readValue r).2 := by
  have hstart := skipWhile_rest coarse_isBlank h
  rw [value?, Tag.readValue]
  dsimp only
  generalize skipWhile isBlank t i = start at hstart
  generalize r.dropWhile isBlank = s at hstart
  cases s with
  | nil => exact ⟨start, by rw [unit?_nil hstart]; rfl, hstart⟩
  | cons c s =>
    obtain ⟨b, hb, hseen⟩ := exists_unit? hstart
    rw [hb]
    simp only [hseen.eq_iff (show '>'.toNat < 0x80 by decide), hseen.apply_eq coarse_isQuote]
    by_cases hgt : c = '>'
    · subst hgt
      exact ⟨start, rfl, hstart⟩
    rw [if_neg hgt, if_neg hgt]
    by_cases hq : isQuote c = true
    · have hlt := lt_of_isQuote hq
      obtain rfl := (hseen.eq_iff hlt).2 rfl
      have hs := tail_of_lt hstart hlt
      have hstop := skipWhile_rest (coarse_bne hlt) hs
      rw [if_pos hq, if_pos hq, slice?_skipWhile (coarse_bne hlt) hs]
      refine ⟨_, rfl, ?_⟩
      -- the second quote is passed over, if it is there
      cases hrest : s.dropWhile (· != b) with
      | nil =>
        rw [hrest] at hstop
        rw [if_neg (by rw [hstop.byteSize_eq]; exact Nat.lt_irrefl _)]
        exact hstop
      | cons c s' =>
        rw [hrest] at hstop
        obtain ⟨_, hx, -⟩ := exists_unit? hstop
        have hc : c = b := by
          have := List.head?_dropWhile_not (· != b) s
          rw [hrest] at this
          simpa using this
        rw [if_pos (lt_of_unit? hx)]
        exact tail_of_lt hstop (hc ▸ hlt)
    · rw [if_neg hq, if_neg hq, slice?_skipWhile coarse_unquoted hstart]
      exact ⟨_, rfl, skipWhile_rest coarse_unquoted hstart⟩

/-- Blanks and slashes are passed over before a name. -/
theorem readAttributes_passed (s : Text) :
    Tag.readAttributes (s.dropWhile fun c => isBlank c || c == '/') = Tag.readAttributes s := by
  induction s with
  | nil => rfl
  | cons c s ih =>
    rw [List.dropWhile_cons]
    split
    · next hc =>
      have hname : Tag.isAttributeNameChar c = false ∧ c ≠ '>' := by
        rcases Bool.or_eq_true _ _ ▸ hc with hb | hb
        · exact ⟨Tag.isAttributeNameChar_of_isBlank hb, Tag.ne_of_isBlank hb (by decide)⟩
        · rw [beq_iff_eq.1 hb]
          decide
      rw [ih, Tag.readAttributes_skip hname.1 hname.2]
    · rfl

theorem attribute?_eq (h : RestAt t i (c :: s)) (hname : Tag.isAttributeNameChar c = true) :
    ∃ j, attribute? t i = some (⟨c :: s.takeWhile Tag.isAttributeNameChar,
        (Tag.readAssigned (s.dropWhile Tag.isAttributeNameChar)).1⟩, j) ∧
      RestAt t j (Tag.readAssigned (s.dropWhile Tag.isAttributeNameChar)).2 := by
  obtain ⟨b, hb, hseen⟩ := exists_unit? h
  -- the first byte of the name is one that names have, so the run of such bytes begins there
  have hrun : skipWhile Tag.isAttributeNameChar t i = skipWhile Tag.isAttributeNameChar t (i + 1) := by
    rw [skipWhile_of_unit? hb, if_pos ((hseen.apply_eq coarse_isAttributeNameChar).trans hname)]
  have hstop := skipWhile_rest coarse_isAttributeNameChar h
  have hslice := slice?_skipWhile coarse_isAttributeNameChar h
  rw [List.dropWhile_cons_of_pos hname, hrun] at hstop
  rw [List.takeWhile_cons_of_pos hname, hrun] at hslice
  have hnext := skipWhile_rest coarse_isBlank hstop
  rw [attribute?]
  dsimp only
  rw [hslice, Option.bind_eq_bind, Option.bind_some, beq_unit? hnext (by decide), Tag.readAssigned]
  by_cases heq : ((s.dropWhile Tag.isAttributeNameChar).dropWhile isBlank).head? = some '='
  · obtain ⟨more, hmore⟩ := List.head?_eq_some_iff.1 heq
    rw [if_pos heq, beq_iff_eq.2 heq]
    rw [hmore] at hnext ⊢
    obtain ⟨j, hv, hj⟩ := value?_eq (tail_of_lt hnext (by decide))
    rw [hv]
    exact ⟨j, rfl, hj⟩
  · rw [if_neg heq, beq_eq_false_iff_ne.2 heq]
    exact ⟨_, rfl, hnext⟩

/-- Each round of the loop reads an attribute, or comes nearer to one, or to the end. -/
theorem attributeRound?_eq (h : RestAt t i r) : Round t Tag.readAttributes r (attributeRound? t i) := by
  have hstart := skipWhile_rest coarse_passed h
  have hread := readAttributes_passed r
  have hle := (List.dropWhile_suffix (fun c => isBlank c || c == '/') (l := r)).length_le
  rw [attributeRound?]
  split
  · next hall =>
    refine .stop ?_
    cases r with
    | nil => rw [Tag.readAttributes]
    | cons c r =>
      obtain ⟨b, hb, hseen⟩ := exists_unit? h
      rw [hb, Option.all_some, beq_iff_eq, hseen.eq_iff (by decide)] at hall
      rw [hall, Tag.readAttributes_end]
  · dsimp only
    generalize skipWhile (fun b => isBlank b || b == '/') t i = start at hstart
    generalize r.dropWhile (fun b => isBlank b || b == '/') = s at hstart hread hle
    cases s with
    | nil =>
      rw [unit?_nil hstart]
      exact .stop (hread.symm.trans (by rw [Tag.readAttributes]))
    | cons c s =>
      obtain ⟨b, hb, hseen⟩ := exists_unit? hstart
      rw [hb]
      simp only [hseen.eq_iff (show '>'.toNat < 0x80 by decide), hseen.apply_eq coarse_isAttributeNameChar]
      rw [List.length_cons] at hle
      by_cases hgt : c = '>'
      · subst hgt
        exact .stop (hread.symm.trans (Tag.readAttributes_end s))
      rw [if_neg hgt]
      cases hname : Tag.isAttributeNameChar c with
      | false =>
        have hlt : c.toNat < 0x80 := Nat.lt_of_not_le fun hle => by simp [isAttributeNameChar_of_le hle] at hname
        exact .next (tail_of_lt hstart hlt) hle (hread.symm.trans (Tag.readAttributes_skip hname hgt s))
      | true =>
        have hsuffix := (Tag.readAssigned_suffix _).trans (List.dropWhile_suffix Tag.isAttributeNameChar (l := s))
        obtain ⟨j, ha, hj⟩ := attribute?_eq hstart hname
        rw [ha]
        exact .next hj (Nat.lt_of_le_of_lt hsuffix.length_le hle) (hread.symm.trans (Tag.readAttributes_name hgt hname s))

/-- The attributes can be cut out of any text that begins with `<`. -/
theorem attributes?_eq (s : Text) : attributes? ('<' :: s) = some (Tag.readAttributes (s.dropWhile Tag.isNameChar)) := by
  have hs : RestAt ('<' :: s) 1 s := tail_of_lt (.start _) (by decide)
  rw [attributes?]
  split
  · next hlt =>
    have hsize := hs.byteSize_eq
    rw [byteSize_eq_zero_iff.1 (show byteSize s = 0 by omega), List.dropWhile_nil, Tag.readAttributes]
  · exact loop?_eq (fun _ _ h => attributeRound?_eq h) (skipWhile_rest coarse_isNameChar hs)

end MailTemplate.Bytes
