import MailTemplate.Proofs.Bytes.Pieces
import MailTemplate.Proofs.Bytes.Readers
import MailTemplate.Proofs.Bytes.Tags
import MailTemplate.Proofs.Markup.Faults
/-!
# Templates by bytes

A template is read token by token, each from the offset where the one before it ended. A token that is read by bytes is
the one that is read by characters, and ends at the same place (`token?_agrees`); a fault is reported at the same line
and column. So a template is read by bytes as it is by characters (`parse?_eq`).
-/
namespace MailTemplate.Bytes

open Text

variable {c : Char} {name r s t : Text} {i : Nat} {d : Dialect}

/-! ## Raw text -/

/-- Whether a name stands at an offset, the case of ASCII letters aside. -/
def sameLettersAt : Text → Text → Nat → Bool
  | [], _, _ => true
  | x :: name, t, i => (unit? t i).any (·.toLower == x.toLower) && sameLettersAt name t (i + 1)

/-- Where raw text from byte `i` on ends, and where its end tag does. The search goes on behind each `</` that opens no
end tag for `name`. -/
def rawTextEnd? (name t : Text) (i : Nat) : Option (Option (Nat × Nat)) :=
  match _h : find? "</".toList t i with
  | none => some none
  | some pos =>
    if sameLettersAt name t (pos + 2) && (unit? t (pos + 2 + byteSize name)).any (!Tag.isNameChar ·) then
      (findFrom? ['>'] t (pos + 2 + byteSize name)).map (·.map fun close => (pos, close + 1))
    else rawTextEnd? name t (pos + 2)
termination_by byteSize t - i
decreasing_by
  have := le_of_find? (show find? "</".toList t i = some pos by assumption) (by decide)
  have : byteSize "</".toList = 2 := rfl
  omega

/-- Letters are ASCII in upper and in lower case. -/
theorem toLower_ne {b z : Char} (hb : 0x80 ≤ b.toNat) (hz : z.toNat < 0x80) : b.toLower ≠ z.toLower := by
  intro h
  have hsize := utf8Size_toLower b
  rw [h, utf8Size_toLower, utf8Size_of_lt hz] at hsize
  have := utf8Size_eq_one_iff.1 hsize.symm
  omega

/-- Names of ASCII letters are compared byte by byte as they are character by character. -/
theorem sameLettersAt_eq (hname : ∀ x ∈ name, x.toNat < 0x80) (h : RestAt t i r) :
    sameLettersAt name t i = sameLetters (r.take name.length) name := by
  induction name generalizing i r with
  | nil => rfl
  | cons x name ih =>
    have hx := hname x List.mem_cons_self
    have ih := fun {i r} => @ih r i fun y hy => hname y (List.mem_cons_of_mem x hy)
    rw [sameLettersAt]
    cases r with
    | nil => rw [unit?_nil h]; rfl
    | cons c r =>
      obtain ⟨b, hb, hseen⟩ := exists_unit? h
      rw [hb, Option.any_some, List.length_cons, List.take_succ_cons]
      rcases hseen with ⟨hlt, rfl⟩ | ⟨hc, hb'⟩
      · rw [ih (tail_of_lt h hlt)]
        rfl
      · rw [beq_eq_false_iff_ne.2 (toLower_ne hb' hx), Bool.false_and, sameLetters, lower_cons, lower_cons]
        exact (beq_eq_false_iff_ne.2 fun h => toLower_ne hc hx (List.cons.inj h).1).symm

theorem rawTextEnd?_of_none (h : find? "</".toList t i = none) : rawTextEnd? name t i = some none := by
  rw [rawTextEnd?]
  split
  · rfl
  · next h' => cases h.symm.trans h'

theorem rawTextEnd?_of_some {pos : Nat} (h : find? "</".toList t i = some pos) : rawTextEnd? name t i =
    if sameLettersAt name t (pos + 2) && (unit? t (pos + 2 + byteSize name)).any (!Tag.isNameChar ·) then
      (findFrom? ['>'] t (pos + 2 + byteSize name)).map (·.map fun close => (pos, close + 1))
    else rawTextEnd? name t (pos + 2) := by
  rw [rawTextEnd?]
  split
  · next h' => cases h.symm.trans h'
  · next h' =>
    cases h.symm.trans h'
    rfl

theorem restAt_of_sameLetters (hsame : sameLetters (r.take name.length) name = true) (h : RestAt t i r) :
    RestAt t (i + byteSize name) (r.drop name.length) := by
  have hsize := congrArg byteSize (beq_iff_eq.1 hsame)
  rw [byteSize_lower, byteSize_lower] at hsize
  rw [← hsize]
  exact RestAt.append (by rwa [List.take_append_drop])

/-- Whether an end tag for `name` begins at a `</` can be told from the bytes behind it. -/
theorem atEndTag_eq (hname : ∀ x ∈ name, x.toNat < 0x80) (h : RestAt t i r) :
    (sameLettersAt name t i && (unit? t (i + byteSize name)).any (!Tag.isNameChar ·)) =
      Token.atEndTag name ("</".toList ++ r) := by
  rw [sameLettersAt_eq hname h, Token.atEndTag, after?_append]
  dsimp only
  cases hsame : sameLetters (r.take name.length) name with
  | false => rfl
  | true =>
    rw [Bool.true_and, Bool.true_and, any_unit? (.not coarse_isNameChar) (restAt_of_sameLetters hsame h)]
    cases r.drop name.length <;> rfl

/-- Raw text goes on at least to the next `</`. -/
theorem rawText?_of_cut? {before rest : Text} (h : cut? "</".toList r = some (before, rest)) :
    Token.rawText? name r = (Token.rawText? name ("</".toList ++ rest)).map fun p => (before ++ p.1, p.2) := by
  induction r generalizing before with
  | nil => cases h
  | cons c r ih =>
    rw [cut?] at h
    split at h
    · next rest' hafter =>
      obtain ⟨rfl, rfl⟩ := Prod.mk.inj (Option.some.inj h)
      rw [after?_eq_some_iff.1 hafter]
      exact Option.map_id'.symm
    · next hafter =>
      obtain ⟨⟨b, rest'⟩, hr, he⟩ := Option.map_eq_some_iff.1 h
      obtain ⟨rfl, rfl⟩ := Prod.mk.inj he
      have hat : Token.atEndTag name (c :: r) = false := by rw [Token.atEndTag, hafter]
      rw [Token.rawText?, hat, if_neg Bool.false_ne_true, ih hr, Option.map_map]
      rfl

theorem rawText?_of_not_atEndTag (h : Token.atEndTag name ("</".toList ++ r) = false) :
    Token.rawText? name ("</".toList ++ r) = (Token.rawText? name r).map fun p => ("</".toList ++ p.1, p.2) := by
  have hslash : Token.atEndTag name ('/' :: r) = false := rfl
  change Token.rawText? name ('<' :: '/' :: r) = _
  change Token.atEndTag name ('<' :: '/' :: r) = false at h
  rw [Token.rawText?, h, if_neg Bool.false_ne_true, Token.rawText?, hslash, if_neg Bool.false_ne_true, Option.map_map]
  rfl

theorem rawText?_of_atEndTag (h : Token.atEndTag name ("</".toList ++ r) = true) :
    Token.rawText? name ("</".toList ++ r) = (cut? ['>'] (r.drop name.length)).map fun p => ([], p.2) := by
  change Token.atEndTag name ('<' :: '/' :: r) = true at h
  change Token.rawText? name ('<' :: '/' :: r) = _
  rw [Token.rawText?, if_pos h]
  rfl

/-- The end of raw text is found by bytes where it is found by characters. -/
theorem rawTextEnd?_eq (hname : ∀ x ∈ name, x.toNat < 0x80) (h : RestAt t i r) :
    (Token.rawText? name r = none ∧ rawTextEnd? name t i = some none) ∨
    ∃ content rest j, Token.rawText? name r = some (content, rest) ∧
      rawTextEnd? name t i = some (some (i + byteSize content, j)) ∧ RestAt t j rest := by
  induction hl : r.length using Nat.strong_induction_on generalizing i r with
  | _ n ih =>
    have hfind := find?_eq (show "</".toList ≠ [] by decide) h
    cases hcut : cut? "</".toList r with
    | none =>
      rw [hcut] at hfind
      refine .inl ⟨Token.rawText?_eq_none_iff.2 ?_, rawTextEnd?_of_none hfind⟩
      rintro before name' c more rfl - -
      exact absurd (List.infix_append' before _ _) (cut?_eq_none_iff.1 hcut)
    | some p =>
      obtain ⟨before, rest⟩ := p
      rw [hcut] at hfind
      have hrest : RestAt t (i + byteSize before + 2) rest := (restAt_of_cut? h hcut).append
      rw [rawText?_of_cut? hcut, rawTextEnd?_of_some hfind, atEndTag_eq hname hrest]
      cases hat : Token.atEndTag name ("</".toList ++ rest) with
      | true =>
        have hsame : sameLetters (rest.take name.length) name = true := by
          rw [← atEndTag_eq hname hrest, Bool.and_eq_true, sameLettersAt_eq hname hrest] at hat
          exact hat.1
        have hbehind := restAt_of_sameLetters hsame hrest
        rw [if_pos rfl, rawText?_of_atEndTag hat, findFrom?_eq (List.cons_ne_nil _ _) hbehind]
        cases hclose : cut? ['>'] (rest.drop name.length) with
        | none => exact .inl ⟨rfl, rfl⟩
        | some q =>
          refine .inr ⟨before ++ [], q.2, _, rfl, ?_, (restAt_of_cut? hbehind hclose).append⟩
          rw [List.append_nil]
          rfl
      | false =>
        rw [if_neg Bool.false_ne_true, rawText?_of_not_atEndTag hat]
        have hlt : rest.length < n := hl ▸ length_lt_of_cut? (by decide) hcut
        rcases ih _ hlt hrest rfl with ⟨hnone, hend⟩ | ⟨content, rest', j, hsome, hend, hj⟩
        · exact .inl ⟨by rw [hnone]; rfl, hend⟩
        · refine .inr ⟨before ++ ("</".toList ++ content), rest', j, by rw [hsome]; rfl, ?_, hj⟩
          rw [hend, byteSize_append, byteSize_append, ← Nat.add_assoc, ← Nat.add_assoc]
          rfl

/-! ## Tokens -/

/-- The leaf that `leaf` makes of the text between `start` and `stop?`, behind which a mark of `size` bytes stands; without
that mark `k` is left open at byte `i`. -/
def leaf? (leaf : Text → Leaf) (k : Construct) (t : Text) (i start : Nat) (stop? : Option Nat) (size : Nat) :
    Option (Except ParseError (Token × Nat)) :=
  match stop? with
  | none => some (.error ⟨Position.ofOffset t i, .unterminated k⟩)
  | some stop => do
    let content ← slice? t start stop
    return .ok (.leaf (leaf content), stop + size)

/-- The raw text between two offsets; none is cut out where they are one. -/
def rawContent? (t : Text) (i j : Nat) : Option Text := if i < j then slice? t i j else some []

/-- Reads the start or end tag that begins at byte `i`, and the content of an element that holds raw text. -/
def tag? (d : Dialect) (t : Text) (i : Nat) : Option (Except ParseError (Token × Nat)) :=
  match tagEnd? none t (i + 1) with
  | none => some (.error ⟨Position.ofOffset t i, .unterminated .tag⟩)
  | some stop => do
    let tag ← slice? t i (stop + 1)
    let info ← tagInfo? tag
    if info.isEnd then return .ok (.endTag (d.keep info.name), stop + 1)
    else
      let attributes ← attributes? tag
      let e : Element := ⟨d.keep info.name, attributes.map fun a => { a with name := d.keep a.name },
        info.closesItself || d.isVoid (d.keep info.name)⟩
      if holdsRawText info.name && !e.isVoid then
        match ← rawTextEnd? info.name t (stop + 1) with
        | none => return .error ⟨Position.ofOffset t (stop + 1), .unclosed info.name⟩
        | some (contentEnd, behind) => do
          let content ← rawContent? t (stop + 1) contentEnd
          return .ok (.rawElement e content, behind)
      else return .ok (.startTag e, stop + 1)

/-- Reads the token that begins at byte `i`, and the offset behind it. -/
def token? (d : Dialect) (t : Text) (i : Nat) : Option (Except ParseError (Token × Nat)) :=
  if unit? t i != some '<' then do
    let next? ← findFrom? ['<'] t i
    let stop := next?.getD (byteSize t)
    let piece ← slice? t i stop
    let text ← decode? piece
    return .ok (.leaf (.text text), stop)
  else if startsAt "<!--".toList t i then leaf? .comment .comment t i (i + 4) (find? "-->".toList t (i + 4)) 3
  else if startsAt "<![CDATA[".toList t i then leaf? .cdata .cdata t i (i + 9) (find? "]]>".toList t (i + 9)) 3
  else if startsAt "<!".toList t i then leaf? .declaration .declaration t i (i + 2) (tagEnd? none t (i + 1)) 1
  else if startsAt "<?".toList t i then leaf? .instruction .instruction t i (i + 2) (find? "?>".toList t (i + 2)) 2
  else if !opensTag t i then some (.ok (.leaf (.text ['<']), i + 1))
  else tag? d t i

/-- What is reported of a fault: the place of the byte that it is found at. -/
def Reports (t : Text) (f : FaultAt) (e : ParseError) : Prop := f.error t = e

theorem reports (h : RestAt t i r) (f : Fault) : Reports t ⟨f, r⟩ ⟨Position.ofOffset t i, f⟩ := by
  obtain ⟨before, rfl, rfl⟩ := h
  rw [Reports, FaultAt.error, List.length_append, Nat.add_sub_cancel, List.take_left, Position.ofOffset_byteSize]

theorem leaf?_agrees {leaf : Text → Leaf} {k : Construct} {mark : Text} {start : Nat} (h : RestAt t i r)
    (hs : RestAt t start s) (hm : mark ≠ []) : Agrees t (Reports t) (Token.readLeaf leaf k r (cut? mark s))
      (leaf? leaf k t i start (find? mark t start) (byteSize mark)) := by
  rw [find?_eq hm hs]
  cases hcut : cut? mark s with
  | none => exact .error (reports h _)
  | some p =>
    rw [Option.map_some, leaf?, slice?_of_cut? hs hcut]
    exact .ok (restAt_of_cut? hs hcut).append

theorem declaration?_agrees (h : RestAt t i ('<' :: '!' :: s)) :
    Agrees t (Reports t) (Token.readLeaf .declaration .declaration ('<' :: '!' :: s) (Tag.end? s))
      (leaf? .declaration .declaration t i (i + 2) (tagEnd? none t (i + 1)) 1) := by
  have hbang := tail_of_lt h (by decide)
  have hs : RestAt t (i + 2) s := tail_of_lt hbang (by decide)
  have hend : Tag.end? ('!' :: s) = (Tag.end? s).map fun p => ('!' :: p.1, p.2) := by
    rw [Tag.end?, Tag.endFrom?, if_neg (by decide)]
    rfl
  rw [tagEnd?_none_eq hbang, hend]
  cases he : Tag.end? s with
  | none => exact .error (reports h _)
  | some p =>
    obtain ⟨inside, rest⟩ := p
    have hsize : i + 1 + byteSize ('!' :: inside) = i + 2 + byteSize inside := by
      rw [byteSize, ← Nat.add_assoc]
      rfl
    rw [Tag.eq_append_of_end? he] at hs
    rw [Option.map_some, Option.map_some, hsize, leaf?, hs.slice?]
    exact .ok (tail_of_lt hs.append (by decide))

theorem isNameChar_lt {inside : Text} : ∀ x ∈ Tag.name inside, x.toNat < 0x80 := by
  intro x hx
  by_contra hle
  have := List.mem_takeWhile_imp hx
  rw [isNameChar_of_le (Nat.le_of_not_lt hle)] at this
  cases this

theorem rawContent?_eq {content : Text} (h : RestAt t i (content ++ r)) :
    rawContent? t i (i + byteSize content) = some content := by
  rw [rawContent?]
  split
  · exact h.slice?
  · next hle => rw [byteSize_eq_zero_iff.1 (show byteSize content = 0 by omega)]

theorem tag?_agrees (d : Dialect) (h : RestAt t i ('<' :: s)) (ho : Tag.opens s = true) :
    Agrees t (Reports t) (Token.readTag d s) (tag? d t i) := by
  have hs : RestAt t (i + 1) s := tail_of_lt h (by decide)
  rw [Token.readTag, tag?, tagEnd?_none_eq hs]
  cases he : Tag.end? s with
  | none => exact .error (reports h _)
  | some p =>
    obtain ⟨inside, rest⟩ := p
    obtain ⟨hin, rfl⟩ := Tag.end?_eq_some_iff.1 he
    have htag : slice? t i (i + 1 + byteSize inside + 1) = some ('<' :: (inside ++ ['>'])) := by
      have hall : RestAt t i ('<' :: (inside ++ ['>']) ++ rest) := by rwa [List.cons_append, List.append_assoc]
      have hsize : i + 1 + byteSize inside + 1 = i + byteSize ('<' :: (inside ++ ['>'])) := by
        rw [byteSize, byteSize_append, Nat.add_assoc, Nat.add_assoc]
        rfl
      rw [hsize, hall.slice?]
    have hrest : RestAt t (i + 1 + byteSize inside + 1) rest := tail_of_lt hs.append (by decide)
    rw [Option.map_some]
    dsimp only
    rw [htag, Option.bind_eq_bind, Option.bind_some]
    rcases Token.isEnd_or_isStart hin ho with ⟨hh, hend⟩ | ⟨hh, hstart⟩
    · rw [if_pos hh, tagInfo?_of_isEnd hend]
      exact .ok hrest
    · have hattrs : attributes? ('<' :: (inside ++ ['>'])) = some (Tag.attributes inside) := attributes?_eq _
      rw [if_neg hh, tagInfo?_of_isStart hstart, Option.bind_eq_bind, Option.bind_some, if_neg Bool.false_ne_true, hattrs,
        Option.bind_eq_bind, Option.bind_some]
      change Agrees t (Reports t) (if holdsRawText (Tag.name inside) && !(Token.elementOf d inside).isVoid then _ else _)
        (if holdsRawText (Tag.name inside) && !(Token.elementOf d inside).isVoid then _ else _)
      split
      · rcases rawTextEnd?_eq isNameChar_lt hrest with ⟨hnone, hraw⟩ | ⟨content, after, j, hsome, hraw, hj⟩
        · rw [hnone, hraw]
          exact .error (reports hrest _)
        · obtain ⟨-, name', junk, hrest', -⟩ := Token.exists_of_rawText? hsome
          rw [hrest'] at hrest
          rw [hsome, hraw, Option.bind_eq_bind, Option.bind_some]
          dsimp only
          rw [rawContent?_eq hrest]
          exact .ok hj
      · exact .ok hrest

theorem isPrefixOf_eq_false {mark : Text} (h : ¬ mark <+: s) : mark.isPrefixOf s = false :=
  Bool.eq_false_iff.2 fun hp => h (List.isPrefixOf_iff_prefix.1 hp)

theorem isPrefixOf_eq_false_of_head {x : Char} (h : s.head? ≠ some x) (mark : Text) : (x :: mark).isPrefixOf s = false :=
  isPrefixOf_eq_false fun ⟨_, hs⟩ => h (hs ▸ rfl)

/-- What begins with a `<` can be told from what follows it. -/
theorem token?_of_lt (d : Dialect) (h : RestAt t i ('<' :: s)) : token? d t i =
    if "!--".toList.isPrefixOf s then leaf? .comment .comment t i (i + 4) (find? "-->".toList t (i + 4)) 3
    else if "![CDATA[".toList.isPrefixOf s then leaf? .cdata .cdata t i (i + 9) (find? "]]>".toList t (i + 9)) 3
    else if "!".toList.isPrefixOf s then leaf? .declaration .declaration t i (i + 2) (tagEnd? none t (i + 1)) 1
    else if "?".toList.isPrefixOf s then leaf? .instruction .instruction t i (i + 2) (find? "?>".toList t (i + 2)) 2
    else if !Tag.opens s then some (.ok (.leaf (.text ['<']), i + 1))
    else tag? d t i := by
  have hmark : ∀ mark : Text, startsAt ('<' :: mark) t i = mark.isPrefixOf s := fun mark => startsAt_eq h
  rw [token?, unit?_of_lt h (by decide), ← hmark, ← hmark, ← hmark, ← hmark, ← opensTag_eq h]
  rfl

theorem token?_of_head_ne (d : Dialect) (h : RestAt t i ('<' :: s)) (hb : s.head? ≠ some '!') (hq : s.head? ≠ some '?') :
    token? d t i = if !Tag.opens s then some (.ok (.leaf (.text ['<']), i + 1)) else tag? d t i := by
  rw [token?_of_lt d h, show "!--".toList = '!' :: "--".toList from rfl, isPrefixOf_eq_false_of_head hb,
    show "![CDATA[".toList = '!' :: "[CDATA[".toList from rfl, isPrefixOf_eq_false_of_head hb,
    show "!".toList = ['!'] from rfl, isPrefixOf_eq_false_of_head hb, show "?".toList = ['?'] from rfl,
    isPrefixOf_eq_false_of_head hq]
  rfl

/-- Running text is read up to the next `<`. -/
theorem characters?_agrees (d : Dialect) (hc : c ≠ '<') (h : RestAt t i (c :: s)) :
    Agrees t (Reports t)
      (.ok (.leaf (.text (Entity.decode (c :: s.takeWhile (· != '<')))), s.dropWhile (· != '<'))) (token? d t i) := by
  have hu : (unit? t i != some '<') = true := by
    rw [bne_iff_ne, ne_eq, unit?_eq_some_iff h (by decide)]
    exact fun hhead => hc (Option.some.inj hhead)
  obtain ⟨next?, hnext, hstop⟩ := Option.map_eq_some_iff.1 (getD_findFrom? (z := '<') h)
  have hne : (c != '<') = true := bne_iff_ne.2 hc
  have hrun : RestAt t i (c :: s.takeWhile (· != '<') ++ s.dropWhile (· != '<')) := by
    rwa [List.cons_append, List.takeWhile_append_dropWhile]
  rw [List.takeWhile_cons_of_pos (p := (· != '<')) hne] at hstop
  rw [token?, if_pos hu, hnext, Option.bind_eq_bind, Option.bind_some]
  dsimp only
  rw [hstop, hrun.slice?, Option.bind_eq_bind, Option.bind_some, decode?_eq]
  exact .ok hrun.append

/-- A token that is read by bytes is the one that is read by characters, and it ends at the same place. -/
theorem token?_agrees (d : Dialect) (h : RestAt t i (c :: s)) :
    Agrees t (Reports t) (Token.read d c s) (token? d t i) := by
  have ho := Token.opening_inv c s
  rw [Token.read]
  cases hop : Token.opening c s with
  | comment rest =>
    simp only [hop] at ho
    obtain ⟨rfl, rfl⟩ := ho
    rw [token?_of_lt d h]
    exact leaf?_agrees h (RestAt.append (s := "<!--".toList) h) (show "-->".toList ≠ [] by decide)
  | cdata rest =>
    simp only [hop] at ho
    obtain ⟨rfl, rfl⟩ := ho
    rw [token?_of_lt d h]
    exact leaf?_agrees h (RestAt.append (s := "<![CDATA[".toList) h) (show "]]>".toList ≠ [] by decide)
  | declaration rest =>
    simp only [hop] at ho
    obtain ⟨rfl, rfl, hcomment, hcdata⟩ := ho
    have h₁ : "!--".toList.isPrefixOf ('!' :: rest) = false :=
      isPrefixOf_eq_false fun hp => hcomment (List.cons_prefix_cons.1 hp).2
    have h₂ : "![CDATA[".toList.isPrefixOf ('!' :: rest) = false :=
      isPrefixOf_eq_false fun hp => hcdata (List.cons_prefix_cons.1 hp).2
    rw [token?_of_lt d h, h₁, h₂]
    exact declaration?_agrees h
  | instruction rest =>
    simp only [hop] at ho
    obtain ⟨rfl, rfl⟩ := ho
    rw [token?_of_lt d h]
    exact leaf?_agrees h (RestAt.append (s := "<?".toList) h) (show "?>".toList ≠ [] by decide)
  | tag rest =>
    simp only [hop] at ho
    obtain ⟨rfl, rfl, hopens⟩ := ho
    rw [token?_of_head_ne d h (Token.head?_ne_of_opens hopens (by decide) (by decide))
      (Token.head?_ne_of_opens hopens (by decide) (by decide)), hopens]
    exact tag?_agrees d h hopens
  | characters =>
    simp only [hop] at ho
    by_cases hc : c = '<'
    · subst hc
      obtain ⟨hopens, hb, hq⟩ := ho rfl
      rw [token?_of_head_ne d h hb hq, hopens]
      exact .ok (tail_of_lt h (by decide))
    · dsimp only
      rw [if_neg hc]
      exact characters?_agrees d hc h

/-! ## Whole templates -/

/-- A round of the loop over the tokens; a fault ends the loop. -/
def tokenRound? (d : Dialect) (t : Text) (i : Nat) : Option (List (Except ParseError Token) × Option Nat) :=
  if byteSize t ≤ i then some ([], none)
  else
    (token? d t i).map fun
      | .error e => ([.error e], none)
      | .ok (token, j) => ([.ok token], some j)

/-- Reads a template. -/
def parse? (d : Dialect) (t : Text) : Option (Except ParseError Forest) := do
  let tokens ← loop? t (tokenRound? d t) 0
  return (tokens.mapM id).map (Forest.ofTokens d)

/-- The tokens of the rest of a template, and the fault that they end with, if one is found. -/
def tokensOf (d : Dialect) (t r : Text) : List (Except ParseError Token) :=
  (Token.readAll d r).tokens.map .ok ++ ((Token.readAll d r).fault?.map fun f => .error (f.error t)).toList

theorem tokenRound?_eq (d : Dialect) (h : RestAt t i r) : Round t (tokensOf d t) r (tokenRound? d t i) := by
  rw [tokenRound?]
  cases r with
  | nil =>
    have hend := h.byteSize_eq
    rw [byteSize] at hend
    rw [if_pos (by omega)]
    exact .stop (by rw [tokensOf, Token.readAll_nil]; rfl)
  | cons c r =>
    obtain ⟨b, hb, -⟩ := exists_unit? h
    rw [if_neg (Nat.not_le_of_lt (lt_of_unit? hb))]
    have hagrees := token?_agrees d h
    generalize token? d t i = x at hagrees
    cases hread : Token.read d c r with
    | error f =>
      rw [hread] at hagrees
      obtain ⟨hreport⟩ := hagrees
      refine .stop ?_
      rw [tokensOf, Token.readAll_of_error hread, ← hreport]
      rfl
    | ok p =>
      obtain ⟨token, rest⟩ := p
      rw [hread] at hagrees
      obtain ⟨⟩ | ⟨hj⟩ := hagrees
      refine .next hj (Nat.lt_succ_of_le (Token.length_le_of_read hread)) ?_
      rw [tokensOf, Token.readAll_of_read hread]
      rfl

/-- A row of results that ends with an error, or with none, is that error, or all the results. -/
theorem mapM_append_error? {ε α : Type} (as : List α) (e? : Option ε) :
    (as.map Except.ok ++ (e?.map Except.error).toList).mapM id = e?.elim (Except.ok as) Except.error := by
  induction as with
  | nil => cases e? <;> rfl
  | cons a as ih =>
    rw [List.map_cons, List.cons_append, List.mapM_cons, ih]
    cases e? <;> rfl

/-- A template is read by bytes as it is read by characters. -/
theorem parse?_eq (d : Dialect) (t : Text) : parse? d t = some (Forest.parse d t) := by
  have hrow := mapM_append_error? (Token.readAll d t).tokens ((Token.readAll d t).fault?.map (FaultAt.error · t))
  rw [Option.map_map] at hrow
  rw [parse?, loop?_eq (fun _ _ h => tokenRound?_eq d h) (.start t), Option.bind_eq_bind, Option.bind_some, tokensOf]
  refine congrArg (fun x => some (Except.map (Forest.ofTokens d) x)) hrow |>.trans ?_
  rw [Forest.parse]
  cases (Token.readAll d t).fault? <;> rfl

end MailTemplate.Bytes
