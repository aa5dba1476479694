import MailTemplate.Markup.Token
import MailTemplate.Proofs.Markup.Entities
import MailTemplate.Proofs.Markup.WellFormed
/-!
# A grammar of tokens

`Token.Reading` says, without a scanner, what a text has to look like to begin with a token. `read` reads exactly what
the grammar allows (`read_eq_ok_iff`). Where a token ends does not depend on what follows it, but for a run of characters,
which goes on up to the next `<` (`Reading.append`).
-/
namespace MailTemplate

/-- A text that a run of characters before it does not run on into: it is empty, or `<` comes first. -/
def Text.Breaks (s : Text) : Prop := ∀ c, s.head? = some c → c = '<'

theorem Text.Breaks.nil : Text.Breaks [] := by
  rintro c ⟨⟩

theorem Text.Breaks.cons (s : Text) : Text.Breaks ('<' :: s) := by
  rintro c ⟨⟩
  rfl

theorem Text.Breaks.append {s q : Text} (hs : s.Breaks) (hq : q.Breaks) : Text.Breaks (s ++ q) := by
  cases s with
  | nil => exact hq
  | cons c s => exact hs

/-! ## The inside of a tag -/

namespace Tag

theorem endFrom?_append {quote : Option Char} {s inside rest : Text} (h : endFrom? quote s = some (inside, rest))
    (q : Text) : endFrom? quote (s ++ q) = some (inside, rest ++ q) := by
  induction s generalizing quote inside with
  | nil => simp [endFrom?] at h
  | cons c s ih =>
    rw [endFrom?] at h
    rw [List.cons_append, endFrom?]
    split at h
    · next hc =>
      obtain ⟨rfl, rfl⟩ := by simpa using h
      rw [if_pos hc]
    · next hc =>
      obtain ⟨⟨i, r⟩, hi, he⟩ := Option.map_eq_some_iff.1 h
      obtain ⟨rfl, rfl⟩ := by simpa using he
      rw [if_neg hc, ih hi]
      rfl

theorem endFrom?_inside {quote : Option Char} {s inside rest : Text} (h : endFrom? quote s = some (inside, rest)) :
    endFrom? quote (inside ++ ['>']) = some (inside, []) := by
  induction s generalizing quote inside rest with
  | nil => simp [endFrom?] at h
  | cons c s ih =>
    rw [endFrom?] at h
    split at h
    · next hc =>
      obtain ⟨rfl, -⟩ := by simpa using h
      rw [List.nil_append, endFrom?, if_pos ⟨rfl, hc.2⟩]
    · next hc =>
      obtain ⟨⟨i, r⟩, hi, he⟩ := Option.map_eq_some_iff.1 h
      obtain ⟨rfl, -⟩ := by simpa using he
      rw [List.cons_append, endFrom?, if_neg hc, ih hi]
      rfl

theorem IsInside.end? {t : Text} (h : IsInside t) (rest : Text) : Tag.end? (t ++ '>' :: rest) = some (t, rest) := by
  have := endFrom?_append h rest
  rwa [List.append_assoc, List.singleton_append, List.nil_append] at this

theorem end?_eq_some_iff {s inside rest : Text} :
    Tag.end? s = some (inside, rest) ↔ IsInside inside ∧ s = inside ++ '>' :: rest := by
  constructor
  · intro h
    exact ⟨endFrom?_inside h, eq_append_of_end? h⟩
  · rintro ⟨h, rfl⟩
    exact h.end? rest

theorem isInside_bang_iff {t : Text} : IsInside ('!' :: t) ↔ IsInside t := by
  have he : end? ('!' :: t ++ ['>']) = (end? (t ++ ['>'])).map fun p => ('!' :: p.1, p.2) := by
    rw [List.cons_append, end?, endFrom?, if_neg (by decide)]
    rfl
  rw [IsInside, IsInside, he]
  cases end? (t ++ ['>']) <;> simp [Prod.ext_iff]

/-- The inside of a start tag. -/
def IsStart (inside : Text) : Prop := IsInside inside ∧ ∃ c more, inside = c :: more ∧ c.isAlpha = true

/-- The inside of an end tag. -/
def IsEnd (inside : Text) : Prop := IsInside inside ∧ ∃ c more, inside = '/' :: c :: more ∧ c.isAlpha = true

theorem isElementName_name {c : Char} (hc : c.isAlpha = true) (more : Text) : IsElementName (name (c :: more)) := by
  rw [name, List.takeWhile_cons_of_pos (isNameChar_of_isAlpha hc)]
  exact ⟨c, _, rfl, hc, fun x hx => List.mem_takeWhile_imp hx⟩

theorem IsStart.head?_ne {inside : Text} (h : IsStart inside) : inside.head? ≠ some '/' := by
  obtain ⟨-, c, more, rfl, hc⟩ := h
  rintro ⟨⟩
  exact absurd hc (by decide)

theorem IsStart.isElementName {inside : Text} (h : IsStart inside) : IsElementName (name inside) := by
  obtain ⟨-, c, more, rfl, hc⟩ := h
  exact isElementName_name hc more

/-- A `<` opens no tag at the end of a text or before another `<`. -/
theorem opens_append_of_breaks {s q : Text} (hs : opens s = false) (hq : q.Breaks) : opens (s ++ q) = false := by
  have hhead : ∀ c, q.head? = some c → c.isAlpha = false := by
    intro c hc
    rw [hq c hc]
    decide
  match s with
  | [] =>
    cases q with
    | nil => rfl
    | cons c q =>
      obtain rfl := hq c rfl
      simp [opens]
  | c :: more =>
    by_cases hc : c = '/'
    · subst hc
      cases more with
      | nil =>
        -- a slash at the end opens a tag only if a letter follows it
        cases q with
        | nil => rfl
        | cons c q => exact hhead c rfl
      | cons x more => exact hs
    · rw [opens.eq_2 _ _ fun _ _ h _ => hc h] at hs
      rw [List.cons_append, opens.eq_2 _ _ fun _ _ h _ => hc h, hs]

/-- What opens a tag opens it whatever follows. -/
theorem opens_append {s : Text} (hs : opens s = true) (q : Text) : opens (s ++ q) = true := by
  match s with
  | [] => cases hs
  | c :: more =>
    by_cases hc : c = '/'
    · subst hc
      cases more with
      | nil => exact absurd hs (by decide)
      | cons x more => exact hs
    · rw [opens.eq_2 _ _ fun _ _ h _ => hc h] at hs
      rw [List.cons_append, opens.eq_2 _ _ fun _ _ h _ => hc h, hs]

end Tag

namespace Token

/-! ## Raw text and its end tag -/

/-- A text that begins with an end tag for `name`, as raw text ends. -/
def AtEndTag (name s : Text) : Prop :=
  ∃ name' c more, s = "</".toList ++ (name' ++ c :: more) ∧ Text.sameLetters name' name = true ∧ Tag.isNameChar c = false

theorem atEndTag_iff {name s : Text} : atEndTag name s = true ↔ AtEndTag name s := by
  constructor
  · intro h
    unfold atEndTag at h
    split at h
    · simp at h
    · next rest hr =>
      rw [Bool.and_eq_true] at h
      obtain ⟨hs, hd⟩ := h
      split at hd
      · simp at hd
      · next c more he =>
        refine ⟨rest.take name.length, c, more, ?_, hs, by simpa using hd⟩
        rw [Text.after?_eq_some_iff.1 hr, ← he, List.take_append_drop]
  · rintro ⟨name', c, more, rfl, hs, hc⟩
    have hl : name'.length = name.length := Text.length_eq_of_sameLetters hs
    rw [atEndTag, Text.after?_append]
    simp only [← hl, List.take_left, List.drop_left, hs, hc, Bool.true_and, Bool.not_false]

theorem rawText?_of_atEndTag {name name' junk rest : Text} (hs : Text.sameLetters name' name = true)
    (hj : ∀ c, junk.head? = some c → Tag.isNameChar c = false) (hgt : '>' ∉ junk) :
    rawText? name ("</".toList ++ (name' ++ (junk ++ '>' :: rest))) = some ([], rest) := by
  have hl : name.length = name'.length := (Text.length_eq_of_sameLetters hs).symm
  have hat : atEndTag name ('<' :: '/' :: (name' ++ (junk ++ '>' :: rest))) = true := by
    rw [atEndTag_iff]
    cases junk with
    | nil => exact ⟨name', '>', rest, rfl, hs, by decide⟩
    | cons c junk => exact ⟨name', c, junk ++ '>' :: rest, rfl, hs, hj c rfl⟩
  have hdrop : ('/' :: (name' ++ (junk ++ '>' :: rest))).drop (name.length + 1) = junk ++ '>' :: rest := by
    rw [List.drop_succ_cons, hl, List.drop_left]
  change rawText? name ('<' :: '/' :: (name' ++ (junk ++ '>' :: rest))) = _
  rw [rawText?, if_pos hat, hdrop, Text.cut?_singleton hgt]
  rfl

/-- An end tag that begins in raw text which holds none would have to reach over the end of it, and no name has a `<`. -/
theorem not_atEndTag_append {name content : Text} (hname : '<' ∉ name) (hne : content ≠ [])
    (hc : HoldsNoEndTag name content) (s : Text) : ¬ AtEndTag name (content ++ ("</".toList ++ s)) := by
  rintro ⟨name', c, more, he, hs, hnc⟩
  have hname' : '<' ∉ name' := fun h => hname (Text.mem_of_sameLetters hs h (by decide))
  have he' : content ++ '<' :: '/' :: s = ("</".toList ++ name') ++ c :: more := by
    rw [List.append_assoc]
    exact he
  rcases List.append_eq_append_iff.1 he' with ⟨x, hx, hrest⟩ | ⟨x, rfl, hrest⟩
  · -- the raw text ends within `</` and the name: then `<` stands in the name
    cases x with
    | nil =>
      obtain ⟨_, _, h, -⟩ := hc [] name' [] (by simpa using hx.symm) hs
      cases h
    | cons y x =>
      obtain ⟨rfl, -⟩ := List.cons.inj hrest
      obtain ⟨b, content, rfl⟩ := List.exists_cons_of_ne_nil hne
      have : '<' ∈ '/' :: name' := by
        have ht : '/' :: name' = content ++ '<' :: x := (List.cons.inj hx).2
        rw [ht]
        simp
      rcases List.mem_cons.1 this with h | h
      · exact absurd h (by decide)
      · exact hname' h
  · -- the raw text holds `</` and the name: what follows them there tells that it is no end tag
    obtain ⟨y, ys, hy, hyn⟩ := hc [] name' x (by simp) hs
    subst hy
    obtain ⟨rfl, -⟩ := List.cons.inj hrest
    rw [hnc] at hyn
    exact Bool.false_ne_true hyn

theorem rawText?_append {name name' content junk rest : Text} (hname : '<' ∉ name) (hc : HoldsNoEndTag name content)
    (hs : Text.sameLetters name' name = true) (hj : ∀ c, junk.head? = some c → Tag.isNameChar c = false)
    (hgt : '>' ∉ junk) :
    rawText? name (content ++ ("</".toList ++ (name' ++ (junk ++ '>' :: rest)))) = some (content, rest) := by
  induction content with
  | nil => exact rawText?_of_atEndTag hs hj hgt
  | cons c content ih =>
    have hat := not_atEndTag_append hname (List.cons_ne_nil c content) hc (name' ++ (junk ++ '>' :: rest))
    rw [List.cons_append] at hat ⊢
    have htail : HoldsNoEndTag name content := HoldsNoEndTag.of_append_left (w := [c]) hc
    rw [rawText?, if_neg fun h => hat (atEndTag_iff.1 h), ih htail]
    rfl

/-- What raw text looks like where it ends. -/
theorem exists_of_rawText? {name s content rest : Text} (h : rawText? name s = some (content, rest)) :
    HoldsNoEndTag name content ∧ ∃ name' junk, s = content ++ ("</".toList ++ (name' ++ (junk ++ '>' :: rest))) ∧
      Text.sameLetters name' name = true ∧ (∀ c, junk.head? = some c → Tag.isNameChar c = false) ∧ '>' ∉ junk := by
  induction s generalizing content with
  | nil => simp [rawText?] at h
  | cons c s ih =>
    rw [rawText?] at h
    split at h
    · next hat =>
      obtain ⟨⟨junk, r⟩, hcut, he⟩ := Option.map_eq_some_iff.1 h
      obtain ⟨rfl, rfl⟩ := by simpa using he
      obtain ⟨name', x, more, hs, hsame, hx⟩ := atEndTag_iff.1 hat
      have hl : name.length = name'.length := (Text.length_eq_of_sameLetters hsame).symm
      obtain ⟨rfl, rfl⟩ : c = '<' ∧ s = '/' :: (name' ++ x :: more) := List.cons.inj hs
      rw [List.drop_succ_cons, hl, List.drop_left] at hcut
      have hmore := Text.eq_append_of_cut? hcut
      have hgt : '>' ∉ junk := fun hmem =>
        Text.not_infix_of_cut? (List.cons_ne_nil _ _) hcut ((List.singleton_infix_iff _ _).2 hmem)
      refine ⟨.nil name, name', junk, ?_, hsame, ?_, hgt⟩
      · rw [hmore]
        simp
      · intro y hy
        -- the junk begins with the character after the name, if not with the end mark
        cases junk with
        | nil => simp at hy
        | cons z junk =>
          obtain rfl : z = y := by simpa using hy
          obtain ⟨rfl, -⟩ : x = z ∧ _ := List.cons.inj hmore
          exact hx
    · next hat =>
      obtain ⟨⟨content, r⟩, hr, he⟩ := Option.map_eq_some_iff.1 h
      obtain ⟨rfl, rfl⟩ := by simpa using he
      obtain ⟨hc, name', junk, rfl, hsame, hj, hgt⟩ := ih hr
      refine ⟨?_, name', junk, rfl, hsame, hj, hgt⟩
      intro before n after hb hn
      cases before with
      | cons b before => exact hc before n after (List.cons.inj hb).2 hn
      | nil =>
        -- an end tag right here would have been found
        cases after with
        | nil =>
          refine absurd (atEndTag_iff.2 ⟨n, '<', '/' :: (name' ++ (junk ++ '>' :: r)), ?_, hn, by decide⟩) hat
          rw [← List.cons_append, hb]
          simp
        | cons x more =>
          refine ⟨x, more, rfl, ?_⟩
          by_contra hx
          refine hat (atEndTag_iff.2
            ⟨n, x, more ++ ("</".toList ++ (name' ++ (junk ++ '>' :: r))), ?_, hn, by simpa using hx⟩)
          rw [← List.cons_append, hb]
          simp

theorem eq_append_of_rawText? {name s content rest : Text} (h : rawText? name s = some (content, rest)) :
    ∃ mark, s = content ++ (mark ++ rest) := by
  obtain ⟨-, name', junk, rfl, -⟩ := exists_of_rawText? h
  exact ⟨"</".toList ++ name' ++ junk ++ ['>'], by simp⟩

/-! ## What begins at a character -/

theorem opening_of_ne {c : Char} (h : c ≠ '<') (s : Text) : opening c s = .characters := by rw [opening, if_neg h]

theorem opening_comment (s : Text) : opening '<' ("!--".toList ++ s) = .comment s := by
  rw [opening, if_pos rfl, Text.after?_append]

theorem opening_cdata (s : Text) : opening '<' ("![CDATA[".toList ++ s) = .cdata s := by
  simp [opening, Text.after?]

theorem opening_instruction (s : Text) : opening '<' ("?".toList ++ s) = .instruction s := by
  simp [opening, Text.after?]

theorem opening_declaration {s : Text} (hc : ¬ "--".toList <+: s) (hd : ¬ "[CDATA[".toList <+: s) :
    opening '<' ('!' :: s) = .declaration s := by
  have h₁ : Text.after? "!--".toList ('!' :: s) = none :=
    Text.after?_eq_none_iff.2 fun h => hc (List.cons_prefix_cons.1 h).2
  have h₂ : Text.after? "![CDATA[".toList ('!' :: s) = none :=
    Text.after?_eq_none_iff.2 fun h => hd (List.cons_prefix_cons.1 h).2
  rw [opening, if_pos rfl, h₁, h₂]
  rfl

/-- Neither a tag nor a construct that has a mark of its own begins with other characters than these. -/
theorem opening_of_head_ne {s : Text} (hb : s.head? ≠ some '!') (hq : s.head? ≠ some '?') :
    opening '<' s = if Tag.opens s then .tag s else .characters := by
  cases s with
  | nil => rfl
  | cons c s =>
    have hb' : ¬ '!' = c := fun h => hb (by rw [h]; rfl)
    have hq' : ¬ '?' = c := fun h => hq (by rw [h]; rfl)
    simp [opening, Text.after?, hb', hq']

theorem head?_ne_of_opens {s : Text} (h : Tag.opens s = true) {x : Char} (hx : x.isAlpha = false) (hs : x ≠ '/') :
    s.head? ≠ some x := by
  intro hh
  obtain ⟨y, hy⟩ := List.head?_eq_some_iff.1 hh
  subst hy
  unfold Tag.opens at h
  split at h
  · next he => exact hs (List.cons.inj he).1
  · next he =>
    obtain ⟨rfl, -⟩ := List.cons.inj he
    rw [hx] at h
    exact Bool.false_ne_true h
  · next he => cases he

theorem opening_tag {s : Text} (h : Tag.opens s = true) : opening '<' s = .tag s := by
  rw [opening_of_head_ne (head?_ne_of_opens h (by decide) (by decide)) (head?_ne_of_opens h (by decide) (by decide)),
    if_pos h]

theorem opens_of_isStart {inside : Text} (h : Tag.IsStart inside) (s : Text) : Tag.opens (inside ++ s) = true := by
  obtain ⟨-, c, more, rfl, hc⟩ := h
  have hs : c ≠ '/' := by
    rintro rfl
    exact absurd hc (by decide)
  rw [List.cons_append, Tag.opens.eq_2]
  · exact hc
  · rintro _ _ rfl
    exact absurd rfl hs

theorem opens_of_isEnd {inside : Text} (h : Tag.IsEnd inside) (s : Text) : Tag.opens (inside ++ s) = true := by
  obtain ⟨-, c, more, rfl, hc⟩ := h
  exact hc

/-! ## The grammar -/

/-- The text begins with the token, and the rest follows it. -/
inductive Reading (d : Dialect) : Text → Token → Text → Prop
  | characters {t rest : Text} : t ≠ [] → '<' ∉ t → rest.Breaks →
      Reading d (t ++ rest) (.leaf (.text (Entity.decode t))) rest
  /-- A `<` with which nothing else begins stands for itself. -/
  | lessThan {rest : Text} : Tag.opens rest = false → rest.head? ≠ some '!' → rest.head? ≠ some '?' →
      Reading d ('<' :: rest) (.leaf (.text ['<'])) rest
  | leaf {l : Leaf} {rest : Text} : l.isText = false → l.WellFormed → Reading d (l.print ++ rest) (.leaf l) rest
  | endTag {inside rest : Text} : Tag.IsEnd inside →
      Reading d ('<' :: (inside ++ '>' :: rest)) (.endTag (d.keep (Tag.name (inside.drop 1)))) rest
  | startTag {inside rest : Text} : Tag.IsStart inside →
      (holdsRawText (Tag.name inside) = true → (elementOf d inside).isVoid = true) →
      Reading d ('<' :: (inside ++ '>' :: rest)) (.startTag (elementOf d inside)) rest
  | rawElement {inside content name junk rest : Text} : Tag.IsStart inside → holdsRawText (Tag.name inside) = true →
      (elementOf d inside).isVoid = false → HoldsNoEndTag (Tag.name inside) content →
      Text.sameLetters name (Tag.name inside) = true → (∀ c, junk.head? = some c → Tag.isNameChar c = false) →
      '>' ∉ junk →
      Reading d ('<' :: (inside ++ '>' :: (content ++ ("</".toList ++ (name ++ (junk ++ '>' :: rest))))))
        (.rawElement (elementOf d inside) content) rest

variable {d : Dialect} {c : Char} {s rest : Text} {t : Token}

theorem print_declaration (t : Text) : (Leaf.declaration t).print = '<' :: '!' :: (t ++ ['>']) := rfl

theorem read_print {l : Leaf} (ht : l.isText = false) (hl : l.WellFormed) (rest : Text) :
    ∃ s, l.print = '<' :: s ∧ read d '<' (s ++ rest) = .ok (.leaf l, rest) := by
  cases l with
  | text t => cases ht
  | raw t => cases hl
  | comment t =>
    have hcut := Text.cut?_mark (show "-->".toList = "--".toList ++ ['>'] by decide) (by decide) hl rest
    refine ⟨"!--".toList ++ (t ++ "-->".toList), rfl, ?_⟩
    rw [read, List.append_assoc, opening_comment]
    exact congrArg (readLeaf .comment .comment _) hcut
  | cdata t =>
    have hcut := Text.cut?_mark (show "]]>".toList = "]]".toList ++ ['>'] by decide) (by decide) hl rest
    refine ⟨"![CDATA[".toList ++ (t ++ "]]>".toList), rfl, ?_⟩
    rw [read, List.append_assoc, opening_cdata]
    exact congrArg (readLeaf .cdata .cdata _) hcut
  | instruction t =>
    have hcut := Text.cut?_mark (show "?>".toList = "?".toList ++ ['>'] by decide) (by decide) hl rest
    refine ⟨"?".toList ++ (t ++ "?>".toList), rfl, ?_⟩
    rw [read, List.append_assoc, opening_instruction]
    exact congrArg (readLeaf .instruction .instruction _) hcut
  | declaration t =>
    obtain ⟨hc, hd, hin⟩ := hl
    have hend := (Tag.isInside_bang_iff.1 hin).end? rest
    have hc' := Text.not_prefix_append hc (show '>' ∉ "--".toList by decide) rest
    have hd' := Text.not_prefix_append hd (show '>' ∉ "[CDATA[".toList by decide) rest
    refine ⟨'!' :: (t ++ ['>']), print_declaration t, ?_⟩
    rw [read, List.cons_append, List.append_assoc, List.singleton_append, opening_declaration hc' hd']
    exact congrArg (readLeaf .declaration .declaration _) hend

theorem read_of_reading {x : Text} (h : Reading d x t rest) : ∃ c s, x = c :: s ∧ read d c s = .ok (t, rest) := by
  cases h with
  | @characters u rest hne hlt hb =>
    obtain ⟨c, u, rfl⟩ := List.exists_cons_of_ne_nil hne
    rw [List.mem_cons, not_or] at hlt
    have hrun : ∀ x ∈ u, (x != '<') = true := fun x hx => by
      rw [bne_iff_ne]
      rintro rfl
      exact hlt.2 hx
    have hstop : ∀ x, rest.head? = some x → (x != '<') = false := fun x hx => by simp [hb x hx]
    refine ⟨c, u ++ rest, rfl, ?_⟩
    rw [read, opening_of_ne (Ne.symm hlt.1)]
    simp only [if_neg (Ne.symm hlt.1), Text.takeWhile_append_stop hrun hstop, Text.dropWhile_append_stop hrun hstop]
  | lessThan ho hb hq =>
    refine ⟨'<', rest, rfl, ?_⟩
    rw [read, opening_of_head_ne hb hq, if_neg (by simp [ho])]
    rfl
  | leaf ht hl =>
    obtain ⟨s, hs, hr⟩ := read_print (d := d) ht hl rest
    exact ⟨'<', s ++ rest, by rw [hs]; rfl, hr⟩
  | endTag h =>
    refine ⟨'<', _, rfl, ?_⟩
    rw [read, opening_tag (opens_of_isEnd h _)]
    obtain ⟨hin, c, more, rfl, hc⟩ := h
    simp only [readTag, hin.end? rest]
    rfl
  | startTag h hraw =>
    refine ⟨'<', _, rfl, ?_⟩
    rw [read, opening_tag (opens_of_isStart h _)]
    simp only [readTag, h.1.end? rest, if_neg h.head?_ne]
    rw [if_neg]
    rw [Bool.and_eq_true, Bool.not_eq_true', not_and, Bool.not_eq_false]
    exact hraw
  | @rawElement inside content name junk rest h hraw hvoid hcontent hname hjunk hgt =>
    refine ⟨'<', _, rfl, ?_⟩
    -- an end tag is found where it begins: no other one can begin within its name
    have hlt : '<' ∉ Tag.name inside := fun hmem => absurd (h.isElementName.isNameChar _ hmem) (by decide)
    rw [read, opening_tag (opens_of_isStart h _)]
    simp only [readTag, h.1.end?, if_neg h.head?_ne]
    rw [if_pos (by simp [hraw, hvoid]), rawText?_append hlt hcontent hname hjunk hgt]

/-! ## Every token that is read -/

/-- What the characters say that tell the next token. -/
theorem opening_inv (c : Char) (s : Text) :
    match opening c s with
    | .comment rest => c = '<' ∧ s = "!--".toList ++ rest
    | .cdata rest => c = '<' ∧ s = "![CDATA[".toList ++ rest
    | .declaration rest => c = '<' ∧ s = '!' :: rest ∧ ¬ "--".toList <+: rest ∧ ¬ "[CDATA[".toList <+: rest
    | .instruction rest => c = '<' ∧ s = '?' :: rest
    | .tag rest => c = '<' ∧ rest = s ∧ Tag.opens s = true
    | .characters => c = '<' → Tag.opens s = false ∧ s.head? ≠ some '!' ∧ s.head? ≠ some '?' := by
  unfold opening
  by_cases hc : c = '<'
  · rw [if_pos hc]
    -- the marks are tried in this order, so that a declaration begins with none of those before its own
    cases h₁ : Text.after? "!--".toList s with
    | some rest => exact ⟨hc, Text.after?_eq_some_iff.1 h₁⟩
    | none =>
    cases h₂ : Text.after? "![CDATA[".toList s with
    | some rest => exact ⟨hc, Text.after?_eq_some_iff.1 h₂⟩
    | none =>
    cases h₃ : Text.after? "!".toList s with
    | some rest =>
      obtain rfl : s = '!' :: rest := Text.after?_eq_some_iff.1 h₃
      rw [Text.after?_eq_none_iff] at h₁ h₂
      exact ⟨hc, rfl, fun h => h₁ (List.cons_prefix_cons.2 ⟨rfl, h⟩), fun h => h₂ (List.cons_prefix_cons.2 ⟨rfl, h⟩)⟩
    | none =>
    cases h₄ : Text.after? "?".toList s with
    | some rest => exact ⟨hc, Text.after?_eq_some_iff.1 h₄⟩
    | none =>
      cases ho : Tag.opens s with
      | true => exact ⟨hc, rfl, rfl⟩
      | false =>
        rw [Text.after?_eq_none_iff] at h₃ h₄
        refine fun _ => ⟨rfl, fun h => h₃ ?_, fun h => h₄ ?_⟩
        all_goals
          obtain ⟨more, rfl⟩ := List.head?_eq_some_iff.1 h
          exact List.prefix_append _ more
  · rw [if_neg hc]
    exact fun h => absurd h hc

theorem isEnd_or_isStart {inside rest : Text} (hin : Tag.IsInside inside)
    (ho : Tag.opens (inside ++ '>' :: rest) = true) :
    (inside.head? = some '/' ∧ Tag.IsEnd inside) ∨ (inside.head? ≠ some '/' ∧ Tag.IsStart inside) := by
  match inside with
  | [] => exact absurd ho (by simp [Tag.opens])
  | ['/'] => exact absurd ho (by simp [Tag.opens])
  | '/' :: c :: more => exact .inl ⟨rfl, hin, c, more, rfl, ho⟩
  | c :: more =>
    by_cases hc : c = '/'
    · subst hc
      cases more with
      | nil => exact absurd ho (by simp [Tag.opens])
      | cons x more => exact .inl ⟨rfl, hin, x, more, rfl, ho⟩
    · rw [List.cons_append, Tag.opens.eq_2 _ _ fun _ _ h _ => hc h] at ho
      have hs : Tag.IsStart (c :: more) := ⟨hin, c, more, rfl, ho⟩
      exact .inr ⟨hs.head?_ne, hs⟩

theorem reading_of_readTag (h : readTag d s = .ok (t, rest)) (ho : Tag.opens s = true) : Reading d ('<' :: s) t rest := by
  unfold readTag at h
  split at h
  · cases h
  · next inside r he =>
    obtain ⟨hin, rfl⟩ := Tag.end?_eq_some_iff.1 he
    rcases isEnd_or_isStart hin ho with ⟨hh, hend⟩ | ⟨hh, hstart⟩
    · rw [if_pos hh] at h
      simp only [Except.ok.injEq, Prod.mk.injEq] at h
      obtain ⟨rfl, rfl⟩ := h
      exact .endTag hend
    · rw [if_neg hh] at h
      dsimp only at h
      split at h
      · next hraw =>
        rw [Bool.and_eq_true, Bool.not_eq_true'] at hraw
        split at h
        · cases h
        · next content r' hr =>
          obtain ⟨rfl, rfl⟩ := by simpa using h
          obtain ⟨hc, name, junk, rfl, hname, hj, hgt⟩ := exists_of_rawText? hr
          exact .rawElement hstart hraw.1 hraw.2 hc hname hj hgt
      · next hraw =>
        obtain ⟨rfl, rfl⟩ := by simpa using h
        rw [Bool.and_eq_true, Bool.not_eq_true', not_and, Bool.not_eq_false] at hraw
        exact .startTag hstart hraw

theorem reading_of_cut {leaf : Text → Leaf} {mark x : Text} {k : Construct} (hm : mark ≠ [])
    (h : readLeaf leaf k x (Text.cut? mark s) = .ok (t, rest)) :
    ∃ content, s = content ++ mark ++ rest ∧ ¬ mark <:+: content ∧ t = .leaf (leaf content) := by
  obtain ⟨content, hc, rfl⟩ := eq_some_of_readLeaf h
  exact ⟨content, Text.eq_append_of_cut? hc, Text.not_infix_of_cut? hm hc, rfl⟩

/-- What the first token of a text looks like. -/
theorem reading_of_read (h : read d c s = .ok (t, rest)) : Reading d (c :: s) t rest := by
  have ho := opening_inv c s
  unfold read at h
  split at h
  · next hop =>
    simp only [hop] at ho
    obtain ⟨rfl, rfl⟩ := ho
    obtain ⟨content, rfl, hn, rfl⟩ := reading_of_cut (by decide) h
    have hr : Reading d ((Leaf.comment content).print ++ rest) (.leaf (.comment content)) rest := .leaf rfl hn
    exact hr
  · next hop =>
    simp only [hop] at ho
    obtain ⟨rfl, rfl⟩ := ho
    obtain ⟨content, rfl, hn, rfl⟩ := reading_of_cut (by decide) h
    have hr : Reading d ((Leaf.cdata content).print ++ rest) (.leaf (.cdata content)) rest := .leaf rfl hn
    exact hr
  · next hop =>
    simp only [hop] at ho
    obtain ⟨rfl, rfl, hc, hd⟩ := ho
    obtain ⟨content, hcut, rfl⟩ := eq_some_of_readLeaf h
    obtain ⟨hin, rfl⟩ := Tag.end?_eq_some_iff.1 hcut
    have hwell : (Leaf.declaration content).WellFormed :=
      ⟨fun hp => hc (hp.trans (List.prefix_append _ _)), fun hp => hd (hp.trans (List.prefix_append _ _)),
        Tag.isInside_bang_iff.2 hin⟩
    have hr : Reading d ((Leaf.declaration content).print ++ rest) (.leaf (.declaration content)) rest := .leaf rfl hwell
    rw [print_declaration] at hr
    simpa using hr
  · next hop =>
    simp only [hop] at ho
    obtain ⟨rfl, rfl⟩ := ho
    obtain ⟨content, rfl, hn, rfl⟩ := reading_of_cut (by decide) h
    have hr : Reading d ((Leaf.instruction content).print ++ rest) (.leaf (.instruction content)) rest := .leaf rfl hn
    exact hr
  · next hop =>
    simp only [hop] at ho
    obtain ⟨rfl, rfl, hopens⟩ := ho
    exact reading_of_readTag h hopens
  · next hop =>
    simp only [hop] at ho
    split at h
    · next hc =>
      subst hc
      obtain ⟨rfl, rfl⟩ := by simpa using h
      obtain ⟨hopens, hb, hq⟩ := ho rfl
      exact .lessThan hopens hb hq
    · next hc =>
      simp only [Except.ok.injEq, Prod.mk.injEq] at h
      obtain ⟨rfl, rfl⟩ := h
      have hlt : '<' ∉ c :: s.takeWhile (· != '<') := by
        rw [List.mem_cons, not_or]
        exact ⟨Ne.symm hc, fun hm => absurd (List.mem_takeWhile_imp hm) (by simp)⟩
      have hbreaks : Text.Breaks (s.dropWhile (· != '<')) := by
        intro x hx
        have := List.head?_dropWhile_not (· != '<') s
        rw [hx] at this
        simpa using this
      have hr : Reading d (c :: s.takeWhile (· != '<') ++ s.dropWhile (· != '<')) _ _ :=
        .characters (List.cons_ne_nil c _) hlt hbreaks
      rwa [List.cons_append, List.takeWhile_append_dropWhile] at hr

/-- A text is read as the grammar has it, and only so. -/
theorem read_eq_ok_iff : read d c s = .ok (t, rest) ↔ Reading d (c :: s) t rest := by
  refine ⟨reading_of_read, fun h => ?_⟩
  obtain ⟨c', s', he, hr⟩ := read_of_reading h
  obtain ⟨rfl, rfl⟩ := List.cons.inj he
  exact hr

/-! ## What follows a token -/

/-- A token is read alike whatever follows, if a run of characters at the end of the text does not run on. -/
theorem Reading.append {x : Text} (h : Reading d x t rest) {q : Text} (hq : q.Breaks) :
    Reading d (x ++ q) t (rest ++ q) := by
  cases h with
  | characters hne hlt hb =>
    rw [List.append_assoc]
    exact .characters hne hlt (hb.append hq)
  | lessThan ho hb hqm =>
    -- what follows can only put a `<` first
    have hhead : ∀ y, y ≠ '<' → rest.head? ≠ some y → (rest ++ q).head? ≠ some y := by
      intro y hy hr
      cases rest with
      | nil => exact fun h => hy (hq y h)
      | cons z rest => exact hr
    refine .lessThan ?_ (hhead _ (by decide) hb) (hhead _ (by decide) hqm)
    exact Tag.opens_append_of_breaks ho hq
  | leaf ht hl =>
    rw [List.append_assoc]
    exact .leaf ht hl
  | endTag h =>
    simp only [List.cons_append, List.append_assoc]
    exact .endTag h
  | startTag h hraw =>
    simp only [List.cons_append, List.append_assoc]
    exact .startTag h hraw
  | rawElement h hraw hvoid hc hname hj hgt =>
    simp only [List.cons_append, List.append_assoc]
    exact .rawElement h hraw hvoid hc hname hj hgt

/-- The text of a token is read alike where what follows it is cut short. -/
theorem Reading.exists_token {x : Text} (h : Reading d x t rest) :
    ∃ token, x = token ++ rest ∧ ∀ p q, rest = p ++ q → Reading d (token ++ p) t p := by
  cases h with
  | @characters u rest hne hlt hb =>
    refine ⟨u, rfl, ?_⟩
    rintro p q rfl
    exact .characters hne hlt fun c hc => hb c (by rw [List.head?_append, hc]; rfl)
  | lessThan ho hb hqm =>
    refine ⟨['<'], rfl, ?_⟩
    rintro p q rfl
    have hhead : ∀ y, (p ++ q).head? ≠ some y → p.head? ≠ some y := fun y hn hy =>
      hn (by rw [List.head?_append, hy]; rfl)
    refine .lessThan ?_ (hhead _ hb) (hhead _ hqm)
    rw [Bool.eq_false_iff] at ho ⊢
    exact fun hp => ho (Tag.opens_append hp q)
  | @leaf l rest ht hl => exact ⟨l.print, rfl, fun p _ _ => .leaf ht hl⟩
  | @endTag inside rest hend =>
    refine ⟨'<' :: (inside ++ ['>']), by simp, fun p _ _ => ?_⟩
    have hr : Reading d ('<' :: (inside ++ '>' :: p)) _ p := .endTag hend
    simpa using hr
  | @startTag inside rest hstart hraw =>
    refine ⟨'<' :: (inside ++ ['>']), by simp, fun p _ _ => ?_⟩
    have hr : Reading d ('<' :: (inside ++ '>' :: p)) _ p := .startTag hstart hraw
    simpa using hr
  | @rawElement inside content name junk rest hstart hraw hvoid hc hname hj hgt =>
    refine ⟨'<' :: (inside ++ '>' :: (content ++ ("</".toList ++ (name ++ (junk ++ ['>']))))), by simp, fun p _ _ => ?_⟩
    have hr : Reading d ('<' :: (inside ++ '>' :: (content ++ ("</".toList ++ (name ++ (junk ++ '>' :: p)))))) _ p :=
      .rawElement hstart hraw hvoid hc hname hj hgt
    simpa using hr

theorem Reading.suffix {x : Text} (h : Reading d x t rest) : rest <:+ x := by
  obtain ⟨token, rfl, -⟩ := h.exists_token
  exact List.suffix_append token rest

end Token

end MailTemplate
