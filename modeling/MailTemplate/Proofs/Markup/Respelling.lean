import MailTemplate.Proofs.Markup.NamesRead
/-!
# Names in other letters

Where the case of letters does not matter in names, a template can be respelled: the letters of its names, and no others,
may be put in upper or lower case. It then reads as the same trees, or has its fault at the same place
(`Forest.parse_of_respelled`). The two texts are read in step, token by token (`read_of_respelled`); which letters are
those of names is settled before (`Token.pick_inName`).
-/
namespace MailTemplate

variable {d : Dialect} {p : Places} {s s' : Text}

/-! ## Attributes -/

namespace Tag

open Text

/-- Whether a letter begins a value, ends a tag or opens a quote does not depend on its case. -/
theorem value_head_congr {c c' : Char} (h : c.toLower = c'.toLower) :
    (c = '>' ↔ c' = '>') ∧ isQuote c = isQuote c' ∧ (isQuote c = true → c = c') := by
  refine ⟨?_, ?_, fun hq => ?_⟩
  · rw [← toLower_eq_iff (by decide) c, h, toLower_eq_iff (by decide)]
  · rw [← isQuote_toLower, h, isQuote_toLower]
  · have hc := (toLower_eq_iff (isAlpha_of_isQuote hq) c).2 rfl
    rw [h, toLower_eq_iff (isAlpha_of_isQuote hq)] at hc
    exact hc.symm

theorem isAttributeNameChar_congr {c c' : Char} (h : c.toLower = c'.toLower) :
    isAttributeNameChar c = isAttributeNameChar c' := by
  rw [← isAttributeNameChar_toLower, h, isAttributeNameChar_toLower]

/-- A value in which no letter may differ is read alike. -/
theorem readValue_of_respelled (h : Respelled p s s')
    (hp : ∀ i < s.length - (readValue s).2.length, p i = false) : (readValue s).1 = (readValue s').1 := by
  have hle := (List.dropWhile_suffix isBlank (l := s)).length_le
  have ht := h.dropWhile isBlank_toLower
  unfold readValue at hp ⊢
  revert hp hle ht
  generalize s.dropWhile isBlank = u
  generalize s'.dropWhile isBlank = u'
  intro hp hle ht
  match u, u', ht.length_eq with
  | [], [], _ => rfl
  | c :: t, c' :: t', _ =>
    obtain ⟨hgt, hquote, hsame⟩ := value_head_congr (List.cons.inj ht.lower).1
    rw [List.length_cons] at hle ht
    simp only [← hgt, ← hquote] at hp ⊢
    split_ifs at hp ⊢ with h₁ h₂
    · rfl
    · -- after a quote the value goes on up to the next one
      obtain rfl := hsame h₂
      have hdrop := (List.dropWhile_suffix (· != c) (l := t)).length_le
      refine ht.tail.takeWhile_eq (bne_toLower (isAlpha_of_isQuote h₂)) ?_
      intro i hi
      refine hp _ ?_
      rw [List.length_drop]
      omega
    · have hstop : ∀ c : Char, (!isBlank c.toLower && c.toLower != '>') = (!isBlank c && c != '>') := fun c => by
        rw [isBlank_toLower, bne_toLower (by decide)]
      refine ht.takeWhile_eq (f := fun c => !isBlank c && c != '>') hstop ?_
      intro i hi
      refine hp _ ?_
      rw [List.length_cons] at hi
      dsimp only
      omega

theorem lower_readValue_congr (h : lower s = lower s') : lower (readValue s).2 = lower (readValue s').2 := by
  have hs := readValue_lower s
  rw [h, readValue_lower] at hs
  exact (Prod.ext_iff.1 hs).2.symm

/-- What follows the name of an attribute, after blanks, is a value in both texts or in neither. -/
theorem head?_dropWhile_isBlank_congr (h : lower s = lower s') :
    (s.dropWhile isBlank).head? = some '=' ↔ (s'.dropWhile isBlank).head? = some '=' := by
  rw [← head?_lower_eq_some_iff (by decide), lower_dropWhile_congr isBlank_toLower h, head?_lower_eq_some_iff (by decide)]

theorem lower_readAssigned_congr (h : lower s = lower s') : lower (readAssigned s).2 = lower (readAssigned s').2 := by
  have hrest := lower_dropWhile_congr isBlank_toLower h
  unfold readAssigned
  simp only [head?_dropWhile_isBlank_congr h]
  split
  · refine lower_readValue_congr ?_
    rw [← drop_lower, hrest, drop_lower]
  · exact hrest

theorem readAssigned_of_respelled (h : Respelled p s s')
    (hp : ∀ i < s.length - (readAssigned s).2.length, p i = false) : (readAssigned s).1 = (readAssigned s').1 := by
  have hrest := lower_dropWhile_congr isBlank_toLower h.lower
  unfold readAssigned at hp ⊢
  simp only [head?_dropWhile_isBlank_congr h.lower] at hp ⊢
  split_ifs at hp ⊢ with heq
  · have hdrop : lower ((s.dropWhile isBlank).drop 1) = lower ((s'.dropWhile isBlank).drop 1) := by
      rw [← drop_lower, hrest, drop_lower]
    have hvalue := h.suffix ((List.drop_suffix 1 _).trans (List.dropWhile_suffix isBlank))
      ((List.drop_suffix 1 _).trans (List.dropWhile_suffix isBlank)) (length_eq_of_lower hdrop)
    have hle := ((List.drop_suffix 1 _).trans (List.dropWhile_suffix isBlank (l := s))).length_le
    refine congrArg some (readValue_of_respelled hvalue ?_)
    intro i hi
    refine hp _ ?_
    dsimp only
    omega
  · rfl

theorem readAttributes_of_respelled (h : Respelled (inAttributeName s) s s') :
    (readAttributes s).map (fun a => { a with name := lower a.name }) =
      (readAttributes s').map (fun a => { a with name := lower a.name }) := by
  induction s using inAttributeName.induct generalizing s' with
  | case1 =>
    rw [inAttributeName] at h
    rw [h.eq]
  | case2 s =>
    rw [inAttributeName, if_pos rfl] at h
    rw [h.eq]
  | case3 c s hgt hname ih =>
    rw [inAttributeName, if_neg hgt, if_pos hname] at h
    obtain ⟨c', t, rfl, hc, ht⟩ := h.exists_cons
    have hgt' : ¬ c' = '>' := by rwa [← (value_head_congr hc).1]
    have hname' : isAttributeNameChar c' = true := by rw [← isAttributeNameChar_congr hc, hname]
    have hafter := lower_dropWhile_congr isAttributeNameChar_toLower ht
    have hlen := congrArg List.length (List.takeWhile_append_dropWhile (p := isAttributeNameChar) (l := s))
    rw [List.length_append] at hlen
    have hs : s.dropWhile isAttributeNameChar <:+ c :: s := (List.dropWhile_suffix _).trans (List.suffix_cons c s)
    have ht' : t.dropWhile isAttributeNameChar <:+ c' :: t := (List.dropWhile_suffix _).trans (List.suffix_cons c' t)
    have hname₁ : lower (c :: s.takeWhile isAttributeNameChar) = lower (c' :: t.takeWhile isAttributeNameChar) := by
      rw [lower_cons, lower_cons, hc, lower_takeWhile_congr isAttributeNameChar_toLower ht]
    have hvalue : (readAssigned (s.dropWhile isAttributeNameChar)).1 =
        (readAssigned (t.dropWhile isAttributeNameChar)).1 := by
      refine readAssigned_of_respelled (h.suffix hs ht' (length_eq_of_lower hafter)) ?_
      intro i hi
      rw [Places.drop, Places.upTo_of_lt]
      · simp only [List.length_cons, decide_eq_false_iff_not]
        omega
      · simp only [List.length_cons]
        omega
    have hmore := h.suffix ((readAssigned_suffix _).trans hs) ((readAssigned_suffix _).trans ht')
      (length_eq_of_lower (lower_readAssigned_congr hafter))
    rw [Places.drop_upTo] at hmore
    rw [readAttributes_name hgt hname, readAttributes_name hgt' hname', List.map_cons, List.map_cons, hname₁, hvalue,
      ih hmore]
  | case4 c s hgt hname ih =>
    rw [inAttributeName, if_neg hgt, if_neg hname] at h
    obtain ⟨c', t, rfl, hc, ht⟩ := h.exists_cons
    have hgt' : ¬ c' = '>' := by rwa [← (value_head_congr hc).1]
    rw [Bool.not_eq_true] at hname
    have hname' : isAttributeNameChar c' = false := by rw [← isAttributeNameChar_congr hc, hname]
    rw [readAttributes_skip hname hgt, readAttributes_skip hname' hgt']
    have hs := h.suffix (List.suffix_cons c s) (List.suffix_cons c' t) (length_eq_of_lower ht)
    rw [Places.drop_upTo] at hs
    exact ih hs

end Tag

/-! ## Tags -/

namespace Token

open Text

theorem keep_name_congr (hd : d.caseSensitive = false) {inside inside' : Text} (h : lower inside = lower inside') :
    d.keep (Tag.name inside) = d.keep (Tag.name inside') := by
  rw [d.keep_of_ignoresCase hd, d.keep_of_ignoresCase hd, ← Tag.name_lower, h, Tag.name_lower]

theorem isVoid_elementOf_congr (hd : d.caseSensitive = false) {inside inside' : Text}
    (h : lower inside = lower inside') : (elementOf d inside).isVoid = (elementOf d inside').isVoid := by
  rw [elementOf, elementOf, keep_name_congr hd h, ← Tag.closesItself_lower, h, Tag.closesItself_lower]

theorem elementOf_of_respelled (hd : d.caseSensitive = false) {inside inside' : Text}
    (h : Respelled (Tag.inStartTagName inside) (inside ++ ['>']) (inside' ++ ['>']))
    (hl : lower inside = lower inside') : elementOf d inside = elementOf d inside' := by
  have hvoid := isVoid_elementOf_congr hd hl
  have hattributes := h.dropWhile Tag.isNameChar_toLower
  rw [Tag.inStartTagName, Places.drop_upTo] at hattributes
  have has := Tag.readAttributes_of_respelled hattributes
  rw [elementOf, elementOf] at hvoid ⊢
  simp only at hvoid
  rw [hvoid, keep_name_congr hd hl]
  simp only [d.keep_of_ignoresCase hd, Tag.attributes]
  rw [has]

/-- What was read, and how much of the text is left; of a fault, how much is left where it is reported. -/
def extent : Except FaultAt (Token × Text) → Except Nat (Token × Nat)
  | .error f => .error f.rest.length
  | .ok (t, rest) => .ok (t, rest.length)

/-- The characters of raw text are in no name. -/
theorem inRawEndName_eq_false {name content rest : Text} (h : rawText? name s = some (content, rest)) :
    ∀ i < content.length, inRawEndName name s i = false := by
  induction s generalizing content with
  | nil => cases h
  | cons c s ih =>
    rw [rawText?] at h
    rw [inRawEndName]
    split at h
    · next hat =>
      obtain ⟨_, -, he⟩ := Option.map_eq_some_iff.1 h
      obtain ⟨rfl, -⟩ := Prod.ext_iff.1 he
      intro i hi
      cases hi
    · next hat =>
      obtain ⟨⟨content, r⟩, hr, he⟩ := Option.map_eq_some_iff.1 h
      obtain ⟨rfl, rfl⟩ := Prod.ext_iff.1 he
      rw [if_neg hat]
      intro i hi
      cases i with
      | zero => rw [Places.upTo_of_lt (by simp), Places.none]
      | succ i =>
        rw [Places.upTo_cons_succ]
        exact ih hr i (by simpa using hi)

/-- Raw text in which no letter may differ is read alike. -/
theorem content_of_respelled {name content content' rest : Text} (h : Respelled p s s')
    (hs : rawText? name s = some (content, rest)) (hc : content' <+: s') (hl : lower content = lower content')
    (hp : ∀ i < s.length - rest.length, p i = inRawEndName name s i) : content = content' := by
  obtain ⟨mark, he⟩ := eq_append_of_rawText? hs
  refine h.eq_of_prefix ⟨_, he.symm⟩ hc (length_eq_of_lower hl) fun i hi => ?_
  rw [hp i, inRawEndName_eq_false hs i hi]
  have := congrArg List.length he
  simp only [List.length_append] at this
  omega

/-- A start tag in other letters, before other texts, is one of the same element. -/
theorem elementOf_of_prefix (hd : d.caseSensitive = false) {inside inside' rest rest' : Text}
    (h : Respelled p (inside ++ '>' :: rest) (inside' ++ '>' :: rest')) (hl : lower inside = lower inside')
    (hp : ∀ i < inside.length + 1, p i = Tag.inStartTagName inside i) : elementOf d inside = elementOf d inside' := by
  refine elementOf_of_respelled hd (h.of_prefix ⟨rest, by simp⟩ ⟨rest', by simp⟩ ?_ ?_) hl
  · rw [List.length_append, List.length_append, length_eq_of_lower hl]
  · intro i hi hq
    rw [hp i (by simpa using hi), hq]

/-- Two start tags that open elements with raw text are read in step with it. -/
theorem rawElement_of_respelled (hd : d.caseSensitive = false) {inside inside' rest rest' content r : Text}
    (h : Respelled p (inside ++ '>' :: rest) (inside' ++ '>' :: rest')) (hinside : lower inside = lower inside')
    (hrest : lower rest = lower rest') (hs : rawText? (Tag.name inside) rest = some (content, r))
    (hp : ∀ i < (inside ++ '>' :: rest).length - r.length, p i =
      Places.upTo (inside ++ '>' :: rest) rest (Tag.inStartTagName inside) (inRawEndName (Tag.name inside) rest) i) :
    ∃ r', rawText? (Tag.name inside') rest' = some (content, r') ∧ elementOf d inside = elementOf d inside' ∧
      r.length = r'.length := by
  have hname : lower (Tag.name inside) = lower (Tag.name inside') := by
    rw [← Tag.name_lower, hinside, Tag.name_lower]
  have hlen : (inside ++ '>' :: rest).length = inside.length + 1 + rest.length := by
    rw [List.length_append, List.length_cons]
    omega
  have hle := length_le_of_rawText? hs
  rcases rawText?_congr hname hrest with ⟨hnone, -⟩ | ⟨_, _, content', r', hs', hs'', hc, hr⟩
  · rw [hs] at hnone
    cases hnone
  · rw [hs] at hs'
    obtain ⟨rfl, rfl⟩ := Prod.ext_iff.1 (Option.some.inj hs')
    obtain ⟨mark, he⟩ := eq_append_of_rawText? hs''
    have hcontent := h.suffix ⟨inside ++ ['>'], by simp⟩ ⟨inside' ++ ['>'], by simp⟩ (length_eq_of_lower hrest)
    have heq := content_of_respelled hcontent hs ⟨_, he.symm⟩ hc fun i hi => by
      rw [Places.drop, hp _ (by omega), Places.upTo_add]
    refine ⟨r', by rw [hs'', heq], elementOf_of_prefix hd h hinside ?_, length_eq_of_lower hr⟩
    intro i hi
    rw [hp i (by omega), Places.upTo_of_lt (by omega)]

/-- Two tags are read in step: in the one all letters of names may differ, and no others. -/
theorem readTag_of_respelled (hd : d.caseSensitive = false) (h : Respelled p s s')
    (hp : ∀ t rest, readTag d s = .ok (t, rest) → ∀ i < s.length - rest.length, p i = inTagName d s i) :
    extent (readTag d s) = extent (readTag d s') := by
  rcases Tag.end?_congr h.lower with ⟨he, he'⟩ | ⟨inside, rest, inside', rest', he, he', hinside, hrest⟩
  · rw [readTag, readTag, he, he']
    simp only [extent, List.length_cons, h.length_eq]
  · obtain rfl := Tag.eq_append_of_end? he
    obtain rfl := Tag.eq_append_of_end? he'
    have hslash : inside'.head? = some '/' ↔ inside.head? = some '/' := by
      rw [← head?_lower_eq_some_iff (by decide), ← hinside, head?_lower_eq_some_iff (by decide)]
    unfold readTag at hp ⊢
    rw [inTagName] at hp
    simp only [he, he', hslash] at hp ⊢
    by_cases hh : inside.head? = some '/'
    · -- of an end tag only the name counts, so it does not matter which letters differ
      have hname : lower (inside.drop 1) = lower (inside'.drop 1) := by rw [← drop_lower, ← drop_lower, hinside]
      simp only [if_pos hh, extent, keep_name_congr hd hname, length_eq_of_lower hrest]
    · simp only [if_neg hh] at hp ⊢
      have hraw := holdsRawText_congr (Dialect.sameName_iff.2 (keep_name_congr hd hinside))
      rw [← hraw, ← isVoid_elementOf_congr hd hinside]
      by_cases hr : (holdsRawText (Tag.name inside) && !(elementOf d inside).isVoid) = true
      · simp only [if_pos hr] at hp ⊢
        cases hcontent : rawText? (Tag.name inside) rest with
        | none =>
          -- the end tag is missing in both texts, and the fault is reported after the start tag
          have hname : lower (Tag.name inside) = lower (Tag.name inside') := by
            rw [← Tag.name_lower, hinside, Tag.name_lower]
          rcases rawText?_congr hname hrest with ⟨-, hnone⟩ | ⟨_, _, _, _, hsome, -⟩
          · simp only [hnone, extent, length_eq_of_lower hrest]
          · rw [hcontent] at hsome
            cases hsome
        | some r =>
          rw [hcontent] at hp
          obtain ⟨r', hcontent', helement, hl⟩ := rawElement_of_respelled hd h hinside hrest hcontent (hp _ _ rfl)
          simp only [hcontent', extent, helement, hl]
      · simp only [if_neg hr] at hp ⊢
        have helement := elementOf_of_prefix hd h hinside fun i hi => by
          have hlt : i < (inside ++ '>' :: rest).length - rest.length := by
            rw [List.length_append, List.length_cons]
            omega
          rw [hp _ _ rfl i hlt, Places.upTo_of_lt hlt]
        simp only [extent, helement, length_eq_of_lower hrest]

/-! ## Tokens -/

theorem breaks_of_lower (h : s.Breaks) (hl : lower s = lower s') : s'.Breaks := by
  intro c hc
  obtain ⟨more, rfl⟩ := List.head?_eq_some_iff.1 hc
  cases s with
  | nil => cases hl
  | cons x s =>
    obtain rfl := h x rfl
    exact (toLower_eq_iff (by decide) c).1 (List.cons.inj hl).1.symm

/-- What is no tag is read alike before texts that differ in the case of letters. -/
theorem reading_of_not_opens {c : Char} {t : Token} {rest : Text} (h : Reading d (c :: s) t rest)
    (ho : ¬ (c = '<' ∧ Tag.opens s = true)) :
    ∃ x, c :: s = x ++ rest ∧ ∀ rest', lower rest = lower rest' → Reading d (x ++ rest') t rest' := by
  obtain ⟨l, rfl⟩ := exists_leaf_of_not_opens h ho
  generalize c :: s = y at h
  cases h with
  | @characters x _ hne hlt hb => exact ⟨x, rfl, fun rest' hl => .characters hne hlt (breaks_of_lower hb hl)⟩
  | lessThan ho' hb hq =>
    refine ⟨['<'], rfl, fun rest' hl => ?_⟩
    rw [List.singleton_append]
    refine .lessThan ?_ ?_ ?_
    · rw [← Tag.opens_lower, ← hl, Tag.opens_lower, ho']
    · rwa [ne_eq, ← head?_lower_eq_some_iff (by decide), ← hl, head?_lower_eq_some_iff (by decide)]
    · rwa [ne_eq, ← head?_lower_eq_some_iff (by decide), ← hl, head?_lower_eq_some_iff (by decide)]
  | leaf ht hl => exact ⟨l.print, rfl, fun rest' _ => .leaf ht hl⟩

/-- One token is read in step. -/
theorem read_of_respelled (hd : d.caseSensitive = false) {c c' : Char}
    (h : Respelled (inName d (c :: s)) (c :: s) (c' :: s')) : extent (read d c s) = extent (read d c' s') := by
  by_cases ho : c = '<' ∧ Tag.opens s = true
  · obtain ⟨rfl, ho⟩ := ho
    obtain ⟨hc, hs⟩ : '<'.toLower = c'.toLower ∧ lower s = lower s' := List.cons.inj h.lower
    have hlt : c' = '<' := (toLower_eq_iff (by decide) c').1 hc.symm
    subst hlt
    have ho' : Tag.opens s' = true := by rw [← Tag.opens_lower, ← hs, Tag.opens_lower, ho]
    rw [read_of_opens ho, read_of_opens ho']
    refine readTag_of_respelled hd (h.suffix (List.suffix_cons _ s) (List.suffix_cons _ s') (length_eq_of_lower hs)) ?_
    intro t rest hr i hi
    have hread : read d '<' s = .ok (t, rest) := by rw [read_of_opens ho, hr]
    rw [inName_of_read hread, Places.drop, Places.upTo_of_lt, inTokenName_of_opens ho, Places.upTo_add]
    have := length_le_of_readTag hr
    rw [List.length_cons]
    omega
  · cases hr : read d c s with
    | error f =>
      -- a construct without its end mark has no names in it, so the texts are the same from here on
      rw [inName_of_error hr, inTokenName_eq_none ho] at h
      obtain ⟨rfl, rfl⟩ := List.cons.inj h.eq
      rw [hr]
    | ok r =>
      obtain ⟨t, rest⟩ := r
      -- the two texts begin with the same token, letter for letter
      rw [inName_of_read hr, inTokenName_eq_none ho] at h
      obtain ⟨x, hx, hread⟩ := reading_of_not_opens (reading_of_read hr) ho
      rw [hx] at h
      obtain ⟨rest', he, hrest⟩ := h.append_left fun i hi => by
        rw [Places.upTo_of_lt (by rw [List.length_append]; omega), Places.none]
      have hr' : read d c' s' = .ok (t, rest') := by
        rw [read_eq_ok_iff, he]
        exact hread rest' hrest.lower
      rw [hr', extent, extent, hrest.length_eq]

/-! ## Templates -/

/-- A whole template is read in step. -/
theorem readAll_of_respelled (hd : d.caseSensitive = false) (h : Respelled (inName d s) s s') :
    (readAll d s).tokens = (readAll d s').tokens ∧
      (readAll d s).fault?.map (·.rest.length) = (readAll d s').fault?.map (·.rest.length) := by
  induction s using read_induct (d := d) generalizing s' with
  | nil =>
    obtain rfl : s' = [] := List.length_eq_zero_iff.1 h.length_eq.symm
    exact ⟨rfl, rfl⟩
  | error c s f hr =>
    obtain ⟨c', t', rfl, -, -⟩ := h.exists_cons
    have hstep := read_of_respelled hd h
    cases hr' : read d c' t' with
    | ok r =>
      rw [hr, hr'] at hstep
      cases hstep
    | error f' =>
      rw [hr, hr'] at hstep
      rw [readAll_of_error hr, readAll_of_error hr']
      exact ⟨rfl, congrArg some (Except.error.inj hstep)⟩
  | token c s t rest hr ih =>
    obtain ⟨c', t', rfl, -, -⟩ := h.exists_cons
    have hstep := read_of_respelled hd h
    cases hr' : read d c' t' with
    | error f' =>
      rw [hr, hr'] at hstep
      cases hstep
    | ok r' =>
      obtain ⟨u, rest'⟩ := r'
      rw [hr, hr'] at hstep
      obtain ⟨rfl, hl⟩ := Prod.ext_iff.1 (Except.ok.inj hstep)
      -- what is left is in step again, by the places of the names that are left
      have hmore := h.suffix (reading_of_read hr).suffix (reading_of_read hr').suffix hl
      rw [inName_of_read hr, Places.drop_upTo] at hmore
      obtain ⟨htokens, hfault⟩ := ih hmore
      rw [readAll_of_read hr, readAll_of_read hr']
      exact ⟨congrArg (List.cons t) htokens, hfault⟩

end Token

/-- A fault that is reported with as much of the text left is reported at the same place. -/
theorem FaultAt.position_congr {f f' : FaultAt} (hs : Text.lower s = Text.lower s')
    (hf : f.rest.length = f'.rest.length) : (f.error s).position = (f'.error s').position := by
  rw [FaultAt.error, FaultAt.error, hf, Text.length_eq_of_lower hs, ← Position.after_lower, ← Text.take_lower, hs,
    Text.take_lower, Position.after_lower]

/-- Where the case of letters does not matter in names, two templates that differ only in the case of letters in names say
the same, or have their fault at the same place. What counts as in names there is, in a template that can be read, nothing
but the names of its tokens, and all of these. -/
theorem Forest.parse_of_respelled (hd : d.caseSensitive = false) (h : Respelled (Token.inName d s) s s') :
    (Forest.parse d s').mapError ParseError.position = (Forest.parse d s).mapError ParseError.position ∧
      ((Token.readAll d s).fault? = none →
        Text.lower ((Token.inName d s).pick s) = Text.lower ((Token.readAll d s).tokens.flatMap Token.names)) := by
  refine ⟨?_, Token.pick_inName⟩
  obtain ⟨htokens, hfault⟩ := Token.readAll_of_respelled hd h
  rw [Forest.parse, Forest.parse, ← htokens]
  cases hf : (Token.readAll d s).fault? with
  | none =>
    rw [hf, Option.map_none, eq_comm, Option.map_eq_none_iff] at hfault
    rw [hfault]
  | some f =>
    rw [hf, eq_comm] at hfault
    obtain ⟨f', hf', hl⟩ := Option.map_eq_some_iff.1 hfault
    rw [hf']
    exact congrArg Except.error (FaultAt.position_congr h.lower hl.symm).symm

/-- A template with names in capital and in small letters. -/
def mixedNames : Text := "<Div Class=\"A\"><Style>B</STYLE></dIV>".toList

theorem respelled_mixedNames : Respelled (Token.inName Dialect.jelly mixedNames) mixedNames
    "<dIV cLASS=\"A\"><sTYLE>B</style></DIV>".toList :=
  .of_lt (by decide +kernel) (by decide +kernel)

theorem parse_of_respelled_mixedNames :
    (Forest.parse Dialect.jelly "<dIV cLASS=\"A\"><sTYLE>B</style></DIV>".toList).mapError ParseError.position =
      (Forest.parse Dialect.jelly mixedNames).mapError ParseError.position ∧
    Text.lower ((Token.readAll Dialect.jelly mixedNames).tokens.flatMap Token.names) = "divclassstylestylediv".toList := by
  obtain ⟨hparse, hnames⟩ := Forest.parse_of_respelled (d := Dialect.jelly) rfl respelled_mixedNames
  refine ⟨hparse, (hnames (by decide +kernel)).symm.trans ?_⟩
  decide +kernel

end MailTemplate
