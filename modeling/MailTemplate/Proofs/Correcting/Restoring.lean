import MailTemplate.Proofs.Correcting.Spaces
import MailTemplate.Proofs.Markup.Invariant
import MailTemplate.Proofs.Markup.RoundTrip
import MailTemplate.Proofs.Style.Frame
/-!
# Templates that come back as they were

A Jelly template without sheets comes back byte for byte (`process_print_jelly`). Reading flattens the case of names and
takes one escape off spaces; what is written then holds the patterns of the corrections where that has been done and
nowhere else, since patterns never lie across the marks that tags are made of.
-/
namespace MailTemplate

open Correction

/-! ## Corrections and marks -/

/-- Makes the corrections of Jelly templates. -/
def restore (s : Text) : Text := applyAll jelly s

/-- Characters that are in no pattern. -/
def IsMark (z : Char) : Prop := ∀ c ∈ jelly, z ∉ c.pattern

/-- Text that a pattern before it does not reach into. -/
def MarkFirst (s : Text) : Prop := ∀ z, s.head? = some z → IsMark z

/-- Text that a pattern after it does not reach into. -/
def MarkLast (s : Text) : Prop := ∀ z, s.getLast? = some z → IsMark z

/-- Text without patterns. -/
def IsClean (s : Text) : Prop := ∀ c ∈ jelly, ¬ c.pattern <:+: s

instance : DecidablePred IsMark := fun z => inferInstanceAs (Decidable (∀ c ∈ jelly, z ∉ c.pattern))

theorem IsClean.mono {s t : Text} (h : IsClean t) (hi : s <:+: t) : IsClean s := fun c hc hs => h c hc (hs.trans hi)

theorem restore_of_isClean {s : Text} (h : IsClean s) : restore s = s := applyAll_eq_self h

theorem restore_nil : restore [] = [] := applyAll_nil jelly

theorem restore_append_cons {z : Char} (hz : IsMark z) (a b : Text) :
    restore (a ++ z :: b) = restore a ++ z :: restore b := applyAll_append_cons hz a b

theorem restore_cons {z : Char} (hz : IsMark z) (b : Text) : restore (z :: b) = z :: restore b := by
  rw [← List.nil_append (z :: b), restore_append_cons hz, restore_nil, List.nil_append]

theorem restore_append_markFirst {b : Text} (h : MarkFirst b) (a : Text) : restore (a ++ b) = restore a ++ restore b := by
  cases b with
  | nil => rw [List.append_nil, restore_nil, List.append_nil]
  | cons z b => rw [restore_append_cons (h z rfl), restore_cons (h z rfl)]

theorem restore_append_markLast {a : Text} (h : MarkLast a) (b : Text) : restore (a ++ b) = restore a ++ restore b := by
  rcases List.eq_nil_or_concat a with rfl | ⟨a, z, rfl⟩
  · rw [List.nil_append, restore_nil, List.nil_append]
  · have hz : IsMark z := h z (by simp)
    rw [List.concat_eq_append, List.append_assoc, List.singleton_append, restore_append_cons hz, restore_append_cons hz,
      restore_nil, List.append_assoc, List.singleton_append]

theorem markFirst_cons {z : Char} (hz : IsMark z) (s : Text) : MarkFirst (z :: s) := by
  rintro x ⟨⟩
  exact hz

theorem markLast_concat {z : Char} (hz : IsMark z) (s : Text) : MarkLast (s ++ [z]) := by
  intro x hx
  rw [List.getLast?_concat] at hx
  obtain rfl := Option.some.inj hx
  exact hz

/-! ## Names -/

/-- Names that come back: those without capitals, and those for which there is a correction. -/
def IsJellyName (name : Text) : Prop :=
  (∀ c ∈ name, c.isUpper = false) ∨
    name ∈ ["j:forEach".toList, "j:getStatic".toList, "varStatus".toList, "className".toList]

-- the characters of the name are gone through, not all that there are
instance : DecidablePred IsJellyName := fun name =>
  @instDecidableOr _ _ (List.decidableBAll (fun c => c.isUpper = false) name) inferInstance

theorem lower_of_no_capitals {name : Text} (h : ∀ c ∈ name, c.isUpper = false) : Text.lower name = name := by
  unfold Text.lower
  conv_rhs => rw [← List.map_id name]
  refine List.map_congr_left fun c hc => ?_
  exact Char.toLower_eq_of_not_isUpper (by simp [h c hc])

theorem restore_keep {name : Text} (h : IsJellyName name) (hc : IsClean name) :
    restore (Dialect.jelly.keep name) = name := by
  rw [Dialect.keep_of_ignoresCase rfl]
  rcases h with h | h
  · rw [lower_of_no_capitals h, restore_of_isClean hc]
  · have hall : ∀ name ∈ ["j:forEach".toList, "j:getStatic".toList, "varStatus".toList, "className".toList],
        restore (Text.lower name) = name := by decide +kernel
    exact hall name h

/-! ## Tags -/

theorem quoteValue_requoted (v : Text) : quoteValue (requoted v) = quoteValue v := by
  unfold requoted
  split
  · next h =>
    unfold quoteValue
    rw [if_neg (by simpa using not_mem_escapeQuotes v), if_pos (by simpa using h.1), if_pos (by simpa using h.2)]
    rfl
  · rfl

theorem restore_print {a : Attribute} (h : IsJellyName a.name) (hc : IsClean a.print) :
    restore (a.kept .jelly).asRead.print = a.print := by
  have hspace : IsMark ' ' := by decide
  have heq : IsMark '=' := by decide
  obtain ⟨name, value⟩ := a
  cases value with
  | none =>
    have hname : IsClean name := hc.mono (List.suffix_cons ' ' name).isInfix
    change restore (' ' :: Dialect.jelly.keep name) = ' ' :: name
    rw [restore_cons hspace, restore_keep h hname]
  | some v =>
    have hname : IsClean name := hc.mono ⟨[' '], '=' :: quoteValue v, by simp [Attribute.print]⟩
    have hvalue : IsClean (quoteValue v) := hc.mono ⟨' ' :: name ++ ['='], [], by simp [Attribute.print]⟩
    change restore (' ' :: Dialect.jelly.keep name ++ '=' :: quoteValue (requoted v)) = ' ' :: name ++ '=' :: quoteValue v
    rw [quoteValue_requoted, restore_append_cons heq, restore_cons hspace, restore_keep h hname,
      restore_of_isClean hvalue]

theorem markFirst_prints (as : List Attribute) : MarkFirst (as.flatMap Attribute.print) := by
  cases as with
  | nil => rintro z ⟨⟩
  | cons a as =>
    obtain ⟨name, value⟩ := a
    cases value <;> exact markFirst_cons (by decide) _

theorem restore_prints {as : List Attribute} (h : ∀ a ∈ as, IsJellyName a.name)
    (hc : IsClean (as.flatMap Attribute.print)) :
    restore (((as.map (Attribute.kept .jelly)).map Attribute.asRead).flatMap Attribute.print) =
      as.flatMap Attribute.print := by
  induction as with
  | nil => exact restore_nil
  | cons a as ih =>
    rw [List.flatMap_cons] at hc
    have ha := restore_print (h a List.mem_cons_self) (hc.mono (List.prefix_append _ _).isInfix)
    have has := ih (fun b hb => h b (List.mem_cons_of_mem a hb)) (hc.mono (List.suffix_append _ _).isInfix)
    rw [List.map_cons, List.map_cons, List.flatMap_cons, restore_append_markFirst (markFirst_prints _), ha, has,
      List.flatMap_cons]

/-- Elements of which all names come back. -/
def Element.HasJellyNames (e : Element) : Prop := IsJellyName e.name ∧ ∀ a ∈ e.attributes, IsJellyName a.name

instance : DecidablePred Element.HasJellyNames := fun e =>
  inferInstanceAs (Decidable (IsJellyName e.name ∧ ∀ a ∈ e.attributes, IsJellyName a.name))

theorem restore_startTag {e : Element} (h : e.HasJellyNames) (hc : IsClean e.startTag) :
    restore (e.kept .jelly).asRead.startTag = e.startTag := by
  have hlt : IsMark '<' := by decide
  have hclose : ∀ void : Bool, MarkFirst (if void then " />".toList else ">".toList) ∧
      restore (if void then " />".toList else ">".toList) = if void then " />".toList else ">".toList := by
    intro void
    cases void
    · exact ⟨markFirst_cons (by decide) _, by decide +kernel⟩
    · exact ⟨markFirst_cons (by decide) _, by decide +kernel⟩
  obtain ⟨hfirst, hsame⟩ := hclose e.isVoid
  have hname : IsClean e.name := hc.mono
    (List.IsInfix.trans ⟨['<'], e.attributes.flatMap Attribute.print, rfl⟩ (List.prefix_append _ _).isInfix)
  have hattributes : IsClean (e.attributes.flatMap Attribute.print) := hc.mono ⟨'<' :: e.name, _, rfl⟩
  change restore ('<' :: Dialect.jelly.keep e.name ++
    ((e.attributes.map (Attribute.kept .jelly)).map Attribute.asRead).flatMap Attribute.print ++
      if e.isVoid then " />".toList else ">".toList) = _
  rw [restore_append_markFirst hfirst, restore_append_markFirst (markFirst_prints _), restore_cons hlt,
    restore_keep h.1 hname, restore_prints h.2 hattributes, hsame, Element.startTag]

theorem restore_endTag {e : Element} (h : e.HasJellyNames) (hc : IsClean e.endTag) :
    restore (e.kept .jelly).asRead.endTag = e.endTag := by
  have hname : IsClean e.name := hc.mono ⟨"</".toList, ">".toList, rfl⟩
  have hopen : MarkLast "</".toList := by
    rintro z ⟨⟩
    decide
  have hclose : MarkFirst ">".toList := by
    rintro z ⟨⟩
    decide
  have hsame : restore "</".toList = "</".toList ∧ restore ">".toList = ">".toList := by decide +kernel
  change restore ("</".toList ++ Dialect.jelly.keep e.name ++ ">".toList) = _
  rw [restore_append_markFirst hclose, restore_append_markLast hopen, restore_keep h.1 hname,
    hsame.1, hsame.2, Element.endTag]

/-! ## Trees -/

theorem Forest.compact_eq_flatMap (f : Forest) : Forest.compact f = f.flatMap Tree.compact := by
  induction f with
  | nil => rfl
  | cons t f ih => rw [Forest.compact, ih, List.flatMap_cons]

theorem Forest.infix_compact {f : Forest} {t : Tree} (ht : t ∈ f) : t.compact <:+: Forest.compact f := by
  obtain ⟨before, after, rfl⟩ := List.append_of_mem ht
  rw [Forest.compact_eq_flatMap, List.flatMap_append, List.flatMap_cons, ← List.append_assoc]
  exact List.infix_append _ _ _

/-- What stands between `<` and `>`. -/
def IsTagged (s : Text) : Prop := (∃ more, s = '<' :: more) ∧ ∃ init, s = init ++ ['>']

theorem IsTagged.of_ends {first mid last : Text} (hf : ∃ more, first = '<' :: more) (hl : ∃ init, last = init ++ ['>']) :
    IsTagged (first ++ mid ++ last) := by
  obtain ⟨more, rfl⟩ := hf
  obtain ⟨init, rfl⟩ := hl
  exact ⟨⟨more ++ mid ++ (init ++ ['>']), by simp⟩, ⟨'<' :: more ++ mid ++ init, by simp⟩⟩

theorem IsTagged.markFirst {s : Text} (h : IsTagged s) : MarkFirst s := by
  obtain ⟨⟨more, rfl⟩, -⟩ := h
  exact markFirst_cons (by decide) more

theorem IsTagged.markFirst_append {s : Text} (h : IsTagged s) (t : Text) : MarkFirst (s ++ t) := by
  obtain ⟨⟨more, rfl⟩, -⟩ := h
  exact markFirst_cons (by decide) (more ++ t)

theorem IsTagged.markLast {s : Text} (h : IsTagged s) : MarkLast s := by
  obtain ⟨-, init, rfl⟩ := h
  exact markLast_concat (by decide) init

theorem isTagged_startTag (e : Element) : IsTagged e.startTag := by
  rw [Element.startTag_eq]
  exact ⟨⟨_, rfl⟩, ⟨'<' :: e.tagText, rfl⟩⟩

theorem isTagged_endTag (e : Element) : IsTagged e.endTag := .of_ends ⟨['/'], by decide⟩ ⟨[], by decide⟩

theorem isTagged_print {l : Leaf} (h : l.WellFormed) (hl : l.isText = false) : IsTagged l.print := by
  cases l with
  | text t => cases hl
  | raw t => cases h
  | comment t => exact .of_ends ⟨"!--".toList, by decide⟩ ⟨"--".toList, by decide⟩
  | cdata t => exact .of_ends ⟨"![CDATA[".toList, by decide⟩ ⟨"]]".toList, by decide⟩
  | declaration t => exact .of_ends ⟨"!".toList, by decide⟩ ⟨[], by decide⟩
  | instruction t => exact .of_ends ⟨"?".toList, by decide⟩ ⟨"?".toList, by decide⟩

/-- A tree that is no character data stands between marks. -/
theorem isTagged_compact {above : List Text} {t : Tree} (h : t.WellFormed .jelly above) (ht : t.isText = false) :
    IsTagged t.asRead.compact := by
  cases t with
  | leaf l =>
    cases h with
    | leaf hl =>
      cases l with
      | text t => cases ht
      | raw t => cases hl
      | comment t | cdata t | declaration t | instruction t => exact isTagged_print hl ht
  | element e content =>
    rw [Tree.asRead, Tree.compact]
    split
    · exact isTagged_startTag _
    · exact .of_ends (isTagged_startTag _).1 (isTagged_endTag _).2

theorem restore_compact_of_trees {above : List Text} {f : Forest} (hf : Forest.TextsApart f)
    (hw : ∀ t ∈ f, (t.kept .jelly).WellFormed .jelly above)
    (ht : ∀ t ∈ f, restore (t.kept .jelly).asRead.compact = t.compact) :
    restore (Forest.compact (Forest.asRead (Forest.kept .jelly f))) = Forest.compact f := by
  induction f with
  | nil => exact restore_nil
  | cons t f ih =>
    rw [Forest.TextsApart, List.isChain_cons] at hf
    have hmore := ih hf.2 (fun u hu => hw u (List.mem_cons_of_mem t hu)) fun u hu => ht u (List.mem_cons_of_mem t hu)
    rw [Forest.kept, Forest.asRead, Forest.compact, Forest.compact, ← ht t List.mem_cons_self, ← hmore]
    cases htext : t.isText with
    | false =>
      have htagged := isTagged_compact (hw t List.mem_cons_self) (by rw [Tree.isText_kept, htext])
      exact restore_append_markLast htagged.markLast _
    | true =>
      -- after character data there is a tag, if there is anything
      refine restore_append_markFirst ?_ _
      cases f with
      | nil => rintro z ⟨⟩
      | cons u f =>
        rcases hf.1 u rfl with h | h
        · rw [htext] at h
          cases h
        · have htagged := isTagged_compact (hw u (by simp)) (by rw [Tree.isText_kept, h])
          exact htagged.markFirst_append _

theorem restore_element {e : Element} {content : Forest} (hv : e.isVoid = false) (he : e.HasJellyNames)
    (hc : IsClean (Tree.element e content).compact)
    (hcontent : IsClean (Forest.compact content) →
      restore (Forest.compact (Forest.asRead (Forest.kept .jelly content))) = Forest.compact content) :
    restore (Tree.element (e.kept .jelly) (Forest.kept .jelly content)).asRead.compact =
      (Tree.element e content).compact := by
  have hv' : ¬ (e.kept .jelly).asRead.isVoid = true := Bool.eq_false_iff.1 hv
  rw [Tree.compact, if_neg (Bool.eq_false_iff.1 hv)] at hc ⊢
  rw [Tree.asRead, Tree.compact, if_neg hv']
  have hinner : IsClean (e.startTag ++ Forest.compact content) := hc.mono (List.prefix_append _ _).isInfix
  rw [restore_append_markFirst (isTagged_endTag _).markFirst,
    restore_append_markLast (isTagged_startTag _).markLast,
    restore_startTag he (hinner.mono (List.prefix_append _ _).isInfix),
    restore_endTag he (hc.mono (List.suffix_append _ _).isInfix),
    hcontent (hinner.mono (List.suffix_append _ _).isInfix)]

/-- A tree comes back where its names and its spaces do. -/
theorem restore_compact {above : List Text} {t : Tree} (hw : (t.kept .jelly).WellFormed .jelly above)
    (hnames : ∀ e ∈ t.elements, e.HasJellyNames) (htexts : ∀ s ∈ t.texts, EscapesOnlySpaces s)
    (hc : IsClean t.compact) : restore (t.kept .jelly).asRead.compact = t.compact := by
  generalize hu : t.kept .jelly = u at hw
  induction hw generalizing t with
  | leaf hl =>
    cases t with
    | element e content => cases hu
    | leaf l =>
      obtain rfl := Tree.leaf.inj hu
      cases l with
      | text s => exact applyAll_escapeText_decode (htexts s List.mem_cons_self) hc
      | raw s => cases hl
      | comment s | cdata s | declaration s | instruction s => exact restore_of_isClean hc
  | void he hm hv =>
    obtain ⟨e, content, rfl, rfl, -⟩ := Tree.exists_of_kept_eq_element hu
    have hv' : e.isVoid = true := hv
    have hread : (e.kept .jelly).asRead.isVoid = true := hv
    rw [Tree.compact, if_pos hv'] at hc ⊢
    rw [Tree.asRead, Tree.compact, if_pos hread]
    exact restore_startTag (hnames e List.mem_cons_self) hc
  | raw he hm hv hr hcontent =>
    obtain ⟨e, content, rfl, rfl, rfl⟩ := Tree.exists_of_kept_eq_element hu
    refine restore_element hv (hnames e List.mem_cons_self) hc fun hclean => ?_
    have hkept := hcontent.of_kept
    rw [hkept] at hcontent ⊢
    rcases hcontent with rfl | ⟨s, -, rfl, -⟩
    · exact restore_nil
    · exact restore_of_isClean hclean
  | element he hm hv hr hcontent hw ih =>
    obtain ⟨e, content, rfl, rfl, rfl⟩ := Tree.exists_of_kept_eq_element hu
    refine restore_element hv (hnames e List.mem_cons_self) hc fun hclean => ?_
    refine restore_compact_of_trees (Forest.textsApart_of_kept hcontent) (fun t ht => hw _ (Forest.mem_kept_of_mem ht))
      fun t ht => ?_
    exact ih _ (Forest.mem_kept_of_mem ht)
      (fun e' he' => hnames e' (List.mem_cons_of_mem e (Forest.mem_elements ht he')))
      (fun s hs => htexts s (Forest.mem_texts ht hs)) (hclean.mono (Forest.infix_compact ht)) rfl

/-! ## Whole templates -/

/-- A Jelly template comes back from reading, writing and correcting. -/
theorem restore_compact_asRead {f : Forest} (hw : Forest.WellFormed .jelly [] (Forest.kept .jelly f))
    (hnames : ∀ e ∈ Forest.elements f, e.HasJellyNames) (htexts : ∀ s ∈ Forest.texts f, EscapesOnlySpaces s)
    (hc : IsClean (Forest.compact f)) :
    restore (Forest.compact (Forest.asRead (Forest.kept .jelly f))) = Forest.compact f := by
  have hw' : ∀ t ∈ f, (t.kept .jelly).WellFormed .jelly [] := fun t ht => hw.trees _ (Forest.mem_kept_of_mem ht)
  refine restore_compact_of_trees (Forest.textsApart_of_kept hw.textsApart) hw' fun t ht => ?_
  exact restore_compact (hw' t ht) (fun e he => hnames e (Forest.mem_elements ht he))
    (fun s hs => htexts s (Forest.mem_texts ht hs)) (hc.mono (Forest.infix_compact ht))

/-- A Jelly template that needs no inlining comes back byte for byte. -/
theorem process_print_jelly {f : Forest} (urls : UrlReading) (dir : Option Path) (read : Reader)
    (hsources : ∀ e ∈ Forest.elements f, Text.sameLetters e.name "style".toList = false ∧
      Text.sameLetters e.name "link".toList = false)
    (hnames : ∀ e ∈ Forest.elements f, e.HasJellyNames)
    (hw : Forest.WellFormed .jelly [] (Forest.kept .jelly f))
    (htexts : ∀ t ∈ Forest.texts f, EscapesOnlySpaces t)
    (hc : ∀ c ∈ Correction.jelly, ¬ c.pattern <:+: Forest.print false f) :
    process ⟨.jelly, false, none, urls⟩ dir read Correction.jelly (Forest.print false f) = .ok (Forest.print false f) := by
  have hp : Forest.parse Dialect.jelly (Forest.print false f) = .ok (Forest.asRead (Forest.kept .jelly f)) :=
    Forest.parse_eq_ok_iff.2 (Forest.readOn_compact_of_kept hw)
  have hin : inline ⟨.jelly, false, none, urls⟩ dir read (Forest.print false f) =
      .ok (Forest.print false (Forest.asRead (Forest.kept .jelly f))) := by
    refine inline_of_no_sources hp ?_
    rw [Forest.elements_asRead, Forest.elements_kept]
    intro e he
    obtain ⟨kept, hkept, rfl⟩ := List.mem_map.1 he
    obtain ⟨e', he', rfl⟩ := List.mem_map.1 hkept
    have hsame : ∀ name, Text.sameLetters (e'.kept .jelly).asRead.name name = Text.sameLetters e'.name name := by
      intro name
      unfold Text.sameLetters
      exact congrArg (· == Text.lower name) (Dialect.lower_keep .jelly e'.name)
    rw [hsame, hsame]
    exact hsources e' he'
  unfold process
  rw [hin]
  exact congrArg Except.ok (restore_compact_asRead hw hnames htexts hc)

/-- `<j:forEach varStatus="i"><td className="a">b&amp;nbsp;c</td></j:forEach>` -/
def spacedCells : Tree :=
  .element ⟨"j:forEach".toList, [⟨"varStatus".toList, some "i".toList⟩], false⟩
    [.element ⟨"td".toList, [⟨"className".toList, some "a".toList⟩], false⟩ [.leaf (.text "b&amp;nbsp;c".toList)]]

theorem parse_spacedCells : Forest.parse .jelly
    "<j:foreach varstatus=\"i\"><td classname=\"a\">b&amp;amp;nbsp;c</td></j:foreach>".toList =
      .ok (Forest.kept .jelly [spacedCells]) :=
  Forest.parse_of_readAll (by decide +kernel)
    (show _ = [.startTag ⟨"j:foreach".toList, [⟨"varstatus".toList, some "i".toList⟩], false⟩,
      .startTag ⟨"td".toList, [⟨"classname".toList, some "a".toList⟩], false⟩, .leaf (.text "b&amp;nbsp;c".toList),
      .endTag "td".toList, .endTag "j:foreach".toList] by decide +kernel)

theorem wellFormed_spacedCells : Forest.WellFormed .jelly [] (Forest.kept .jelly [spacedCells]) :=
  Forest.wellFormed_of_parse parse_spacedCells

theorem process_print_jelly_cells :
    (∀ e ∈ Forest.elements [spacedCells], Text.sameLetters e.name "style".toList = false ∧
      Text.sameLetters e.name "link".toList = false) ∧
    (∀ e ∈ Forest.elements [spacedCells], e.HasJellyNames) ∧
    Forest.WellFormed .jelly [] (Forest.kept .jelly [spacedCells]) ∧
    (∀ t ∈ Forest.texts [spacedCells], EscapesOnlySpaces t) ∧
    (∀ c ∈ Correction.jelly, ¬ c.pattern <:+: Forest.print false [spacedCells]) ∧
    process ⟨.jelly, false, none, .web⟩ none (fun _ => .ok []) Correction.jelly
        "<j:forEach varStatus=\"i\"><td className=\"a\">b&amp;nbsp;c</td></j:forEach>".toList =
      .ok "<j:forEach varStatus=\"i\"><td className=\"a\">b&amp;nbsp;c</td></j:forEach>".toList := by
  have hsources : ∀ e ∈ Forest.elements [spacedCells], Text.sameLetters e.name "style".toList = false ∧
      Text.sameLetters e.name "link".toList = false := by decide
  have hnames : ∀ e ∈ Forest.elements [spacedCells], e.HasJellyNames := by decide
  have htexts : ∀ t ∈ Forest.texts [spacedCells], EscapesOnlySpaces t := by decide +kernel
  have hc : ∀ c ∈ Correction.jelly, ¬ c.pattern <:+: Forest.print false [spacedCells] := by decide +kernel
  exact ⟨hsources, hnames, wellFormed_spacedCells, htexts, hc,
    process_print_jelly .web none (fun _ => .ok []) hsources hnames wellFormed_spacedCells htexts hc⟩

end MailTemplate
