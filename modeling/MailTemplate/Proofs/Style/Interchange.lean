import MailTemplate.Proofs.Markup.Invariant
import MailTemplate.Proofs.Markup.Swapping
import MailTemplate.Proofs.Style.Taking
/-!
# Linked and embedded sheets

It makes no difference whether a sheet stands in a style element or in a file beside the template that a link in the
same place names: the same text comes out, or none in either case (`inline_styleElement_or_link`). Both elements are
taken out of the template for the same sheet and leave the same behind (`Tree.Interchangeable`).
-/
namespace MailTemplate

/-! ## Trees that inlining cannot tell apart -/

section Interchangeable

variable (s : Settings) (dir : Option Path) (read : Reader)

/-- Trees with the same sheets, of which the same stays when these are taken out. -/
structure Forest.Interchangeable (f g : Forest) : Prop where
  ownText : f.ownText = g.ownText
  failure : (Forest.sources (Source.of? s dir) f).findSome? (·.failure? read) =
    (Forest.sources (Source.of? s dir) g).findSome? (·.failure? read)
  sheets : (Forest.sources (Source.of? s dir) f).filterMap (·.sheet? read) =
    (Forest.sources (Source.of? s dir) g).filterMap (·.sheet? read)
  remains : Forest.withoutSheets (Source.of? s dir) (·.sheet? read) f =
    Forest.withoutSheets (Source.of? s dir) (·.sheet? read) g

end Interchangeable

variable {s : Settings} {dir : Option Path} {read : Reader}

/-- Of the content of an element only its own character data counts for what source it is. -/
theorem Source.of?_congr {content content' : Forest} (h : content.ownText = content'.ownText) (e : Element) :
    Source.of? s dir e content = Source.of? s dir e content' := by
  unfold Source.of?
  rw [h]

namespace Forest.Interchangeable

variable {f g f' g' : Forest}

theorem refl (f : Forest) : Forest.Interchangeable s dir read f f := ⟨rfl, rfl, rfl, rfl⟩

theorem cons {t u : Tree} (h : Forest.Interchangeable s dir read [t] [u])
    (h' : Forest.Interchangeable s dir read f g) : Forest.Interchangeable s dir read (t :: f) (u :: g) := by
  obtain ⟨ho, hf, hs, hr⟩ := h
  obtain ⟨ho', hf', hs', hr'⟩ := h'
  simp only [Forest.ownText, Forest.sources, Forest.withoutSheets, List.flatMap_cons, List.flatMap_nil,
    List.append_nil] at ho hf hs hr ho' hf' hs' hr'
  constructor
  · simp only [Forest.ownText, List.flatMap_cons, ho, ho']
  · simp only [Forest.sources, List.findSome?_append, hf, hf']
  · simp only [Forest.sources, List.filterMap_append, hs, hs']
  · simp only [Forest.withoutSheets, hr, hr']

theorem element {content content' : Forest} (h : Forest.Interchangeable s dir read content content') (e : Element) :
    Forest.Interchangeable s dir read [.element e content] [.element e content'] := by
  obtain ⟨ho, hf, hs, hr⟩ := h
  have hof : Source.of? s dir e content = Source.of? s dir e content' := Source.of?_congr ho e
  constructor
  · rfl
  all_goals simp only [Forest.sources, Forest.withoutSheets, Tree.sources, Tree.withoutSheets, List.append_nil, hof]
  · cases Source.of? s dir e content' with
    | none => exact hf
    | some source =>
      cases source with
      | left problem => simpa [Source.failure?] using hf
      | embedded | linked => rfl
  · cases Source.of? s dir e content' with
    | none => exact hs
    | some source =>
      cases source with
      | left problem => simpa [Source.sheet?] using hs
      | embedded | linked => rfl
  · rw [hr]

/-- Trees that differ only in having one of two interchangeable trees in places. -/
theorem of_swapped {a b : Tree} (hab : Forest.Interchangeable s dir read [a] [b]) (h : Forest.Swapped a b f g) :
    Forest.Interchangeable s dir read f g := by
  induction h with
  | nil => exact .refl []
  | same t _ ih => exact (Interchangeable.refl [t]).cons ih
  | swap _ ih => exact hab.cons ih
  | inside e _ _ ihc ih => exact (ihc.element e).cons ih

end Forest.Interchangeable

/-- Both fail, or both say the same. -/
def SameOutcome (x y : Except Failure Text) : Prop :=
  (∃ t, x = .ok t ∧ y = .ok t) ∨ ∃ e e', x = .error e ∧ y = .error e'

theorem sameOutcome_inline {src src' : Text} {f g : Forest} (hf : Forest.parse s.dialect src = .ok f)
    (hg : Forest.parse s.dialect src' = .ok g) (h : Forest.Interchangeable s dir read f g) :
    SameOutcome (inline s dir read src) (inline s dir read src') := by
  have htrees : f.inlined s dir read = g.inlined s dir read := by
    unfold Forest.inlined Forest.sheet
    rw [h.sheets, h.remains]
  unfold inline
  rw [hf, hg]
  dsimp only
  rw [h.failure, htrees]
  cases (Forest.sources (Source.of? s dir) g).findSome? (·.failure? read) with
  | some failure => exact .inr ⟨failure, failure, rfl, rfl⟩
  | none => exact .inl ⟨_, rfl, rfl⟩

theorem Forest.exists_parse_error {d : Dialect} {src : Text} {e : Fault}
    (h : Nesting.empty.readOn d src = .error e) : ∃ e', Forest.parse d src = .error e' := by
  rw [← Forest.parse_eq_readOn] at h
  cases hp : Forest.parse d src with
  | error e' => exact ⟨e', rfl⟩
  | ok f =>
    rw [hp] at h
    cases h

theorem sameOutcome_inline_of_error {src src' : Text} {e e' : ParseError} (hf : Forest.parse s.dialect src = .error e)
    (hg : Forest.parse s.dialect src' = .error e') :
    SameOutcome (inline s dir read src) (inline s dir read src') := by
  unfold inline
  rw [hf, hg]
  exact .inr ⟨_, _, rfl, rfl⟩

/-! ## The style element and the link -/

/-- A sheet in a style element. -/
def styleElement (css : Text) : Text := "<style>".toList ++ css ++ "</style>".toList

/-- A link to the file `f.css`. -/
def sheetLink : Text := "<link rel=\"stylesheet\" href=\"f.css\">".toList

/-- The style element as it is read. -/
def styleTree (css : Text) : Tree := .element ⟨"style".toList, [], false⟩ (Nesting.rawContent css)

/-- The link as it is read. -/
def linkTree : Tree :=
  .element ⟨"link".toList, [⟨"rel".toList, some "stylesheet".toList⟩, ⟨"href".toList, some "f.css".toList⟩], true⟩ []

variable {d : Dialect} {n : Nesting}

theorem styleElement_append (css q : Text) : styleElement css ++ q =
    '<' :: ("style".toList ++ '>' :: (css ++ ("</".toList ++ ("style".toList ++ ([] ++ '>' :: q))))) := by
  have hopen : "<style>".toList = '<' :: ("style".toList ++ ['>']) := by decide
  have hclose : "</style>".toList = "</".toList ++ ("style".toList ++ ['>']) := by decide
  calc styleElement css ++ q
      = '<' :: ("style".toList ++ ['>']) ++ css ++ ("</".toList ++ ("style".toList ++ ['>'])) ++ q :=
        congrArg₂ (· ++ css ++ · ++ q) hopen hclose
    _ = _ := by
      generalize "style".toList = name
      generalize "</".toList = mark
      simp

theorem sheetLink_append (q : Text) :
    sheetLink ++ q = '<' :: ("link rel=\"stylesheet\" href=\"f.css\"".toList ++ '>' :: q) := by
  have hopen : sheetLink = '<' :: ("link rel=\"stylesheet\" href=\"f.css\"".toList ++ ['>']) := by decide
  calc sheetLink ++ q
      = '<' :: ("link rel=\"stylesheet\" href=\"f.css\"".toList ++ ['>']) ++ q := congrArg (· ++ q) hopen
    _ = _ := by
      generalize "link rel=\"stylesheet\" href=\"f.css\"".toList = inside
      simp

theorem holdsNoEndTag_style {css : Text} (h : ¬ "</style".toList <:+: Text.lower css) :
    HoldsNoEndTag "style".toList css := by
  rintro before name after rfl hs
  rw [Text.sameLetters_iff] at hs
  have hl : Text.lower (before ++ "</".toList ++ name ++ after) =
      Text.lower before ++ ("</".toList ++ Text.lower "style".toList) ++ Text.lower after := by
    rw [← hs]
    simp [Text.lower]
  rw [hl] at h
  exact absurd (List.infix_append _ _ _) h

/-- Names in lower case are kept as they are. -/
theorem Dialect.keep_of_lower {name : Text} (h : Text.lower name = name) (d : Dialect) : d.keep name = name := by
  unfold Dialect.keep
  split
  · rfl
  · exact h

theorem elementOf_style (h : d.isSelfClosing "style".toList = false) :
    Token.elementOf d "style".toList = ⟨"style".toList, [], false⟩ := by
  have hname : Tag.name "style".toList = "style".toList := by decide
  have hattributes : Tag.attributes "style".toList = [] := by
    have hname : ("style".toList ++ ['>']).dropWhile Tag.isNameChar = ['>'] := by decide
    rw [Tag.attributes, hname, Tag.readAttributes]
    rfl
  have hcloses : Tag.closesItself "style".toList = false := by decide
  have hvoid : d.isVoid "style".toList = false := by
    unfold Dialect.isVoid
    rw [h]
    decide
  unfold Token.elementOf
  rw [hname, hattributes, hcloses, Dialect.keep_of_lower (by decide), hvoid]
  rfl

/-- A link holds nothing in any dialect. -/
theorem Dialect.isVoid_link (d : Dialect) : d.isVoid "link".toList = true := by
  have hhtml : isAmong htmlVoidNames "link".toList = true := by decide
  unfold Dialect.isVoid
  rw [hhtml, Bool.true_or]

theorem elementOf_link (d : Dialect) : Token.elementOf d "link rel=\"stylesheet\" href=\"f.css\"".toList =
    ⟨"link".toList, [⟨"rel".toList, some "stylesheet".toList⟩, ⟨"href".toList, some "f.css".toList⟩], true⟩ := by
  have hname : Tag.name "link rel=\"stylesheet\" href=\"f.css\"".toList = "link".toList := by decide
  have hattributes : Tag.attributes "link rel=\"stylesheet\" href=\"f.css\"".toList =
      [⟨"rel".toList, some "stylesheet".toList⟩, ⟨"href".toList, some "f.css".toList⟩] := by decide +kernel
  unfold Token.elementOf
  rw [hname, hattributes, Dialect.keep_of_lower (by decide), d.isVoid_link, Bool.or_true]
  simp only [List.map_cons, List.map_nil]
  rw [Dialect.keep_of_lower (by decide), Dialect.keep_of_lower (by decide)]

theorem isStart_style : Tag.IsStart "style".toList := by
  unfold Tag.IsStart Tag.IsInside
  exact ⟨by decide, 's', "tyle".toList, by decide, by decide⟩

theorem isStart_link : Tag.IsStart "link rel=\"stylesheet\" href=\"f.css\"".toList := by
  unfold Tag.IsStart Tag.IsInside
  exact ⟨by decide, 'l', "ink rel=\"stylesheet\" href=\"f.css\"".toList, by decide, by decide⟩

/-! ## Where they are read -/

namespace Nesting

/-- No element stays open that holds raw text or nothing. -/
theorem WellFormed.mayStandIn {name : Text} (hw : n.WellFormed d)
    (h : holdsRawText name = true ∨ d.isVoid name = true) : MayStandIn d n.names name := by
  refine .of_forall_ne fun a ha => ?_
  obtain ⟨o, ho, rfl⟩ := List.mem_map.1 ha
  obtain ⟨he, hv, hr⟩ := hw.opened.of_mem o ho
  rw [Bool.eq_false_iff]
  intro hs
  rcases h with h | h
  · rw [← holdsRawText_congr hs, hr] at h
    cases h
  · rw [← Dialect.isVoid_congr hs] at h
    rw [he.isVoid h] at hv
    cases hv

theorem readOn_styleElement {css : Text} (hw : n.WellFormed d) (hself : d.isSelfClosing "style".toList = false)
    (hc : ¬ "</style".toList <:+: Text.lower css) (q : Text) :
    n.readOn d (styleElement css ++ q) = (n.add (styleTree css)).readOn d q := by
  have hname : Tag.name "style".toList = "style".toList := by decide
  have hr : Token.Reading d
      ('<' :: ("style".toList ++ '>' :: (css ++ ("</".toList ++ ("style".toList ++ ([] ++ '>' :: q))))))
      (.rawElement (Token.elementOf d "style".toList) css) q :=
    .rawElement isStart_style (by decide) (by rw [elementOf_style hself]) (by rw [hname]; exact holdsNoEndTag_style hc)
      (by decide) (by simp) List.not_mem_nil
  have hroom : n.makeRoom d "style".toList = n := makeRoom_of_mayStandIn (hw.mayStandIn (.inl (by decide)))
  rw [styleElement_append, readOn_of_reading hr, elementOf_style hself, Nesting.step, hroom]
  rfl

theorem readOn_sheetLink (hw : n.WellFormed d) (q : Text) :
    n.readOn d (sheetLink ++ q) = (n.add linkTree).readOn d q := by
  have hr : Token.Reading d ('<' :: ("link rel=\"stylesheet\" href=\"f.css\"".toList ++ '>' :: q))
      (.startTag (Token.elementOf d "link rel=\"stylesheet\" href=\"f.css\"".toList)) q :=
    .startTag isStart_link fun _ => by rw [elementOf_link]
  have hroom : n.makeRoom d "link".toList = n := makeRoom_of_mayStandIn (hw.mayStandIn (.inr d.isVoid_link))
  rw [sheetLink_append, readOn_of_reading hr, elementOf_link, Nesting.step, if_pos rfl, hroom]
  rfl

end Nesting

theorem parse_sheetLink (d : Dialect) : Forest.parse d sheetLink = .ok [linkTree] := by
  have hread := Nesting.readOn_sheetLink (Nesting.wellFormed_empty d) []
  rw [List.append_nil, Nesting.readOn_nil] at hread
  exact Forest.parse_eq_ok_iff.2 hread

/-! ## What they give -/

theorem of?_styleTree (css : Text) :
    Source.of? s dir ⟨"style".toList, [], false⟩ (Nesting.rawContent css) = some (.embedded css) := by
  have hown : (Nesting.rawContent css).ownText = css := by
    unfold Nesting.rawContent
    split
    · next h => rw [h]; rfl
    · exact List.append_nil css
  rw [Source.of?, hown, Source.ofElement?, if_pos (by decide)]

theorem ofHref_sheetLink {urls : UrlReading} (hrelative : urls.parse "f.css".toList = .error .relativeWithoutBase)
    (dir : Option Path) : Location.ofHref urls none dir "f.css".toList =
      .ok (.file (Path.join (dir.getD []) (Text.bytes "f.css".toList))) := by
  have htrim : Text.trim "f.css".toList = "f.css".toList := by decide
  unfold Location.ofHref
  dsimp only
  rw [htrim, hrelative]
  dsimp only
  unfold Location.ofRelative
  dsimp only
  rw [if_neg (by decide)]

theorem Element.attributeIn?_of_head {a : Attribute} {name key : Text} {more : List Attribute} {void : Bool}
    (h : d.sameName a.name key = true) : Element.attributeIn? d ⟨name, a :: more, void⟩ key = some a.text := by
  unfold Element.attributeIn? Element.find?
  simp only [List.find?_cons_of_pos, h, Option.map_some]

theorem Element.attributeIn?_of_tail {a : Attribute} {name key : Text} {more : List Attribute} {void : Bool}
    (h : d.sameName a.name key = false) :
    Element.attributeIn? d ⟨name, a :: more, void⟩ key = Element.attributeIn? d ⟨name, more, void⟩ key := by
  unfold Element.attributeIn? Element.find?
  simp only [List.find?_cons, h]

theorem isStylesheetLink_sheetLink (d : Dialect) : isStylesheetLink d
    ⟨"link".toList, [⟨"rel".toList, some "stylesheet".toList⟩, ⟨"href".toList, some "f.css".toList⟩], true⟩ = true := by
  unfold isStylesheetLink
  rw [Element.attributeIn?_of_head (Dialect.sameName_self d _)]
  decide

/-- The attribute `rel` is not taken for `href`, whether the case of letters counts or not. -/
theorem href_sheetLink (d : Dialect) : Element.attributeIn? d
    ⟨"link".toList, [⟨"rel".toList, some "stylesheet".toList⟩, ⟨"href".toList, some "f.css".toList⟩], true⟩
    "href".toList = some "f.css".toList := by
  have hrel : d.sameName "rel".toList "href".toList = false := d.sameName_of_not_sameLetters (by decide)
  rw [Element.attributeIn?_of_tail hrel, Element.attributeIn?_of_head (Dialect.sameName_self d _)]
  rfl

theorem of?_linkTree (hrelative : s.urls.parse "f.css".toList = .error .relativeWithoutBase)
    (hbase : s.baseUrl = none) : Source.of? s dir
    ⟨"link".toList, [⟨"rel".toList, some "stylesheet".toList⟩, ⟨"href".toList, some "f.css".toList⟩], true⟩ [] =
      some (.linked (.file (Path.join (dir.getD []) (Text.bytes "f.css".toList)))) := by
  unfold Source.of? Source.ofElement?
  rw [if_neg (by decide), if_pos (by rw [isStylesheetLink_sheetLink]; decide), href_sheetLink]
  dsimp only
  rw [hbase, ofHref_sheetLink hrelative]

theorem interchangeable_style_link {css : Text}
    (hrelative : s.urls.parse "f.css".toList = .error .relativeWithoutBase) (hbase : s.baseUrl = none)
    (hread : read (.file (Path.join (dir.getD []) (Text.bytes "f.css".toList))) = .ok css) :
    Forest.Interchangeable s dir read [styleTree css] [linkTree] := by
  unfold styleTree linkTree
  constructor
  · rfl
  all_goals
    simp only [Forest.sources, Tree.sources, Forest.withoutSheets, Tree.withoutSheets, List.append_nil, of?_styleTree,
      of?_linkTree hrelative hbase]
  · simp only [List.findSome?_cons, List.findSome?_nil, Source.failure?, hread]
  · simp only [List.filterMap_cons, List.filterMap_nil, Source.sheet?, hread, Except.toOption, Option.map_some]
  · simp only [Source.sheet?, Source.remains, hread, Except.toOption, Option.map_some]

/-! ## The same text comes out -/

/-- A sheet in a style element and the same sheet in a file that a link names are interchangeable, whatever stands
before and after them. -/
theorem inline_styleElement_or_link {p css q : Text} {f : Forest} (hself : s.dialect.isSelfClosing "style".toList = false)
    (hbase : s.baseUrl = none) (hrelative : s.urls.parse "f.css".toList = .error .relativeWithoutBase)
    (hp : Forest.parse s.dialect p = .ok f) (hc : ¬ "</style".toList <:+: Text.lower css)
    (hread : read (.file (Path.join (dir.getD []) (Text.bytes "f.css".toList))) = .ok css) :
    SameOutcome (inline s dir read (p ++ styleElement css ++ q)) (inline s dir read (p ++ sheetLink ++ q)) := by
  have hfault := Forest.fault?_of_parse hp
  have hw := Nesting.wellFormed_of_readAll hfault
  obtain ⟨n, hn⟩ : ∃ n, Nesting.empty.steps s.dialect (Token.readAll s.dialect p).tokens = n := ⟨_, rfl⟩
  rw [hn] at hw
  -- both are read on from what the text before them leaves open
  have hstyle : Nesting.empty.readOn s.dialect (p ++ styleElement css ++ q) =
      (n.add (styleTree css)).readOn s.dialect q := by
    have hq : (styleElement css ++ q).Breaks := by
      rw [styleElement_append]
      exact .cons _
    rw [List.append_assoc, Nesting.readOn_append hfault hq, hn, Nesting.readOn_styleElement hw hself hc]
  have hlink : Nesting.empty.readOn s.dialect (p ++ sheetLink ++ q) = (n.add linkTree).readOn s.dialect q := by
    have hq : (sheetLink ++ q).Breaks := by
      rw [sheetLink_append]
      exact .cons _
    rw [List.append_assoc, Nesting.readOn_append hfault hq, hn, Nesting.readOn_sheetLink hw]
  rcases Nesting.readOn_swapped (d := s.dialect) (a := styleTree css) (b := linkTree) rfl rfl n q with
    ⟨f, g, hf, hg, hfg⟩ | ⟨e, hf, hg⟩
  · exact sameOutcome_inline (Forest.parse_eq_ok_iff.2 (hstyle.trans hf)) (Forest.parse_eq_ok_iff.2 (hlink.trans hg))
      (.of_swapped (interchangeable_style_link hrelative hbase hread) hfg)
  · obtain ⟨e₁, h₁⟩ := Forest.exists_parse_error (hstyle.trans hf)
    obtain ⟨e₂, h₂⟩ := Forest.exists_parse_error (hlink.trans hg)
    exact sameOutcome_inline_of_error h₁ h₂

/-- The one sheet `f.css` in the directory `mail`. -/
def oneSheet (css : Text) : Reader := fun location =>
  match location with
  | .file path => if path = Text.bytes "mail/f.css".toList then .ok css else .error (.file path .notFound)
  | .remote url => .error (.fetch url)

theorem parse_openParagraph : Forest.parse Dialect.jelly "<p>".toList = .ok [.element ⟨"p".toList, [], false⟩ []] :=
  Forest.parse_of_readAll (by decide +kernel)
    (show _ = [.startTag ⟨"p".toList, [], false⟩] by decide +kernel)

/-- A sheet with a rule, and with another one for print only. -/
def redSheet : Text := "b\x7bcolor:red\x7d@media print\x7bb\x7bmargin:0\x7d\x7d".toList

/-- What is read of it. -/
def redRules : Css.Stylesheet :=
  ⟨[⟨[⟨⟨some "b".toList, []⟩, [], "b".toList⟩], [⟨"color".toList, "red".toList⟩]⟩],
    ["@media print\x7bb\x7bmargin:0\x7d\x7d".toList]⟩

theorem parse_redSheet : Css.Stylesheet.parse redSheet = redRules := by decide +kernel

theorem parse_redParagraph : Forest.parse Dialect.jelly ("<p>".toList ++ styleElement redSheet ++ "<b>a</b>".toList) =
    .ok [.element ⟨"p".toList, [], false⟩
      [styleTree redSheet, .element ⟨"b".toList, [], false⟩ [.leaf (.text "a".toList)]]] :=
  Forest.parse_of_readAll (by decide +kernel)
    (show _ = [.startTag ⟨"p".toList, [], false⟩, .rawElement ⟨"style".toList, [], false⟩ redSheet,
      .startTag ⟨"b".toList, [], false⟩, .leaf (.text "a".toList), .endTag "b".toList] by decide +kernel)

theorem style_redParagraph (raw : Text) : (style .jelly redRules [.element ⟨"p".toList, [], false⟩
      [.element ⟨"style".toList, [], false⟩ [.leaf (.raw raw)],
        .element ⟨"b".toList, [], false⟩ [.leaf (.text "a".toList)]]]).trees =
    [.element ⟨"p".toList, [], false⟩ [.element ⟨"style".toList, [], false⟩ [.leaf (.raw raw)],
      .element ⟨"b".toList, [⟨"style".toList, some "color: red".toList⟩], false⟩ [.leaf (.text "a".toList)]]] := by
  have hp : styledElement? .jelly redRules ⟨⟨⟨"p".toList, [], false⟩, [], true⟩, []⟩ = none := by decide
  have hstyle : styledElement? .jelly redRules
      ⟨⟨⟨"style".toList, [], false⟩, [], false⟩, [⟨⟨"p".toList, [], false⟩, [], true⟩]⟩ = none := by decide
  have hb : styledElement? .jelly redRules
      ⟨⟨⟨"b".toList, [], false⟩, [⟨"style".toList, [], false⟩], true⟩, [⟨⟨"p".toList, [], false⟩, [], true⟩]⟩ =
        some ⟨"b".toList, [⟨"style".toList, some "color: red".toList⟩], false⟩ := by decide
  simp only [style, styleForest, List.any_cons, List.any_nil, Tree.isElement, Bool.or_false, Bool.not_true,
    Bool.not_false, hp, hstyle, hb, Option.getD]

/-- What comes of a paragraph that a sheet colours. -/
def redParagraph : Text :=
  "<p>\n <style>\n@media print\x7bb\x7bmargin:0\x7d\x7d\n </style>\n <b style=\"color: red\">\n  a\n </b>\n</p>\n".toList

theorem inline_redParagraph (read : Reader) :
    inline .jelly (some (Text.bytes "mail".toList)) read
      ("<p>".toList ++ styleElement redSheet ++ "<b>a</b>".toList) = .ok redParagraph := by
  have htaken : Forest.taken .jelly (some (Text.bytes "mail".toList)) read [.element ⟨"p".toList, [], false⟩
      [styleTree redSheet, .element ⟨"b".toList, [], false⟩ [.leaf (.text "a".toList)]]] =
        .ok ([.element ⟨"p".toList, [], false⟩ [.element ⟨"style".toList, [], false⟩
            [.leaf (.raw "\n@media print\x7bb\x7bmargin:0\x7d\x7d\n".toList)],
          .element ⟨"b".toList, [], false⟩ [.leaf (.text "a".toList)]]], [redRules]) := by
    rw [Forest.taken_of_stays read (.inl (by decide)), Forest.taken_cons, styleTree,
      Forest.taken_embedded read (of?_styleTree redSheet), Forest.taken_of_stays read (.inl (by decide)), parse_redSheet]
    rfl
  have hsheet : Css.Stylesheet.concat [redRules] = redRules := rfl
  rw [inline_eq_of_parse parse_redParagraph, htaken]
  dsimp only [Except.map]
  rw [hsheet]
  refine congrArg Except.ok ((congrArg (Forest.print true) (style_redParagraph _)).trans ?_)
  rfl

theorem inline_styleElement_or_link_paragraph :
    inline .jelly (some (Text.bytes "mail".toList)) (oneSheet redSheet)
        ("<p>".toList ++ styleElement redSheet ++ "<b>a</b>".toList) = .ok redParagraph ∧
      inline .jelly (some (Text.bytes "mail".toList)) (oneSheet redSheet)
        ("<p>".toList ++ sheetLink ++ "<b>a</b>".toList) = .ok redParagraph := by
  have hstyle := inline_redParagraph (oneSheet redSheet)
  have hsame : SameOutcome
      (inline .jelly (some (Text.bytes "mail".toList)) (oneSheet redSheet)
        ("<p>".toList ++ styleElement redSheet ++ "<b>a</b>".toList))
      (inline .jelly (some (Text.bytes "mail".toList)) (oneSheet redSheet)
        ("<p>".toList ++ sheetLink ++ "<b>a</b>".toList)) :=
    inline_styleElement_or_link (by decide) rfl (by decide) parse_openParagraph (by decide) rfl
  rcases hsame with ⟨t, ht, hlink⟩ | ⟨failure, _, he, _⟩
  · rw [hstyle] at ht
    exact ⟨hstyle, hlink.trans ht.symm⟩
  · rw [hstyle] at he
    cases he

end MailTemplate
