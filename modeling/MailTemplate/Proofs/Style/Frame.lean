import MailTemplate.Proofs.Markup.Kept
import MailTemplate.Proofs.Markup.Reading
import MailTemplate.Proofs.Style.Rules
import MailTemplate.Style.Inline
/-!
# What inlining leaves alone

Inlining takes out the sources of style (`TakenOut`) and writes attributes `style` where a rule says so (`Restyled`);
nothing else is lost, moved or changed (`inline_frame`).
-/
namespace MailTemplate

variable {s : Settings} {dir : Option Path} {read : Reader}

/-! ## Taking sheets out -/

/-- Whether an element is a style element. -/
def Element.IsStyle (e : Element) : Prop := Text.sameLetters e.name "style".toList = true

/-- Whether an element is a link to a sheet at a location. -/
def Element.LinksTo (s : Settings) (dir : Option Path) (e : Element) (location : Location) : Prop :=
  Text.sameLetters e.name "link".toList = true ∧ isStylesheetLink s.dialect e = true ∧
    ∃ href, e.attributeIn? s.dialect "href".toList = some href ∧ Location.ofHref s.urls s.baseUrl dir href = .ok location

/-- The sheet of an element that is consumed, and the element that is to hold its at-rules. -/
inductive Consumed (s : Settings) (dir : Option Path) (read : Reader) (e : Element) (content : Forest) :
    Css.Stylesheet → Element → Prop
  | style : e.IsStyle → Consumed s dir read e content (.parse content.ownText) e
  | link {location : Location} {css : Text} : ¬ e.IsStyle → e.LinksTo s dir location → read location = .ok css →
      Consumed s dir read e content (.parse css) ⟨"style".toList, [], false⟩

/-- Lines one after the other, after a line break. -/
def onLines (lines : List Text) : Text := '\n' :: lines.flatMap (· ++ ['\n'])

/-- Trees with the consumed sheets taken out: sheets without at-rules are gone with their elements, and the others have
left their at-rules behind. -/
inductive TakenOut (s : Settings) (dir : Option Path) (read : Reader) : Forest → List Css.Stylesheet → Forest → Prop
  | nil : TakenOut s dir read [] [] []
  | leaf {f g : Forest} {sheets : List Css.Stylesheet} (l : Leaf) : TakenOut s dir read f sheets g →
      TakenOut s dir read (.leaf l :: f) sheets (.leaf l :: g)
  | gone {f g content : Forest} {e holder : Element} {sheet : Css.Stylesheet} {sheets : List Css.Stylesheet} :
      Consumed s dir read e content sheet holder → sheet.atRules = [] → TakenOut s dir read f sheets g →
      TakenOut s dir read (.element e content :: f) (sheet :: sheets) g
  | left {f g content : Forest} {e holder : Element} {sheet : Css.Stylesheet} {sheets : List Css.Stylesheet} :
      Consumed s dir read e content sheet holder → sheet.atRules ≠ [] → TakenOut s dir read f sheets g →
      TakenOut s dir read (.element e content :: f) (sheet :: sheets)
        (.element holder [.leaf (.raw (onLines sheet.atRules))] :: g)
  | stays {f g content content' : Forest} {e : Element} {inside sheets : List Css.Stylesheet} :
      ¬ e.IsStyle → (∀ location, ¬ e.LinksTo s dir location) → TakenOut s dir read content inside content' →
      TakenOut s dir read f sheets g →
      TakenOut s dir read (.element e content :: f) (inside ++ sheets) (.element e content' :: g)

/-- An element is a style element, a link to some place, or neither. -/
theorem Source.of?_cases (s : Settings) (dir : Option Path) (e : Element) (content : Forest) :
    (e.IsStyle ∧ Source.of? s dir e content = some (.embedded content.ownText)) ∨
    (¬ e.IsStyle ∧ ∃ location, e.LinksTo s dir location ∧ Source.of? s dir e content = some (.linked location)) ∨
    (¬ e.IsStyle ∧ (∀ location, ¬ e.LinksTo s dir location) ∧
      (Source.of? s dir e content = none ∨ ∃ problem, Source.of? s dir e content = some (.left problem))) := by
  unfold Source.of? Source.ofElement?
  by_cases hs : Text.sameLetters e.name "style".toList = true
  · rw [if_pos hs]
    exact .inl ⟨hs, rfl⟩
  · rw [if_neg hs]
    by_cases hl : (Text.sameLetters e.name "link".toList && isStylesheetLink s.dialect e) = true
    · rw [if_pos hl]
      rw [Bool.and_eq_true] at hl
      cases hh : e.attributeIn? s.dialect "href".toList with
      | none =>
        refine .inr (.inr ⟨hs, ?_, .inl rfl⟩)
        rintro location ⟨-, -, href, hhref, -⟩
        rw [hh] at hhref
        cases hhref
      | some href =>
        cases ho : Location.ofHref s.urls s.baseUrl dir href with
        | ok location =>
          refine .inr (.inl ⟨hs, location, ⟨hl.1, hl.2, href, hh, ho⟩, ?_⟩)
          simp only [ho]
        | error problem =>
          refine .inr (.inr ⟨hs, ?_, .inr ⟨problem, ?_⟩⟩)
          · rintro location ⟨-, -, href', hhref, hloc⟩
            rw [hh] at hhref
            obtain rfl := Option.some.inj hhref
            rw [ho] at hloc
            cases hloc
          · simp only [ho]
    · rw [if_neg hl]
      refine .inr (.inr ⟨hs, ?_, .inl rfl⟩)
      rintro location ⟨hn, hsheet, -⟩
      exact hl (by rw [hn, hsheet]; rfl)

theorem onLines_eq {lines : List Text} (h : lines ≠ []) :
    ['\n'] ++ Text.join ['\n'] lines ++ ['\n'] = onLines lines := by
  have hjoin : Text.join ['\n'] lines ++ ['\n'] = lines.flatMap (· ++ ['\n']) := by
    induction lines with
    | nil => exact absurd rfl h
    | cons t lines ih =>
      cases lines with
      | nil => simp [Text.join]
      | cons u lines =>
        rw [List.flatMap_cons, ← ih (List.cons_ne_nil u lines)]
        simp [Text.join]
  rw [List.append_assoc, hjoin]
  rfl

theorem onLines_cons (line : Text) (lines : List Text) : onLines (line :: lines) = '\n' :: (line ++ onLines lines) := by
  simp [onLines]

/-- A consumed element leaves at most its at-rules. -/
theorem TakenOut.consumed {f g content : Forest} {e holder : Element} {sheet : Css.Stylesheet}
    {sheets : List Css.Stylesheet} (hc : Consumed s dir read e content sheet holder) (h : TakenOut s dir read f sheets g) :
    TakenOut s dir read (.element e content :: f) (sheet :: sheets) (keepAtRules holder sheet ++ g) := by
  unfold keepAtRules
  split
  · next hr => exact .gone hc hr h
  · next hr =>
    rw [onLines_eq hr]
    exact .left hc hr h

theorem takenOut_withoutSheets {f : Forest}
    (h : (Forest.sources (Source.of? s dir) f).findSome? (·.failure? read) = none) :
    TakenOut s dir read f ((Forest.sources (Source.of? s dir) f).filterMap (·.sheet? read))
      (Forest.withoutSheets (Source.of? s dir) (·.sheet? read) f) := by
  induction f using Forest.induct with
  | nil => exact .nil
  | leaf l more ih => exact .leaf l (ih h)
  | element e content more ihc ihm =>
    rw [Forest.sources, List.findSome?_append, Option.or_eq_none_iff, Tree.sources] at h
    obtain ⟨he, hmore⟩ := h
    rw [Forest.sources, List.filterMap_append, Forest.withoutSheets, Tree.sources, Tree.withoutSheets]
    rcases Source.of?_cases s dir e content with ⟨hs, ho⟩ | ⟨hs, location, hl, ho⟩ | ⟨hs, hl, ho⟩
    · rw [ho]
      exact .consumed (.style hs) (ihm hmore)
    · rw [ho] at he ⊢
      cases hr : read location with
      | error failure => simp [Source.failure?, hr] at he
      | ok css =>
        have hsheet : Source.sheet? read (.linked location) = some (.parse css) := by
          rw [Source.sheet?, hr]
          rfl
        simp only [List.filterMap_cons, List.filterMap_nil, hsheet]
        exact .consumed (.link hs hl hr) (ihm hmore)
    · rcases ho with ho | ⟨problem, ho⟩
      · rw [ho] at he ⊢
        exact .stays hs hl (ihc he) (ihm hmore)
      · rw [ho] at he ⊢
        exact .stays hs hl (ihc he) (ihm hmore)

/-- Without a source nothing is taken out. -/
theorem Forest.sources_and_withoutSheets_of_none {of? : Element → Forest → Option Source}
    {sheet? : Source → Option Css.Stylesheet} {f : Forest} (h : ∀ e ∈ Forest.elements f, ∀ content, of? e content = none) :
    Forest.sources of? f = [] ∧ Forest.withoutSheets of? sheet? f = f := by
  induction f using Forest.induct with
  | nil => exact ⟨rfl, rfl⟩
  | leaf l ts ih =>
    obtain ⟨hs, hw⟩ := ih h
    refine ⟨hs, ?_⟩
    rw [Forest.withoutSheets, Tree.withoutSheets, hw]
    rfl
  | element e content ts ihc iht =>
    have he : of? e content = none := h e (by simp [Forest.elements, Tree.elements]) content
    obtain ⟨hsc, hwc⟩ := ihc fun e' he' => h e' (by simp [Forest.elements, Tree.elements, he'])
    obtain ⟨hst, hwt⟩ := iht fun e' he' => h e' (by simp [Forest.elements, Tree.elements, he'])
    constructor
    · rw [Forest.sources, Tree.sources, he, hst, List.append_nil]
      exact hsc
    · rw [Forest.withoutSheets, Tree.withoutSheets, he, hwt, hwc]
      rfl

/-! ## Writing attributes -/

/-- Attributes of which the first called `style` has got a value, or to which one has been added at the end. -/
inductive StyleWritten (d : Dialect) : List Attribute → List Attribute → Prop
  | set {before after : List Attribute} {a : Attribute} (value : Text) :
      (∀ b ∈ before, d.sameName b.name "style".toList = false) → d.sameName a.name "style".toList = true →
      StyleWritten d (before ++ a :: after) (before ++ ⟨a.name, some value⟩ :: after)
  | added {as : List Attribute} (value : Text) : (∀ a ∈ as, d.sameName a.name "style".toList = false) →
      StyleWritten d as (as ++ [⟨"style".toList, some value⟩])

/-- Whether a rule with declarations selects the element at a place. -/
def IsStyledBy (d : Dialect) (sheets : List Css.Stylesheet) (p : Place) : Prop :=
  ∃ sheet ∈ sheets, ∃ r ∈ sheet.rules, r.declarations ≠ [] ∧ ∃ selector ∈ r.selectors, selector.selects d p = true

/-- Trees below `above`, after the elements `before`, with attributes `style` written where a rule says so. -/
inductive Restyled (d : Dialect) (sheets : List Css.Stylesheet) : List Level → List Element → Forest → Forest → Prop
  | nil {above : List Level} {before : List Element} : Restyled d sheets above before [] []
  | leaf {above : List Level} {before : List Element} {f g : Forest} (l : Leaf) : Restyled d sheets above before f g →
      Restyled d sheets above before (.leaf l :: f) (.leaf l :: g)
  | same {above : List Level} {before : List Element} {f g content content' : Forest} {e : Element} {isLast : Bool} :
      (!f.any Tree.isElement) = isLast → ¬ IsStyledBy d sheets ⟨⟨e, before, isLast⟩, above⟩ →
      Restyled d sheets (⟨e, before, isLast⟩ :: above) [] content content' →
      Restyled d sheets above (e :: before) f g →
      Restyled d sheets above before (.element e content :: f) (.element e content' :: g)
  | written {above : List Level} {before : List Element} {f g content content' : Forest} {e e' : Element}
      {isLast : Bool} : (!f.any Tree.isElement) = isLast → IsStyledBy d sheets ⟨⟨e, before, isLast⟩, above⟩ →
      e'.name = e.name → e'.isVoid = e.isVoid → StyleWritten d e.attributes e'.attributes →
      Restyled d sheets (⟨e', before, isLast⟩ :: above) [] content content' →
      Restyled d sheets above (e' :: before) f g →
      Restyled d sheets above before (.element e content :: f) (.element e' content' :: g)

variable {d : Dialect}

theorem StyleWritten.head {a : Attribute} (h : d.sameName a.name "style".toList = true) (value : Text)
    (as : List Attribute) : StyleWritten d (a :: as) (⟨a.name, some value⟩ :: as) := by
  have hs : StyleWritten d ([] ++ a :: as) ([] ++ ⟨a.name, some value⟩ :: as) := .set value (by simp) h
  exact hs

theorem StyleWritten.cons {a : Attribute} {as as' : List Attribute} (ha : d.sameName a.name "style".toList = false)
    (h : StyleWritten d as as') : StyleWritten d (a :: as) (a :: as') := by
  cases h with
  | set value hb hs =>
    rw [← List.cons_append, ← List.cons_append]
    refine .set value ?_ hs
    rintro b (_ | ⟨_, hmem⟩)
    · exact ha
    · exact hb b hmem
  | added value hall =>
    rw [← List.cons_append]
    refine .added value ?_
    rintro b (_ | ⟨_, hmem⟩)
    · exact ha
    · exact hall b hmem

theorem styleWritten_assign (d : Dialect) (value : Text) (as : List Attribute) :
    StyleWritten d as (Element.assign (d.sameName · "style".toList) "style".toList value as) := by
  induction as with
  | nil => exact .added value (by simp)
  | cons a as ih =>
    rw [Element.assign]
    split
    · next ha => exact .head ha value as
    · next ha => exact .cons (Bool.eq_false_iff.2 ha) ih

theorem concat_eq (sheets : List Css.Stylesheet) : Css.Stylesheet.concat sheets =
    ⟨sheets.flatMap Css.Stylesheet.rules, sheets.flatMap Css.Stylesheet.atRules⟩ := by
  have hfold : ∀ a : Css.Stylesheet, sheets.foldl Css.Stylesheet.append a =
      ⟨a.rules ++ sheets.flatMap Css.Stylesheet.rules, a.atRules ++ sheets.flatMap Css.Stylesheet.atRules⟩ := by
    induction sheets with
    | nil => simp
    | cons sheet sheets ih =>
      intro a
      rw [List.foldl_cons, ih, List.flatMap_cons, List.flatMap_cons, ← List.append_assoc, ← List.append_assoc]
      rfl
  exact hfold .empty

theorem rules_concat (sheets : List Css.Stylesheet) :
    (Css.Stylesheet.concat sheets).rules = sheets.flatMap Css.Stylesheet.rules := by rw [concat_eq]

theorem atRules_concat (sheets : List Css.Stylesheet) :
    (Css.Stylesheet.concat sheets).atRules = sheets.flatMap Css.Stylesheet.atRules := by rw [concat_eq]

theorem isStyledBy_iff {sheets : List Css.Stylesheet} {p : Place} :
    IsStyledBy d sheets p ↔ (rulesFor d (.concat sheets) p).flatMap Css.Rule.declarations ≠ [] := by
  have hmem : ∀ r, r ∈ rulesFor d (.concat sheets) p ↔ ∃ sheet ∈ sheets, r ∈ sheet.rules ∧
      ∃ selector ∈ r.selectors, selector.selects d p = true := by
    intro r
    rw [rulesFor, rules_concat, List.mem_filter, List.mem_flatMap, List.any_eq_true]
    constructor
    · rintro ⟨⟨sheet, hs, hr⟩, hsel⟩
      exact ⟨sheet, hs, hr, hsel⟩
    · rintro ⟨sheet, hs, hr, hsel⟩
      exact ⟨⟨sheet, hs, hr⟩, hsel⟩
  rw [ne_eq, List.flatMap_eq_nil_iff]
  push Not
  constructor
  · rintro ⟨sheet, hs, r, hr, hd, hsel⟩
    exact ⟨r, (hmem r).2 ⟨sheet, hs, hr, hsel⟩, hd⟩
  · rintro ⟨r, hr, hd⟩
    obtain ⟨sheet, hs, hr, hsel⟩ := (hmem r).1 hr
    exact ⟨sheet, hs, r, hr, hd, hsel⟩

theorem restyled_styleForest (d : Dialect) (sheets : List Css.Stylesheet) (above : List Level) (before : List Element)
    (f : Forest) : Restyled d sheets above before f (styleForest d (.concat sheets) above before f).trees := by
  induction f using Forest.induct generalizing above before with
  | nil =>
    rw [trees_styleForest_nil]
    exact .nil
  | leaf l more ih =>
    rw [trees_styleForest_leaf]
    exact .leaf l (ih above before)
  | element e content more ihc ihm =>
    obtain ⟨isLast, hl⟩ : ∃ isLast, (!more.any Tree.isElement) = isLast := ⟨_, rfl⟩
    by_cases hr : (rulesFor d (.concat sheets) ⟨⟨e, before, isLast⟩, above⟩).flatMap Css.Rule.declarations = []
    · rw [trees_styleForest_element d _ above before e content more hl (Element.withRules_of_nil hr)]
      exact .same hl (fun h => isStyledBy_iff.1 h hr) (ihc _ _) (ihm _ _)
    · obtain ⟨value, he⟩ := Element.exists_withRules_eq (d := d) (e := e) hr
      rw [trees_styleForest_element d _ above before e content more hl he]
      exact .written hl (isStyledBy_iff.2 hr) rfl rfl (styleWritten_assign d value e.attributes) (ihc _ _) (ihm _ _)

/-! ## A whole template -/

theorem inline_of_parse {src : Text} {f : Forest} (hp : Forest.parse s.dialect src = .ok f)
    (hr : (Forest.sources (Source.of? s dir) f).findSome? (·.failure? read) = none) :
    inline s dir read src = .ok ((f.inlined s dir read).trees.print s.pretty) := by
  unfold inline
  rw [hp]
  dsimp only
  rw [hr]

/-- A template without style elements and links is written as it was read. -/
theorem inline_of_no_sources {src : Text} {f : Forest} (hp : Forest.parse s.dialect src = .ok f)
    (h : ∀ e ∈ Forest.elements f, Text.sameLetters e.name "style".toList = false ∧
      Text.sameLetters e.name "link".toList = false) : inline s dir read src = .ok (f.print s.pretty) := by
  have hof : ∀ e ∈ Forest.elements f, ∀ content, Source.of? s dir e content = none := by
    intro e he content
    obtain ⟨hstyle, hlink⟩ := h e he
    unfold Source.of? Source.ofElement?
    rw [hstyle, hlink]
    rfl
  obtain ⟨hsources, hkept⟩ : Forest.sources (Source.of? s dir) f = [] ∧
      Forest.withoutSheets (Source.of? s dir) (·.sheet? read) f = f := Forest.sources_and_withoutSheets_of_none hof
  have hsheet : f.sheet s dir read = .empty := by
    rw [Forest.sheet, hsources]
    rfl
  have htrees : (f.inlined s dir read).trees = f := by
    rw [Forest.inlined, hkept, hsheet]
    exact trees_styleForest_of_no_rules rfl [] [] f
  rw [inline_of_parse hp (by rw [hsources]; rfl), htrees]

theorem exists_of_inline {src out : Text} (h : inline s dir read src = .ok out) :
    ∃ f, Forest.parse s.dialect src = .ok f ∧
      (Forest.sources (Source.of? s dir) f).findSome? (·.failure? read) = none ∧
      out = (f.inlined s dir read).trees.print s.pretty := by
  unfold inline at h
  split at h
  · cases h
  · next f hp =>
    split at h
    · cases h
    · next hr => exact ⟨f, hp, hr, (Except.ok.inj h).symm⟩

/-- What is written in the end is the template with its sheets taken out, and with attributes `style` written. -/
theorem inline_frame {src out : Text} (h : inline s dir read src = .ok out) :
    ∃ f sheets kept, Forest.parse s.dialect src = .ok f ∧ TakenOut s dir read f sheets kept ∧
      Restyled s.dialect sheets [] [] kept (f.inlined s dir read).trees ∧
      out = (f.inlined s dir read).trees.print s.pretty := by
  obtain ⟨f, hp, hr, hout⟩ := exists_of_inline h
  exact ⟨f, _, _, hp, takenOut_withoutSheets hr, restyled_styleForest _ _ _ _ _, hout⟩

/-- A bold word after a sheet with a rule for it and an at-rule. -/
def boldAfterSheet : Text := "<style>b\x7bcolor:red\x7d@media print\x7bb\x7bmargin:0\x7d\x7d</style><b>a</b>".toList

theorem parse_boldAfterSheet : Forest.parse Dialect.jelly boldAfterSheet = .ok
    [.element ⟨"style".toList, [], false⟩ [.leaf (.raw "b\x7bcolor:red\x7d@media print\x7bb\x7bmargin:0\x7d\x7d".toList)],
      .element ⟨"b".toList, [], false⟩ [.leaf (.text "a".toList)]] :=
  Forest.parse_of_readAll (by decide +kernel)
    (show _ = [.rawElement ⟨"style".toList, [], false⟩ "b\x7bcolor:red\x7d@media print\x7bb\x7bmargin:0\x7d\x7d".toList,
      .startTag ⟨"b".toList, [], false⟩, .leaf (.text "a".toList), .endTag "b".toList] by decide +kernel)

theorem inline_frame_bold :
    ∃ out, inline .jelly none (fun _ => .ok []) boldAfterSheet = .ok out ∧
      ∃ f sheets kept, Forest.parse Dialect.jelly boldAfterSheet = .ok f ∧
        TakenOut .jelly none (fun _ => .ok []) f sheets kept ∧
        Restyled .jelly sheets [] [] kept (f.inlined .jelly none fun _ => .ok []).trees ∧
        out = (f.inlined .jelly none fun _ => .ok []).trees.print true := by
  have hinline : inline .jelly none (fun _ => .ok []) boldAfterSheet = .ok _ := inline_of_parse parse_boldAfterSheet rfl
  exact ⟨_, hinline, inline_frame hinline⟩

end MailTemplate
