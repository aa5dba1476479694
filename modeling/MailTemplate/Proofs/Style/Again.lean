import MailTemplate.Proofs.Markup.Joining
import MailTemplate.Proofs.Style.AtOnce
import MailTemplate.Proofs.Style.AtRules
import MailTemplate.Proofs.Style.Holding
/-!
# Inlining again

Once a template has been inlined there is nothing left to inline (`Forest.Spent`): its style elements hold at-rules
alone, and its links name no sheet. So what has been written is written again as it is (`inline_inline`), if it is also
read back as it is.
-/
namespace MailTemplate

variable {s : Settings} {dir : Option Path} {read : Reader} {d : Dialect} {f g : Forest}

/-- Trees of which all sheets have been taken out. -/
inductive Forest.Spent (s : Settings) (dir : Option Path) : Forest → Prop
  | nil : Forest.Spent s dir []
  | leaf {f : Forest} (l : Leaf) : Forest.Spent s dir f → Forest.Spent s dir (.leaf l :: f)
  | style {f : Forest} {e : Element} {rules : List Text} : e.IsStyle → rules ≠ [] →
      Css.Stylesheet.parse (onLines rules) = ⟨[], rules⟩ → Forest.Spent s dir f →
      Forest.Spent s dir (.element e [.leaf (.raw (onLines rules))] :: f)
  | element {f content : Forest} {e : Element} : ¬ e.IsStyle → (∀ location, ¬ e.LinksTo s dir location) →
      Forest.Spent s dir content → Forest.Spent s dir f → Forest.Spent s dir (.element e content :: f)

/-! ## Nothing is left to inline -/

theorem Source.of?_of_isStyle {e : Element} (h : e.IsStyle) (content : Forest) :
    Source.of? s dir e content = some (.embedded content.ownText) := if_pos h

theorem Forest.ownText_raw (t : Text) : Forest.ownText [.leaf (.raw t)] = t := List.append_nil t

/-- Spent trees have no sheet that cannot be read and no rule, and nothing is taken out of them. -/
theorem Forest.Spent.withoutSheets (h : Forest.Spent s dir f) (read : Reader) :
    (Forest.sources (Source.of? s dir) f).findSome? (·.failure? read) = none ∧
    (∀ sheet ∈ (Forest.sources (Source.of? s dir) f).filterMap (·.sheet? read), sheet.rules = []) ∧
    Forest.withoutSheets (Source.of? s dir) (·.sheet? read) f = f := by
  induction h with
  | nil => simp [Forest.sources, Forest.withoutSheets]
  | leaf l _ ih => simpa [Forest.sources, Tree.sources, Forest.withoutSheets, Tree.withoutSheets] using ih
  | @style f e rules hs hne hparse _ ih =>
    have hof : Source.of? s dir e [.leaf (.raw (onLines rules))] = some (.embedded (onLines rules)) := by
      rw [Source.of?_of_isStyle hs, Forest.ownText_raw]
    have hkeep : keepAtRules e ⟨[], rules⟩ = _ := keepAtRules_of_ne hne
    have hfailure : Source.failure? read (.embedded (onLines rules)) = none := rfl
    have hsheet : Source.sheet? read (.embedded (onLines rules)) = some ⟨[], rules⟩ := congrArg some hparse
    obtain ⟨hf, hrules, hw⟩ := ih
    refine ⟨?_, ?_, ?_⟩
    · simp only [Forest.sources, Tree.sources, hof, List.singleton_append, List.findSome?_cons, hfailure, hf]
    · simpa [Forest.sources, Tree.sources, hof, hsheet] using hrules
    · simp only [Forest.withoutSheets, Tree.withoutSheets, hof, hsheet, Source.remains, hkeep, hw, List.singleton_append]
  | @element f content e hs hl _ _ ihc ih =>
    obtain ⟨hfc, hrc, hwc⟩ := ihc
    obtain ⟨hf, hr, hw⟩ := ih
    rcases Source.of?_cases s dir e content with ⟨hn, -⟩ | ⟨-, location, hn, -⟩ | ⟨-, -, ho | ⟨problem, ho⟩⟩
    · exact absurd hn hs
    · exact absurd hn (hl location)
    · simp only [Forest.sources, Tree.sources, ho, List.findSome?_append, hfc, hf, List.filterMap_append,
        List.forall_mem_append, Forest.withoutSheets, Tree.withoutSheets, hwc, hw]
      exact ⟨rfl, ⟨hrc, hr⟩, rfl⟩
    · simp only [Forest.sources, Tree.sources, ho, List.findSome?_append, List.findSome?_cons, hfc, hf,
        List.filterMap_append, List.forall_mem_append, Forest.withoutSheets, Tree.withoutSheets, hwc, hw]
      exact ⟨rfl, ⟨hrc, hr⟩, rfl⟩

/-- What reads as spent trees is written as it was read. -/
theorem Forest.Spent.inline {src : Text} (h : Forest.Spent s dir f) (hp : Forest.parse s.dialect src = .ok f)
    (read : Reader) : MailTemplate.inline s dir read src = .ok (f.print s.pretty) := by
  obtain ⟨hr, hrules, hw⟩ := h.withoutSheets read
  have hsheet : (f.sheet s dir read).rules = [] := by
    rw [Forest.sheet, rules_concat, List.flatMap_eq_nil_iff]
    exact hrules
  rw [inline_of_parse hp hr, Forest.inlined, hw, MailTemplate.style, trees_styleForest_of_no_rules hsheet]

/-! ## Taking sheets out -/

theorem Consumed.atRuleRow {e holder : Element} {content : Forest} {sheet : Css.Stylesheet}
    (h : Consumed s dir read e content sheet holder) : Css.AtRuleRow sheet.atRules := by
  cases h with
  | style _ => exact Css.atRuleRow_items _
  | link _ _ _ => exact Css.atRuleRow_items _

/-- The at-rules that are left are read again as the same, and with no rule beside them. -/
theorem TakenOut.spent {sheets : List Css.Stylesheet} (h : TakenOut s dir read f sheets g)
    (hc : ∀ sheet ∈ sheets, ∀ rule ∈ sheet.atRules, ¬ "/*".toList <:+: rule) : Forest.Spent s dir g := by
  induction h with
  | nil => exact .nil
  | leaf l _ ih => exact .leaf l (ih hc)
  | gone _ _ _ ih => exact ih fun sheet hs => hc sheet (List.mem_cons_of_mem _ hs)
  | left hcons hne _ ih =>
    rw [List.forall_mem_cons] at hc
    exact .style hcons.isStyle hne (Css.parse_onLines hcons.atRuleRow hc.1) (ih hc.2)
  | stays hs hl _ _ ihc ih =>
    rw [List.forall_mem_append] at hc
    exact .element hs hl (ihc hc.1) (ih hc.2)

theorem Forest.WellFormed.of_cons {above : List Text} {t : Tree} (h : Forest.WellFormed d above (t :: f)) :
    t.WellFormed d above ∧ Forest.WellFormed d above f :=
  ⟨h.trees t List.mem_cons_self, (List.isChain_cons.1 h.textsApart).2, fun u hu => h.trees u (List.mem_cons_of_mem t hu)⟩

/-- Where no element around holds raw text, one that does may stand. -/
theorem mayStandIn_of_holdsRawText {above : List Text} {name : Text} (ha : ∀ a ∈ above, holdsRawText a = false)
    (hr : holdsRawText name = true) : MayStandIn d above name := by
  refine .of_forall_ne fun a hmem => ?_
  rw [Bool.eq_false_iff]
  intro hs
  have h := holdsRawText_congr hs
  rw [ha a hmem, hr] at h
  cases h

/-- Nothing is taken out of raw text. -/
theorem TakenOut.eq_of_isRawContent {name : Text} {sheets : List Css.Stylesheet} (h : TakenOut s dir read f sheets g)
    (hf : IsRawContent name f) : g = f := by
  rcases hf with rfl | ⟨t, -, rfl, -⟩
  · cases h with
    | nil => rfl
  · cases h with
    | leaf l h =>
      cases h with
      | nil => rfl

/-- What is left can be read back where it stands. -/
theorem TakenOut.wellPlaced {sheets : List Css.Stylesheet} {above : List Text} (h : TakenOut s dir read f sheets g)
    (hself : s.dialect.isSelfClosing "style".toList = false) (hw : Forest.WellFormed s.dialect above f)
    (ha : ∀ a ∈ above, holdsRawText a = false)
    (hc : ∀ sheet ∈ sheets, ∀ rule ∈ sheet.atRules, HoldsNoEndTag "style".toList rule) :
    Forest.WellPlaced s.dialect above g := by
  induction h generalizing above with
  | nil => exact .nil
  | leaf l _ ih =>
    obtain ⟨hl, hf⟩ := hw.of_cons
    cases hl with
    | leaf hl => exact .leaf hl (ih hf ha hc)
  | gone _ _ _ ih => exact ih hw.of_cons.2 ha fun sheet hs => hc sheet (List.mem_cons_of_mem _ hs)
  | left hcons hne _ ih =>
    rw [List.forall_mem_cons] at hc
    obtain ⟨he, hf⟩ := hw.of_cons
    obtain ⟨hholder, hv⟩ := hcons.wellFormed hself he hne
    have hs := hcons.isStyle
    have hraw := hs.holdsNoEndTag_iff.2 ((holdsNoEndTag_onLines_iff isElementName_style).2 hc.1)
    exact .raw hholder (mayStandIn_of_holdsRawText ha hs.holdsRawText) hv hs.holdsRawText
      (.inr ⟨_, List.cons_ne_nil _ _, rfl, hraw⟩) (ih hf ha hc.2)
  | stays hs hl hcontent _ ihc ih =>
    rw [List.forall_mem_append] at hc
    obtain ⟨he, hf⟩ := hw.of_cons
    cases he with
    | void he hm hv =>
      cases hcontent with
      | nil => exact .void he hm hv (ih hf ha hc.2)
    | raw he hm hv hr hraw =>
      rw [hcontent.eq_of_isRawContent hraw]
      exact .raw he hm hv hr hraw (ih hf ha hc.2)
    | element he hm hv hr htexts htrees =>
      refine .element he hm hv hr (ihc ⟨htexts, htrees⟩ ?_ hc.1) (ih hf ha hc.2)
      exact List.forall_mem_cons.2 ⟨hr, ha⟩

/-! ## Writing attributes -/

theorem Element.SameButStyle.linksTo_iff {e e' : Element} (h : e.SameButStyle s.dialect e') {location : Location} :
    e.LinksTo s dir location ↔ e'.LinksTo s dir location := by
  have hrel : s.dialect.sameName "rel".toList "style".toList = false := s.dialect.sameName_of_not_sameLetters (by decide)
  have hhref : s.dialect.sameName "href".toList "style".toList = false := s.dialect.sameName_of_not_sameLetters (by decide)
  unfold Element.LinksTo isStylesheetLink
  rw [h.name, h.attributeIn? _ hrel, h.attributeIn? _ hhref]

theorem Element.SameButStyle.isStyle_iff {e e' : Element} (h : e.SameButStyle d e') : e.IsStyle ↔ e'.IsStyle := by
  unfold Element.IsStyle
  rw [h.name]

theorem Forest.Spent.styled (h : Forest.Spent s dir f) (sheet : Css.Stylesheet) (above : List Level)
    (before : List Element) : Forest.Spent s dir (styleForest s.dialect sheet above before f).trees := by
  induction h generalizing above before with
  | nil =>
    rw [trees_styleForest_nil]
    exact .nil
  | leaf l _ ih =>
    rw [trees_styleForest_leaf]
    exact .leaf l (ih above before)
  | @style f e rules hs hne hparse _ ih =>
    have hsame := Element.sameButStyle_withRules s.dialect e
    rw [trees_styleForest_element _ _ _ _ _ _ _ rfl rfl, trees_styleForest_leaf, trees_styleForest_nil]
    exact .style ((hsame _).isStyle_iff.1 hs) hne hparse (ih _ _)
  | @element f content e hs hl _ _ ihc ih =>
    have hsame := Element.sameButStyle_withRules s.dialect e
    rw [trees_styleForest_element _ _ _ _ _ _ _ rfl rfl]
    refine .element ?_ ?_ (ihc _ _) (ih _ _)
    · rwa [← (hsame _).isStyle_iff]
    · intro location hlink
      exact hl location ((hsame _).linksTo_iff.2 hlink)

/-- Setting an attribute brings in no other name. -/
theorem Element.exists_name_of_mem_assign {p : Text → Bool} {name value : Text} {as : List Attribute} {b : Attribute}
    (h : b ∈ assign p name value as) : b.name = name ∨ ∃ a ∈ as, b.name = a.name := by
  induction as with
  | nil => simp_all [assign]
  | cons a as ih =>
    rw [assign] at h
    split at h
    · rcases List.mem_cons.1 h with rfl | h
      · exact .inr ⟨a, List.mem_cons_self, rfl⟩
      · exact .inr ⟨b, List.mem_cons_of_mem a h, rfl⟩
    · rcases List.mem_cons.1 h with rfl | h
      · exact .inr ⟨b, List.mem_cons_self, rfl⟩
      · rcases ih h with h | ⟨a', ha', hn⟩
        · exact .inl h
        · exact .inr ⟨a', List.mem_cons_of_mem a ha', hn⟩

theorem Element.isVoid_withRules (d : Dialect) (e : Element) (rules : List Css.Rule) :
    (e.withRules d rules).isVoid = e.isVoid := by
  unfold Element.withRules
  split <;> rfl

/-- An attribute `style` can be written into any element. -/
theorem Element.WellFormed.setStyle {e : Element} (h : e.WellFormed d) (value : Text) :
    (e.setAttributeIn d "style".toList value).WellFormed d := by
  have hname : ∀ a ∈ (e.setAttributeIn d "style".toList value).attributes,
      a.name = "style".toList ∨ ∃ b ∈ e.attributes, a.name = b.name := fun a ha => exists_name_of_mem_assign ha
  constructor
  · exact h.name
  · intro a ha
    rcases hname a ha with hn | ⟨b, hb, hn⟩
    · rw [hn]
      exact ⟨by decide, List.all_eq_true.1 (by decide)⟩
    · rw [hn]
      exact h.attributes b hb
  · intro hd
    refine ⟨(h.lower hd).1, fun a ha => ?_⟩
    rcases hname a ha with hn | ⟨b, hb, hn⟩
    · rw [hn]
      decide
    · rw [hn]
      exact (h.lower hd).2 b hb
  · exact h.isVoid

theorem Element.WellFormed.withRules {e : Element} (h : e.WellFormed d) (rules : List Css.Rule) :
    (e.withRules d rules).WellFormed d := by
  by_cases hr : rules.flatMap Css.Rule.declarations = []
  · rw [Element.withRules_of_nil hr]
    exact h
  · obtain ⟨value, he⟩ := Element.exists_withRules_eq (d := d) (e := e) hr
    rw [he]
    exact h.setStyle value

theorem trees_styleForest_of_isRawContent {name : Text} (h : IsRawContent name f) (sheet : Css.Stylesheet)
    (above : List Level) (before : List Element) : (styleForest d sheet above before f).trees = f := by
  rcases h with rfl | ⟨t, -, rfl, -⟩
  · rw [trees_styleForest_nil]
  · rw [trees_styleForest_leaf, trees_styleForest_nil]

theorem Forest.WellPlaced.styled {names : List Text} (h : Forest.WellPlaced d names f) (sheet : Css.Stylesheet)
    (above : List Level) (before : List Element) :
    Forest.WellPlaced d names (styleForest d sheet above before f).trees := by
  have hname : ∀ (e : Element) (rules : List Css.Rule), e.name = (e.withRules d rules).name := fun e rules =>
    (Element.sameButStyle_withRules d e rules).name
  induction h generalizing above before with
  | nil =>
    rw [trees_styleForest_nil]
    exact .nil
  | leaf hl _ ih =>
    rw [trees_styleForest_leaf]
    exact .leaf hl (ih above before)
  | void he hm hv _ ih =>
    rw [trees_styleForest_element _ _ _ _ _ _ _ rfl rfl, trees_styleForest_nil]
    refine .void (he.withRules _) ?_ ?_ (ih _ _)
    · rwa [← hname]
    · rwa [Element.isVoid_withRules]
  | raw he hm hv hr hc _ ih =>
    rw [trees_styleForest_element _ _ _ _ _ _ _ rfl rfl, trees_styleForest_of_isRawContent hc]
    refine .raw (he.withRules _) ?_ ?_ ?_ ?_ (ih _ _)
    · rwa [← hname]
    · rwa [Element.isVoid_withRules]
    · rwa [← hname]
    · rwa [← hname]
  | element he hm hv hr _ _ ihc ih =>
    rw [trees_styleForest_element _ _ _ _ _ _ _ rfl rfl]
    refine .element (he.withRules _) ?_ ?_ ?_ ?_ (ih _ _)
    · rwa [← hname]
    · rwa [Element.isVoid_withRules]
    · rwa [← hname]
    · rw [← hname]
      exact ihc _ _

/-! ## Texts side by side -/

theorem Forest.Spent.put (h : Forest.Spent s dir f) (l : Leaf) : Forest.Spent s dir (Forest.put f (.leaf l)) := by
  rcases Forest.put_cases f (.leaf l) with ⟨u, -, hu⟩ | hl
  · rw [hu]
    unfold Forest.putText
    split
    · exact h
    · split
      · next v g =>
        cases h with
        | leaf _ h => exact .leaf _ h
      · exact .leaf _ h
  · rw [hl]
    exact .leaf l h

theorem Forest.Spent.joined (h : Forest.Spent s dir f) : Forest.Spent s dir (Forest.joined f) := by
  induction h with
  | nil => exact .nil
  | leaf l _ ih => exact ih.put l
  | style hs hne hparse _ ih => exact .style hs hne hparse ih
  | element hs hl _ _ ihc ih => exact .element hs hl ihc ih

/-! ## Inlining twice -/

/-- Inlining what has been inlined changes nothing, if no text has an entity in it, no at-rule the beginning of a comment
or of an end tag, and no attribute quotes of both kinds. -/
theorem inline_inline {src out : Text} (hself : s.dialect.isSelfClosing "style".toList = false) (hpretty : s.pretty = false)
    (hp : Forest.parse s.dialect src = .ok f) (h : inline s dir read src = .ok out)
    (htexts : ∀ t ∈ Forest.texts (Forest.joined (f.inlined s dir read).trees), ∀ name ∈ Entity.names, ¬ name <:+: t)
    (hrules : ∀ rule ∈ (f.sheet s dir read).atRules, ¬ "/*".toList <:+: rule ∧ ¬ "</style".toList <:+: Text.lower rule)
    (hvalues : ∀ e ∈ Forest.elements (f.inlined s dir read).trees, ∀ a ∈ e.attributes, ∀ v, a.value = some v →
      ¬ ('"' ∈ v ∧ '\'' ∈ v)) : inline s dir read out = .ok out := by
  obtain ⟨f', hp', hr, rfl⟩ := exists_of_inline h
  obtain rfl : f' = f := Except.ok.inj (hp'.symm.trans hp)
  have htaken := takenOut_withoutSheets hr
  have hrules' : ∀ sheet ∈ (Forest.sources (Source.of? s dir) f').filterMap (·.sheet? read), ∀ rule ∈ sheet.atRules,
      ¬ "/*".toList <:+: rule ∧ ¬ "</style".toList <:+: Text.lower rule := by
    intro sheet hs rule hrule
    refine hrules rule ?_
    rw [Forest.sheet, atRules_concat]
    exact List.mem_flatMap.2 ⟨sheet, hs, hrule⟩
  have hspent : Forest.Spent s dir (f'.inlined s dir read).trees :=
    (htaken.spent fun sheet hs rule hrule => (hrules' sheet hs rule hrule).1).styled _ _ _
  have hplaced : Forest.WellPlaced s.dialect [] (f'.inlined s dir read).trees :=
    (htaken.wellPlaced hself (Forest.wellFormed_of_parse hp) (List.forall_mem_nil _) fun sheet hs rule hrule =>
      holdsNoEndTag_style (hrules' sheet hs rule hrule).2).styled _ _ _
  -- what was written reads as the joined trees, which are spent too, and these are written as the trees were
  rw [hpretty, hspent.joined.inline (hplaced.parse_print htexts hvalues), hpretty, Forest.print, if_neg (by simp),
    Forest.compact_joined]
  rfl

/-- A sheet with a rule for print only. -/
def printSheet : Text := "@media print\x7bb\x7bmargin:0\x7d\x7d".toList

theorem parse_printSheet : Forest.parse Dialect.jelly ("<style>".toList ++ printSheet ++ "</style>a".toList) =
    .ok [.element ⟨"style".toList, [], false⟩ [.leaf (.raw printSheet)], .leaf (.text "a".toList)] :=
  Forest.parse_of_readAll (by decide +kernel)
    (show _ = [.rawElement ⟨"style".toList, [], false⟩ printSheet, .leaf (.text "a".toList)] by decide +kernel)

theorem trees_printSheet : (Forest.inlined ⟨.jelly, false, none, .web⟩ none (fun _ => .ok [])
    [.element ⟨"style".toList, [], false⟩ [.leaf (.raw printSheet)], .leaf (.text "a".toList)]).trees =
    [.element ⟨"style".toList, [], false⟩ [.leaf (.raw (onLines [printSheet]))], .leaf (.text "a".toList)] := by
  have hparse : Css.Stylesheet.parse printSheet = ⟨[], [printSheet]⟩ := by decide +kernel
  have hsheet : Source.sheet? (fun _ => .ok []) (.embedded printSheet) = some ⟨[], [printSheet]⟩ :=
    congrArg some hparse
  have hs : Element.IsStyle ⟨"style".toList, [], false⟩ := rfl
  have hkeep : keepAtRules ⟨"style".toList, [], false⟩ ⟨[], [printSheet]⟩ = _ := keepAtRules_of_ne (by simp)
  simp only [Forest.inlined, Forest.sheet, Forest.sources, Tree.sources, Forest.withoutSheets, Tree.withoutSheets,
    Source.of?_of_isStyle hs, Forest.ownText_raw, hsheet, Source.remains, hkeep, MailTemplate.style, List.append_nil,
    List.filterMap_cons, List.filterMap_nil]
  exact trees_styleForest_of_no_rules rfl _ _ _

theorem inline_inline_printSheet :
    inline ⟨.jelly, false, none, .web⟩ none (fun _ => .ok [])
      ("<style>".toList ++ onLines [printSheet] ++ "</style>a".toList) =
    .ok ("<style>".toList ++ onLines [printSheet] ++ "</style>a".toList) := by
  have hout : inline ⟨.jelly, false, none, .web⟩ none (fun _ => .ok [])
      ("<style>".toList ++ printSheet ++ "</style>a".toList) =
        .ok ("<style>".toList ++ onLines [printSheet] ++ "</style>a".toList) := by
    rw [inline_of_parse parse_printSheet rfl, trees_printSheet]
    exact congrArg Except.ok (by decide +kernel)
  refine inline_inline (by decide) rfl parse_printSheet hout ?_ (by decide +kernel) ?_
  · rw [trees_printSheet]
    decide +kernel
  · rw [trees_printSheet]
    decide +kernel

end MailTemplate
