import MailTemplate.Proofs.Css.Items
import MailTemplate.Proofs.Markup.Layout
import MailTemplate.Proofs.Style.Frame
import MailTemplate.Proofs.Style.Interchange
/-!
# Style elements that hold at-rules

Raw text is written as it stands, so that a style element holds its at-rules together exactly if none of them has an end
tag for it (`parse_keepAtRules_iff`). The at-rules of a sheet in a file can have one, in a string for instance, and break
out of the element (`not_forall_parse_keepAtRules`).
-/
namespace MailTemplate

/-! ## End tags in a row of lines -/

namespace HoldsNoEndTag

variable {name : Text}

/-- White space keeps what stands before it and what stands after it from making up an end tag. -/
theorem append_cons (hname : IsElementName name) {a b : Text} {z : Char} (hz : Text.isWhiteSpace z = true)
    (ha : HoldsNoEndTag name a) (hb : HoldsNoEndTag name b) : HoldsNoEndTag name (a ++ z :: b) := by
  intro before name' after he hs
  have hn : Tag.isNameChar z = false := isNameChar_of_isWhiteSpace hz
  have hkey : z ∉ "</".toList ++ name' := by
    intro hmem
    rcases List.mem_append.1 hmem with h | h
    · rcases List.mem_pair.1 h with rfl | rfl
      · cases hz
      · cases hz
    · have halpha : z.isAlpha = false := by
        rw [Bool.eq_false_iff]
        intro h'
        rw [Tag.isNameChar_of_isAlpha h'] at hn
        cases hn
      rw [hname.isNameChar z (Text.mem_of_sameLetters hs h halpha)] at hn
      cases hn
  have he' : a ++ z :: b = before ++ ("</".toList ++ name' ++ after) := by
    rw [he, ← List.append_assoc, ← List.append_assoc]
  rcases Text.infix_cases_of_not_mem hkey he' with ⟨after', ha', rfl⟩ | ⟨before', hb'⟩
  · obtain ⟨c, more, rfl, hc⟩ := ha before name' after' (by rw [ha', ← List.append_assoc, ← List.append_assoc]) hs
    exact ⟨c, more ++ z :: b, rfl, hc⟩
  · exact hb before' name' after (by rw [hb', ← List.append_assoc, ← List.append_assoc]) hs

end HoldsNoEndTag

theorem holdsNoEndTag_onLines_iff {name : Text} (hname : IsElementName name) {lines : List Text} :
    HoldsNoEndTag name (onLines lines) ↔ ∀ line ∈ lines, HoldsNoEndTag name line := by
  have hline : Text.isWhiteSpace '\n' = true := by decide
  induction lines with
  | nil =>
    have hend : HoldsNoEndTag name ([] ++ '\n' :: []) := .append_cons hname hline (.nil name) (.nil name)
    exact iff_of_true hend fun _ h => nomatch h
  | cons line lines ih =>
    rw [onLines_cons, List.forall_mem_cons]
    constructor
    · intro h
      have hrest : HoldsNoEndTag name (line ++ onLines lines) := h.of_append_left (w := ['\n'])
      refine ⟨hrest.of_append_right ?_, ih.1 hrest.of_append_left⟩
      rintro c ⟨⟩
      exact isNameChar_of_isWhiteSpace hline
    · rintro ⟨h, hlines⟩
      have htail : HoldsNoEndTag name (lines.flatMap (· ++ ['\n'])) :=
        (ih.2 hlines).of_append_left (w := ['\n'])
      have hboth : HoldsNoEndTag name (line ++ onLines lines) := .append_cons hname hline h htail
      exact .append_cons (a := []) hname hline (.nil name) hboth

/-! ## Written and read back -/

variable {s : Settings} {dir : Option Path} {read : Reader} {d : Dialect}

theorem isElementName_style : IsElementName "style".toList :=
  ⟨'s', "tyle".toList, rfl, by decide, List.all_eq_true.1 (by decide)⟩

theorem Element.IsStyle.holdsRawText {e : Element} (h : e.IsStyle) : holdsRawText e.name = true := by
  unfold Element.IsStyle at h
  unfold MailTemplate.holdsRawText isAmong
  rw [List.any_cons, Text.sameLetters_iff.2 (Text.sameLetters_iff.1 h).symm, Bool.true_or]

theorem Element.IsStyle.holdsNoEndTag_iff {e : Element} (h : e.IsStyle) {t : Text} :
    HoldsNoEndTag e.name t ↔ HoldsNoEndTag "style".toList t :=
  ⟨holdsNoEndTag_of_sameLetters (Text.sameLetters_iff.1 h),
    holdsNoEndTag_of_sameLetters (Text.sameLetters_iff.1 h).symm⟩

/-- The element that is put in the place of a link. -/
theorem wellFormed_style (h : d.isSelfClosing "style".toList = false) :
    Element.WellFormed d ⟨"style".toList, [], false⟩ := by
  rw [← elementOf_style h]
  exact Token.elementOf_wellFormed isStart_style d

theorem Consumed.isStyle {e holder : Element} {content : Forest} {sheet : Css.Stylesheet}
    (h : Consumed s dir read e content sheet holder) : holder.IsStyle := by
  cases h with
  | style hs => exact hs
  | link _ _ _ => rfl

/-- The element that is to hold the at-rules of a sheet can hold raw text. -/
theorem Consumed.wellFormed {e holder : Element} {content : Forest} {sheet : Css.Stylesheet} {above : List Text}
    (hself : s.dialect.isSelfClosing "style".toList = false)
    (hw : (Tree.element e content).WellFormed s.dialect above) (hc : Consumed s dir read e content sheet holder)
    (hne : sheet.atRules ≠ []) : holder.WellFormed s.dialect ∧ holder.isVoid = false := by
  cases hc with
  | link _ _ _ => exact ⟨wellFormed_style hself, rfl⟩
  | style hs =>
    cases hw with
    | raw he _ hv _ _ => exact ⟨he, hv⟩
    | void _ _ _ =>
      have hnone : Css.Stylesheet.parse (Forest.ownText []) = ⟨[], []⟩ := by
        rw [Css.Stylesheet.parse, Css.stripComments_eq_self (by decide)]
        exact congrArg Css.Stylesheet.ofItems Css.items_nil
      exact absurd (congrArg Css.Stylesheet.atRules hnone) hne
    | element _ _ _ hr _ _ =>
      rw [hs.holdsRawText] at hr
      cases hr

theorem keepAtRules_of_ne {holder : Element} {sheet : Css.Stylesheet} (h : sheet.atRules ≠ []) :
    keepAtRules holder sheet = [.element holder [.leaf (.raw (onLines sheet.atRules))]] := by
  rw [keepAtRules, if_neg h, onLines_eq h]

section Holder

variable {holder : Element} {t : Text}

theorem parse_raw_of_holdsNoEndTag (hw : holder.WellFormed d) (hs : holder.IsStyle) (hv : holder.isVoid = false)
    (hne : t ≠ []) (ht : HoldsNoEndTag "style".toList t) :
    Forest.parse d (Forest.print false [.element holder [.leaf (.raw t)]]) =
      .ok [.element holder.asRead [.leaf (.raw t)]] := by
  have hraw : IsRawContent holder.name [.leaf (.raw t)] := .inr ⟨t, hne, rfl, hs.holdsNoEndTag_iff.2 ht⟩
  have htree : (Tree.element holder [.leaf (.raw t)]).WellFormed d [] :=
    .raw hw (.nil d holder.name) hv hs.holdsRawText hraw
  exact Forest.parse_eq_ok_iff.2 ((Forest.WellFormed.nil d []).cons_of_not_isText htree rfl).readOn_compact

/-- What is read of a style element has no end tag for it. -/
theorem holdsNoEndTag_of_parse {src : Text} (hs : holder.IsStyle)
    (h : Forest.parse d src = .ok [.element holder [.leaf (.raw t)]]) : HoldsNoEndTag "style".toList t := by
  have htree := (Forest.wellFormed_of_parse h).trees _ List.mem_cons_self
  cases htree with
  | raw _ _ _ _ hraw =>
    rcases hraw with hnil | ⟨t', -, he, ht⟩
    · cases hnil
    · obtain rfl : t = t' := by simpa using he
      exact hs.holdsNoEndTag_iff.1 ht
  | element _ _ _ hr _ _ =>
    rw [hs.holdsRawText] at hr
    cases hr

end Holder

/-- What is left of a sheet with at-rules is read back as one style element with these at-rules, and nothing else, if and
only if no at-rule has an end tag for it. -/
theorem parse_keepAtRules_iff {e holder : Element} {content : Forest} {sheet : Css.Stylesheet} {above : List Text}
    (hself : s.dialect.isSelfClosing "style".toList = false)
    (hw : (Tree.element e content).WellFormed s.dialect above) (hc : Consumed s dir read e content sheet holder)
    (hne : sheet.atRules ≠ []) :
    Forest.parse s.dialect ((keepAtRules holder sheet).print false) =
        .ok [.element holder.asRead [.leaf (.raw (onLines sheet.atRules))]] ↔
      ∀ rule ∈ sheet.atRules, HoldsNoEndTag "style".toList rule := by
  obtain ⟨hholder, hv⟩ := hc.wellFormed hself hw hne
  have hs := hc.isStyle
  rw [keepAtRules_of_ne hne, ← holdsNoEndTag_onLines_iff isElementName_style]
  constructor
  · intro h
    exact holdsNoEndTag_of_parse (show holder.asRead.IsStyle from hs) h
  · intro h
    exact parse_raw_of_holdsNoEndTag hholder hs hv (List.cons_ne_nil _ _) h

theorem parse_keepAtRules_media :
    Forest.parse Dialect.jelly "<style>\n@media print\x7bb\x7bmargin:0\x7d\x7d\n</style>".toList =
      .ok [.element ⟨"style".toList, [], false⟩
        [.leaf (.raw "\n@media print\x7bb\x7bmargin:0\x7d\x7d\n".toList)]] := by
  have hend : ∀ rule ∈ redRules.atRules, HoldsNoEndTag "style".toList rule :=
    List.forall_mem_singleton.2 (holdsNoEndTag_style (by decide))
  have hw := (Forest.wellFormed_of_parse parse_boldAfterSheet).trees _ List.mem_cons_self
  have hc : Consumed .jelly none (fun _ => .ok []) ⟨"style".toList, [], false⟩ [.leaf (.raw redSheet)] redRules
      ⟨"style".toList, [], false⟩ := by
    rw [← parse_redSheet]
    exact .style rfl
  have hread := (parse_keepAtRules_iff (by decide) hw hc (by decide)).2 hend
  rw [keepAtRules_of_ne (by decide)] at hread
  exact hread

/-- A sheet that imports another one, which is named as the end tag of a style element. -/
def breakingSheet : Text := "@import \"</style>\";".toList

/-- Not every sheet stays in the element that is to hold its at-rules: raw text is not escaped. -/
theorem not_forall_parse_keepAtRules : ¬ ∀ (s : Settings) (dir : Option Path) (read : Reader) (e holder : Element)
    (content : Forest) (sheet : Css.Stylesheet) (above : List Text),
    s.dialect.isSelfClosing "style".toList = false → (Tree.element e content).WellFormed s.dialect above →
    Consumed s dir read e content sheet holder → sheet.atRules ≠ [] →
    ∃ e', e'.IsStyle ∧ Forest.parse s.dialect ((keepAtRules holder sheet).print false) =
      .ok [.element e' [.leaf (.raw (onLines sheet.atRules))]] := by
  intro h
  have hw := (Forest.wellFormed_of_parse (parse_sheetLink .jelly)).trees _ List.mem_cons_self
  have hlink : Element.LinksTo .jelly none _ _ :=
    ⟨rfl, isStylesheetLink_sheetLink .jelly, _, href_sheetLink .jelly, ofHref_sheetLink (by decide) none⟩
  obtain ⟨e', hs, hparse⟩ := h .jelly none (fun _ => .ok breakingSheet) _ _ _ _ [] (by decide) hw
    (.link (by unfold Element.IsStyle; decide) hlink rfl) (by decide +kernel)
  have hlines : onLines (Css.Stylesheet.parse breakingSheet).atRules =
      "\n@import \"".toList ++ "</".toList ++ "style".toList ++ ">\";\n".toList := by decide +kernel
  obtain ⟨c, more, hc, hn⟩ := holdsNoEndTag_of_parse hs hparse _ _ _ hlines (by decide)
  obtain ⟨rfl, -⟩ := List.cons.inj hc
  exact absurd hn (by decide)

end MailTemplate
