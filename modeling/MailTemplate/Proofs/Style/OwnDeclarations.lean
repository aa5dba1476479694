import MailTemplate.Proofs.Css.ReadBack
import MailTemplate.Proofs.Style.Precedence
/-!
# Own declarations

Where the rules of all sheets and what an element declares itself end outside strings and brackets, the declarations that
are written into it are read back as they were merged, so that its own ones survive (`ownDeclarations_survive`). They need
not where an entity stands in the attribute: it is cut in two at its `;` (`not_forall_ownDeclarations_survive`).
-/
namespace MailTemplate

open Css Declaration

variable {d : Dialect} {sheet : Stylesheet} {css : Text} {e e' : Element}

/-- Whether the blocks of all rules of a sheet end outside strings and brackets. -/
def Css.EndsBlocks (css : Text) : Prop :=
  ∀ prelude body, Item.rule prelude body ∈ items (stripComments css) → Nest.top.run body = .top

/-- What an element declares itself, as who decodes its attribute `style` reads it. -/
def Element.ownDeclarations (d : Dialect) (e : Element) : List Declaration :=
  parseBlock (Entity.decode (e.ownStyle d))

/-! ## The rules of a sheet -/

theorem Css.selfContained_of_mem_rules (h : EndsBlocks css) {r : Rule} (hr : r ∈ (Stylesheet.parse css).rules)
    {x : Declaration} (hx : x ∈ r.declarations) : x.SelfContained := by
  obtain ⟨item, hitem, hrule⟩ := List.mem_filterMap.1 hr
  cases item with
  | rule prelude body =>
    rw [Item.rule?, Option.ite_none_left_eq_some] at hrule
    obtain ⟨-, hrule⟩ := hrule
    obtain rfl := Option.some.inj hrule
    exact selfContained_of_mem_parseBlock (h prelude body hitem) hx
  | atRule text => cases hrule
  | trailing text => cases hrule

theorem Css.selfContained_of_mem_declarationsFor {sheets : List Text} (h : ∀ css ∈ sheets, EndsBlocks css) {p : Place}
    {x : Declaration} (hx : x ∈ declarationsFor d (.concat (sheets.map .parse)) p) : x.SelfContained := by
  obtain ⟨r, hr, hx⟩ := List.mem_flatMap.1 hx
  have hr := List.mem_of_mem_filter hr
  rw [rules_concat, List.mem_flatMap] at hr
  obtain ⟨parsed, hparsed, hr⟩ := hr
  obtain ⟨css, hcss, rfl⟩ := List.mem_map.1 hparsed
  exact selfContained_of_mem_rules (h css hcss) hr hx

/-! ## One element -/

/-- What an element has taken on is read back, with its own declarations among it. -/
theorem Element.TakesOn.survive {found : List Declaration} (h : e.TakesOn d found e')
    (hfound : ∀ x ∈ found, x.SelfContained) (hown : Nest.top.run (e.ownStyle d) = .top) :
    Survive (parseBlock (e.ownStyle d)) (parseBlock (e'.ownStyle d)) := by
  obtain ⟨merged, hvalue, hmerge, hsurvive⟩ := h.merged
  have hmerged : ∀ x ∈ merged, x.SelfContained := by
    intro x hx
    rcases List.mem_append.1 (hmerge.subset hx) with hx | hx
    · exact hfound x hx
    · exact selfContained_of_mem_parseBlock hown hx
  have hread : parseBlock (e'.ownStyle d) = merged := by
    rw [Element.ownStyle, hvalue, Option.getD_some, parseBlock_printAll hmerged]
  rw [hread]
  exact hsurvive

/-! ## All elements -/

/-- What holds of elements that stay and of elements that take on declarations holds of all. -/
theorem Cascades.forall₂_elements {above : List Level} {before : List Element} {f g : Forest} {count : Nat}
    {R : Element → Element → Prop} (h : Cascades d sheet above before f g count) (hstay : ∀ e, R e e)
    (htake : ∀ p e e', e.TakesOn d (declarationsFor d sheet p) e' → R e e') :
    List.Forall₂ R (Forest.elements f) (Forest.elements g) := by
  induction h with
  | nil => exact .nil
  | leaf l _ ih => exact ih
  | unchanged _ _ _ _ ihc ih => exact .cons (hstay _) (List.rel_append ihc ih)
  | changed _ hfound _ ht _ _ ihc ih =>
    subst hfound
    exact .cons (htake _ _ _ ht) (List.rel_append ihc ih)

/-- The declarations of an element that ends them outside strings and brackets survive, if its attribute `style` has no
entity in it, neither before nor after. -/
theorem ownDeclarations_survive (d : Dialect) {sheets : List Text} (h : ∀ css ∈ sheets, EndsBlocks css) (f : Forest) :
    List.Forall₂ (fun e e' => Nest.top.run (e.ownStyle d) = .top →
      Entity.decode (e.ownStyle d) = e.ownStyle d → Entity.decode (e'.ownStyle d) = e'.ownStyle d →
      Survive (e.ownDeclarations d) (e'.ownDeclarations d))
      (Forest.elements f) (Forest.elements (style d (.concat (sheets.map .parse)) f).trees) := by
  apply (cascades_styleForest d (.concat (sheets.map .parse)) [] [] f).forall₂_elements
  · intro e _ _ _
    exact survive_self _
  · intro p e e' ht hown he he'
    rw [Element.ownDeclarations, Element.ownDeclarations, he, he']
    exact ht.survive (fun x hx => selfContained_of_mem_declarationsFor h hx) hown

/-- A template with one element, and no content in it. -/
theorem elements_style_single (h : e.withRules d (rulesFor d sheet ⟨⟨e, [], true⟩, []⟩) = e') :
    Forest.elements (style d sheet [.element e []]).trees = [e'] := by
  rw [style, trees_styleForest_element d sheet [] [] e [] [] rfl h, trees_styleForest_nil, trees_styleForest_nil]
  simp [Forest.elements, Tree.elements]

/-- A paragraph with an attribute `style`. -/
def styledParagraph (value : Text) : Element := ⟨"p".toList, [⟨"style".toList, some value⟩], false⟩

theorem endsBlocks_of_items {prelude body : Text} (h : items (stripComments css) = [.rule prelude body])
    (hbody : Nest.top.run body = .top) : EndsBlocks css := by
  intro prelude' body' hmem
  rw [h, List.mem_singleton] at hmem
  obtain ⟨rfl, rfl⟩ := Item.rule.inj hmem
  exact hbody

theorem ownDeclarations_survive_paragraph :
    EndsBlocks "p\x7bmargin:0;content:'a;b'\x7d".toList ∧
    Survive ((styledParagraph "content: ';'; top: 0".toList).ownDeclarations .jelly)
      ((styledParagraph "margin: 0; content: ';'; top: 0".toList).ownDeclarations .jelly) := by
  have hblocks : EndsBlocks "p\x7bmargin:0;content:'a;b'\x7d".toList :=
    endsBlocks_of_items (show _ = [Item.rule "p".toList "margin:0;content:'a;b'".toList] by decide +kernel) (by decide)
  have h := ownDeclarations_survive .jelly (List.forall_mem_singleton.2 hblocks)
    [.element (styledParagraph "content: ';'; top: 0".toList) []]
  rw [elements_style_single (show _ = styledParagraph "margin: 0; content: ';'; top: 0".toList by decide +kernel)] at h
  cases h with
  | cons h _ => exact ⟨hblocks, h (by decide) (by decide +kernel) (by decide +kernel)⟩

/-- An entity ends in a `;`, and what follows that is lost. -/
theorem not_forall_ownDeclarations_survive : ¬ ∀ (d : Dialect) (sheets : List Text) (f : Forest),
    (∀ css ∈ sheets, EndsBlocks css) →
    List.Forall₂ (fun e e' => Survive (e.ownDeclarations d) (e'.ownDeclarations d)) (Forest.elements f)
      (Forest.elements (style d (.concat (sheets.map .parse)) f).trees) := by
  intro hall
  have hblocks : EndsBlocks "p\x7bmargin:0\x7d".toList :=
    endsBlocks_of_items (show _ = [Item.rule "p".toList "margin:0".toList] by decide +kernel) (by decide)
  have h := hall .jelly ["p\x7bmargin:0\x7d".toList]
    [.element (styledParagraph "font-family: &quot;A&quot;; color: red".toList) []] (List.forall_mem_singleton.2 hblocks)
  rw [elements_style_single
    (show _ = styledParagraph "margin: 0; font-family: &quot; color: red".toList by decide +kernel)] at h
  cases h with
  | cons h _ =>
    obtain ⟨value, -, hvalue⟩ := h ⟨"color".toList, "red".toList⟩ (by decide +kernel)
    have hnone : lastValue? ((styledParagraph "margin: 0; font-family: &quot; color: red".toList).ownDeclarations .jelly)
        "color".toList = none := by decide +kernel
    rw [hnone] at hvalue
    cases hvalue

end MailTemplate
