import MailTemplate.Proofs.Markup.Reading
import MailTemplate.Proofs.Style.Rules
/-!
# Styling all at once

Elements are styled one after the other, and rules are matched against what has been written by then. That shows only
where a selector asks for the attribute `style` of another element than the one it selects: with all other sheets it is
as if the rules for every element were found first and the attributes written afterwards (`trees_style_eq_atOnce`).
-/
namespace MailTemplate

open Css

variable {d : Dialect}

/-! ## Finding all rules first -/

/-- Trees with the rules for each element beside it. -/
inductive Marked where
  | leaf (l : Leaf)
  | element (e : Element) (rules : List Rule) (content : List Marked)

/-- Finds the rules for every element of trees that stand below `above`, after the elements `before`. -/
def markForest (d : Dialect) (sheet : Stylesheet) (above : List Level) (before : List Element) : List Tree → List Marked
  | [] => []
  | .leaf l :: more => .leaf l :: markForest d sheet above before more
  | .element e content :: more =>
    let here : Level := ⟨e, before, !more.any Tree.isElement⟩
    .element e (rulesFor d sheet ⟨here, above⟩) (markForest d sheet (here :: above) [] content) ::
      markForest d sheet above (e :: before) more

/-- Writes what was found for every element into its attribute. -/
def writeForest (d : Dialect) : List Marked → Forest
  | [] => []
  | .leaf l :: more => .leaf l :: writeForest d more
  | .element e rules content :: more => .element (e.withRules d rules) (writeForest d content) :: writeForest d more

/-- Styles a whole template by first finding all rules and then writing all attributes. -/
def styleAtOnce (d : Dialect) (sheet : Stylesheet) (f : Forest) : Forest := writeForest d (markForest d sheet [] [] f)

/-! ## What a written attribute leaves alone -/

/-- Elements that say the same but for the attribute `style`. -/
structure Element.SameButStyle (d : Dialect) (e e' : Element) : Prop where
  name : e.name = e'.name
  attribute? : ∀ key, d.sameName key "style".toList = false → e.attribute? key = e'.attribute? key
  attributeIn? : ∀ key, d.sameName key "style".toList = false → e.attributeIn? d key = e'.attributeIn? d key

namespace Element

theorem SameButStyle.refl (d : Dialect) (e : Element) : e.SameButStyle d e := ⟨rfl, fun _ _ => rfl, fun _ _ => rfl⟩

/-- Setting an attribute is not seen by who looks for another. -/
theorem find?_setAttributeIn {name : Text} {q : Text → Bool} (hq : ∀ n, d.sameName n name = true → q n = false)
    (e : Element) (value : Text) : (e.setAttributeIn d name value).find? q = e.find? q := by
  unfold find? setAttributeIn
  congr 1
  induction e.attributes with
  | nil => rw [assign, List.find?_cons, hq name (Dialect.sameName_self d name)]
  | cons a as ih =>
    rw [assign]
    split
    · next ha => rw [List.find?_cons, List.find?_cons, hq a.name ha]
    · rw [List.find?_cons, List.find?_cons, ih]

theorem sameButStyle_setAttributeIn (d : Dialect) (e : Element) (value : Text) :
    e.SameButStyle d (e.setAttributeIn d "style".toList value) := by
  constructor
  · rfl
  · intro key hk
    refine (find?_setAttributeIn (fun n hn => ?_) e value).symm
    rw [beq_eq_false_iff_ne]
    rintro rfl
    rw [hn] at hk
    cases hk
  · intro key hk
    refine (find?_setAttributeIn (fun n hn => ?_) e value).symm
    rw [Bool.eq_false_iff] at hk ⊢
    intro hs
    exact hk ((Dialect.sameName_iff.2 ((Dialect.sameName_iff.1 hs).symm.trans (Dialect.sameName_iff.1 hn))))

theorem sameButStyle_withRules (d : Dialect) (e : Element) (rules : List Rule) :
    e.SameButStyle d (e.withRules d rules) := by
  unfold withRules
  split
  · exact .refl d e
  · exact sameButStyle_setAttributeIn d e _

theorem SameButStyle.hasClass_eq {e e' : Element} (h : e.SameButStyle d e') (name : Text) :
    e.hasClass name = e'.hasClass name := by
  have hclass : d.sameName "class".toList "style".toList = false := d.sameName_of_not_sameLetters (by decide)
  unfold hasClass
  rw [h.attribute? _ hclass]

end Element

/-- Levels that say the same but for attributes `style`. -/
structure Level.SameButStyle (d : Dialect) (l l' : Level) : Prop where
  element : l.element.SameButStyle d l'.element
  before : List.Forall₂ (Element.SameButStyle d) l.before l'.before
  isLast : l.isLast = l'.isLast

/-- Places that say the same but for attributes `style`. -/
structure Place.SameButStyle (d : Dialect) (p p' : Place) : Prop where
  here : p.here.SameButStyle d p'.here
  above : List.Forall₂ (Level.SameButStyle d) p.above p'.above

namespace Place

variable {p p' : Place} {above above' : List Level}

theorem ofLevels_sameButStyle (h : List.Forall₂ (Level.SameButStyle d) above above') :
    List.Forall₂ (SameButStyle d) (ofLevels above) (ofLevels above') := by
  induction h with
  | nil => exact .nil
  | cons hl ha ih => exact .cons ⟨hl, ha⟩ ih

theorem ofEarlier_sameButStyle (ha : List.Forall₂ (Level.SameButStyle d) above above') {before before' : List Element}
    (h : List.Forall₂ (Element.SameButStyle d) before before') :
    List.Forall₂ (SameButStyle d) (ofEarlier above before) (ofEarlier above' before') := by
  induction h with
  | nil => exact .nil
  | cons he hb ih => exact .cons ⟨⟨he, hb, rfl⟩, ha⟩ ih

theorem head?_sameButStyle {ps ps' : List Place} (h : List.Forall₂ (SameButStyle d) ps ps') :
    List.Forall₂ (SameButStyle d) ps.head?.toList ps'.head?.toList := by
  cases h with
  | nil => exact .nil
  | cons hp _ => exact .cons hp .nil

end Place

/-! ## Selectors that do not ask for it -/

namespace Css

variable {p p' : Place}

/-- Whether a condition is about the attribute `style`. -/
def Simple.asksForStyle (d : Dialect) : Simple → Bool
  | present name => d.sameName name "style".toList
  | compare name _ _ => d.sameName name "style".toList
  | _ => false

/-- Whether a selector asks for the attribute `style` of an element other than the one that it selects. -/
def Selector.asksOthersForStyle (d : Dialect) (s : Selector) : Bool :=
  s.context.any fun (_, c) => c.conditions.any (·.asksForStyle d)

/-- A condition that is not about the attribute `style`, or one on the same element, does not see it written. -/
theorem Simple.holds_congr (h : p.SameButStyle d p') {x : Simple}
    (hx : x.asksForStyle d = false ∨ p.element = p'.element) : x.holds d p = x.holds d p' := by
  have he : p.element.SameButStyle d p'.element := h.here.element
  cases x with
  | id name =>
    have hid : d.sameName "id".toList "style".toList = false := d.sameName_of_not_sameLetters (by decide)
    simp only [holds, he.attribute? _ hid]
  | ofClass name => exact he.hasClass_eq name
  | present name | compare name k operand =>
    simp only [holds]
    rcases hx with hx | hx
    · rw [he.attributeIn? name hx]
    · rw [hx]
  | firstChild =>
    simp only [holds]
    rw [Bool.eq_iff_iff, List.isEmpty_iff_length_eq_zero, List.isEmpty_iff_length_eq_zero, h.here.before.length_eq]
  | lastChild => exact h.here.isLast

theorem Compound.holds_congr (h : p.SameButStyle d p') {c : Compound}
    (hc : c.conditions.any (·.asksForStyle d) = false ∨ p.element = p'.element) : c.holds d p = c.holds d p' := by
  have hall : c.conditions.all (·.holds d p) = c.conditions.all (·.holds d p') := by
    rw [Bool.eq_iff_iff, List.all_eq_true, List.all_eq_true]
    refine forall₂_congr fun x hx => ?_
    rw [Simple.holds_congr h]
    exact hc.imp_left fun hc => by simpa using List.any_eq_false.1 hc x hx
  have hname : p.element.name = p'.element.name := h.here.element.name
  unfold holds
  rw [hall, hname]

theorem Combinator.candidates_congr (h : p.SameButStyle d p') (k : Combinator) :
    List.Forall₂ (Place.SameButStyle d) (k.candidates p) (k.candidates p') := by
  have habove := Place.ofLevels_sameButStyle h.above
  have hbefore := Place.ofEarlier_sameButStyle h.above h.here.before
  cases k with
  | descendant => exact habove
  | child => exact Place.head?_sameButStyle habove
  | adjacent => exact Place.head?_sameButStyle hbefore
  | sibling => exact hbefore

theorem any_congr {P Q : Place → Bool} {ps ps' : List Place} (h : List.Forall₂ (Place.SameButStyle d) ps ps')
    (hPQ : ∀ p p', p.SameButStyle d p' → P p = Q p') : ps.any P = ps'.any Q := by
  induction h with
  | nil => rfl
  | cons hp _ ih => rw [List.any_cons, List.any_cons, hPQ _ _ hp, ih]

theorem matchContext_congr {context : List (Combinator × Compound)} (h : p.SameButStyle d p')
    (hc : context.any (fun (_, c) => c.conditions.any (·.asksForStyle d)) = false) :
    matchContext d p context = matchContext d p' context := by
  induction context generalizing p p' with
  | nil => rfl
  | cons x context ih =>
    obtain ⟨k, c⟩ := x
    rw [List.any_cons, Bool.or_eq_false_iff] at hc
    rw [matchContext, matchContext]
    refine any_congr (Combinator.candidates_congr h k) fun q q' hq => ?_
    rw [Compound.holds_congr hq (.inl hc.1), ih hq hc.2]

/-- The element that is to be styled has its own attributes still. -/
theorem Selector.selects_congr (h : p.SameButStyle d p') (he : p.element = p'.element) {s : Selector}
    (hs : s.asksOthersForStyle d = false) : s.selects d p = s.selects d p' := by
  unfold selects
  rw [Compound.holds_congr h (.inr he), matchContext_congr h hs]

end Css

/-! ## One after the other -/

/-- Sheets of which no selector asks for the attribute `style` of an element other than the one that it selects. -/
def AsksNoOthersForStyle (d : Dialect) (sheet : Stylesheet) : Prop :=
  ∀ r ∈ sheet.rules, ∀ s ∈ r.selectors, s.asksOthersForStyle d = false

theorem rulesFor_congr {sheet : Stylesheet} (hs : AsksNoOthersForStyle d sheet) {p p' : Place}
    (h : p.SameButStyle d p') (he : p.element = p'.element) : rulesFor d sheet p = rulesFor d sheet p' := by
  refine List.filter_congr fun r hr => ?_
  rw [Bool.eq_iff_iff, List.any_eq_true, List.any_eq_true]
  refine exists_congr fun s => and_congr_right fun hsel => ?_
  rw [Selector.selects_congr h he (hs r hr s hsel)]

theorem trees_styleForest {sheet : Stylesheet} (hs : AsksNoOthersForStyle d sheet) (f : Forest)
    {above above' : List Level} (ha : List.Forall₂ (Level.SameButStyle d) above above') {before before' : List Element}
    (hb : List.Forall₂ (Element.SameButStyle d) before before') :
    (styleForest d sheet above' before' f).trees = writeForest d (markForest d sheet above before f) := by
  induction f using Forest.induct generalizing above above' before before' with
  | nil => rw [styleForest, markForest, writeForest]
  | leaf l more ih => rw [styleForest, markForest, writeForest, ← ih ha hb]
  | element e content more ihc ihm =>
    obtain ⟨isLast, hl⟩ : ∃ isLast, (!more.any Tree.isElement) = isLast := ⟨_, rfl⟩
    have hp : Place.SameButStyle d ⟨⟨e, before, isLast⟩, above⟩ ⟨⟨e, before', isLast⟩, above'⟩ :=
      ⟨⟨.refl d e, hb, rfl⟩, ha⟩
    obtain ⟨e', he⟩ : ∃ e', e.withRules d (rulesFor d sheet ⟨⟨e, before, isLast⟩, above⟩) = e' := ⟨_, rfl⟩
    -- below it and after it, the element is seen with its attribute written
    have hsame : e.SameButStyle d e' := he ▸ Element.sameButStyle_withRules d e _
    have hlevel : Level.SameButStyle d ⟨e, before, isLast⟩ ⟨e', before', isLast⟩ := ⟨hsame, hb, rfl⟩
    rw [trees_styleForest_element d sheet above' before' e content more hl (by rw [← rulesFor_congr hs hp rfl, he]),
      ihc (.cons hlevel ha) .nil, ihm ha (.cons hsame hb), markForest, writeForest, hl, he]

theorem trees_style_eq_atOnce {sheet : Stylesheet} (hs : AsksNoOthersForStyle d sheet) (f : Forest) :
    (style d sheet f).trees = styleAtOnce d sheet f := trees_styleForest hs f .nil .nil

theorem trees_style_eq_atOnce_cell :
    AsksNoOthersForStyle .jelly (.parse "tr td[style]\x7bcolor:red\x7d".toList) ∧
    (style .jelly (.parse "tr td[style]\x7bcolor:red\x7d".toList) [.element ⟨"tr".toList, [], false⟩
      [.element ⟨"td".toList, [⟨"style".toList, some "top:0".toList⟩], false⟩ []]]).trees =
    styleAtOnce .jelly (.parse "tr td[style]\x7bcolor:red\x7d".toList) [.element ⟨"tr".toList, [], false⟩
      [.element ⟨"td".toList, [⟨"style".toList, some "top:0".toList⟩], false⟩ []]] := by
  have hs : AsksNoOthersForStyle .jelly (.parse "tr td[style]\x7bcolor:red\x7d".toList) := by
    unfold AsksNoOthersForStyle
    decide +kernel
  exact ⟨hs, trees_style_eq_atOnce hs _⟩

/-- Styles paragraphs in a `div` that has an attribute `style`, and gives every `div` one. -/
def askingSheet : Stylesheet := .parse "div\x7bcolor:red\x7d div[style] p\x7bmargin:0\x7d".toList

/-- It shows where the rules for an only child are others once its parent has been styled. -/
theorem trees_style_ne_atOnce {sheet : Stylesheet} {e c : Element}
    (h : c.withRules d (rulesFor d sheet
      ⟨⟨c, [], true⟩, [⟨e.withRules d (rulesFor d sheet ⟨⟨e, [], true⟩, []⟩), [], true⟩]⟩) ≠
        c.withRules d (rulesFor d sheet ⟨⟨c, [], true⟩, [⟨e, [], true⟩]⟩)) :
    (style d sheet [.element e [.element c []]]).trees ≠ styleAtOnce d sheet [.element e [.element c []]] := by
  intro hsame
  rw [style, trees_styleForest_element _ _ _ _ _ _ _ rfl rfl, trees_styleForest_element _ _ _ _ _ _ _ rfl rfl,
    styleAtOnce] at hsame
  simp only [markForest, writeForest, List.any_nil, Bool.not_false, List.cons.injEq, Tree.element.injEq] at hsame
  exact h hsame.1.2.1.1

/-- A paragraph is styled because the `div` around it has been. -/
theorem not_forall_trees_style_eq_atOnce : ¬ ∀ (d : Dialect) (sheet : Stylesheet) (src : Text) (f : Forest),
    Forest.parse d src = .ok f → (style d sheet f).trees = styleAtOnce d sheet f := by
  intro h
  have hparse : Forest.parse Dialect.jelly "<div><p>".toList =
      .ok [.element ⟨"div".toList, [], false⟩ [.element ⟨"p".toList, [], false⟩ []]] :=
    Forest.parse_of_readAll (by decide +kernel)
      (show _ = [.startTag ⟨"div".toList, [], false⟩, .startTag ⟨"p".toList, [], false⟩] by decide +kernel)
  exact trees_style_ne_atOnce (by decide +kernel) (h .jelly askingSheet _ _ hparse)

end MailTemplate
