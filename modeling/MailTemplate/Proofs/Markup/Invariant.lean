import MailTemplate.Proofs.Markup.OpenElements
import MailTemplate.Proofs.Markup.Reading
/-!
# What is read is well-formed

Every token that is read is well-formed (`Token.Reading.wellFormed`), and putting well-formed tokens together keeps the
open elements and all that stands in them well-formed (`Nesting.WellFormed`), so that whatever template is read, its
trees are well-formed (`Forest.wellFormed_of_parse`).
-/
namespace MailTemplate

variable {d : Dialect}

/-! ## Tokens -/

theorem Tag.isAttributeName_of_mem_readAttributes {s : Text} {a : Attribute} (h : a ∈ readAttributes s) :
    IsAttributeName a.name := by
  fun_induction readAttributes s with
  | case1 => cases h
  | case2 => cases h
  | case3 c s hgt hc name rest he value ih =>
    rcases List.mem_cons.1 h with rfl | h
    · exact ⟨List.cons_ne_nil c _, List.forall_mem_cons.2 ⟨hc, fun x hx => List.mem_takeWhile_imp hx⟩⟩
    · exact ih h
  | case4 c s hgt hc name rest he ih =>
    rcases List.mem_cons.1 h with rfl | h
    · exact ⟨List.cons_ne_nil c _, List.forall_mem_cons.2 ⟨hc, fun x hx => List.mem_takeWhile_imp hx⟩⟩
    · exact ih h
  | case5 c s hgt hc ih => exact ih h

namespace Token

theorem elementOf_wellFormed {inside : Text} (h : Tag.IsStart inside) (d : Dialect) :
    (elementOf d inside).WellFormed d where
  name := h.isElementName.keep d
  attributes := by
    intro a ha
    obtain ⟨b, hb, rfl⟩ := List.mem_map.1 ha
    exact (Tag.isAttributeName_of_mem_readAttributes hb).keep d
  lower := by
    intro hd
    have hlower : ∀ t, Text.lower (d.keep t) = d.keep t := fun t => by
      rw [Dialect.keep_of_ignoresCase hd, Text.lower_lower]
    refine ⟨hlower _, fun a ha => ?_⟩
    obtain ⟨b, -, rfl⟩ := List.mem_map.1 ha
    exact hlower _
  isVoid := by
    intro hv
    have hv' : d.isVoid (d.keep (Tag.name inside)) = true := hv
    rw [elementOf, hv', Bool.or_true]

/-- Tokens that the trees they are put into can hold. -/
def WellFormed (d : Dialect) : Token → Prop
  | .leaf l => l.WellFormed
  | .startTag e => e.WellFormed d ∧ (holdsRawText e.name = true → e.isVoid = true)
  | .rawElement e content =>
    e.WellFormed d ∧ e.isVoid = false ∧ holdsRawText e.name = true ∧ HoldsNoEndTag e.name content
  | .endTag _ => True

theorem Reading.wellFormed {s rest : Text} {t : Token} (h : Reading d s t rest) : t.WellFormed d := by
  cases h with
  | characters hne => exact mt Entity.decode_eq_nil_iff.1 hne
  | lessThan => exact List.cons_ne_nil _ _
  | leaf _ hl => exact hl
  | endTag => trivial
  | startTag h hraw =>
    refine ⟨elementOf_wellFormed h d, fun hr => hraw ?_⟩
    rwa [elementOf, holdsRawText_keep] at hr
  | rawElement h hraw hvoid hc =>
    refine ⟨elementOf_wellFormed h d, hvoid, ?_, ?_⟩
    · rwa [elementOf, holdsRawText_keep]
    · rwa [elementOf, holdsNoEndTag_keep]

theorem wellFormed_of_mem_readAll {s : Text} (h : (readAll d s).fault? = none) :
    ∀ t ∈ (readAll d s).tokens, t.WellFormed d := by
  refine readAll_induct (P := fun s => ∀ t ∈ (readAll d s).tokens, t.WellFormed d) ?_ ?_ s h
  · intro t ht
    rw [readAll_nil] at ht
    cases ht
  · intro s t rest hr _ ih u hu
    rw [readAll_of_reading hr] at hu
    rcases List.mem_cons.1 hu with rfl | hu
    · exact hr.wellFormed
    · exact ih u hu

end Token

/-! ## Trees side by side -/

theorem Forest.WellFormed.nil (d : Dialect) (above : List Text) : Forest.WellFormed d above [] :=
  ⟨.nil, fun _ h => nomatch h⟩

theorem Forest.WellFormed.cons {above : List Text} {t : Tree} {f : Forest} (ht : t.WellFormed d above)
    (hf : Forest.WellFormed d above f) (ha : ∀ u ∈ f.head?, t.isText = false ∨ u.isText = false) :
    Forest.WellFormed d above (t :: f) :=
  ⟨List.isChain_cons.2 ⟨ha, hf.textsApart⟩, List.forall_mem_cons.2 ⟨ht, hf.trees⟩⟩

theorem Forest.WellFormed.cons_of_not_isText {above : List Text} {t : Tree} {f : Forest} (ht : t.WellFormed d above)
    (hf : Forest.WellFormed d above f) (ha : t.isText = false) : Forest.WellFormed d above (t :: f) :=
  hf.cons ht fun _ _ => .inl ha

/-- Which character data stands before trees makes no difference, as long as there is some. -/
theorem Forest.WellFormed.text_congr {above : List Text} {t u : Text} {f : Forest}
    (h : Forest.WellFormed d above (.leaf (.text t) :: f)) (hu : u ≠ []) :
    Forest.WellFormed d above (.leaf (.text u) :: f) :=
  ⟨List.isChain_cons.2 (List.isChain_cons.1 h.textsApart),
    List.forall_mem_cons.2 ⟨.leaf hu, (List.forall_mem_cons.1 h.trees).2⟩⟩

theorem Forest.isText_of_mem_head? {f : Forest} (h : ∀ u g, f ≠ .leaf (.text u) :: g) :
    ∀ t ∈ f.head?, t.isText = false := by
  intro t ht
  obtain ⟨g, hg⟩ := List.head?_eq_some_iff.1 ht
  cases t with
  | element e content => rfl
  | leaf l =>
    cases l with
    | text u => exact absurd hg (h u g)
    | _ => rfl

theorem Forest.WellFormed.reverse {above : List Text} {f : Forest} (h : Forest.WellFormed d above f) :
    Forest.WellFormed d above f.reverse := by
  refine ⟨?_, fun t ht => h.trees t (List.mem_reverse.1 ht)⟩
  rw [Forest.TextsApart, List.isChain_reverse]
  exact h.textsApart.imp fun _ _ h => h.symm

/-! ## Open elements -/

namespace Nesting

/-- Open elements, innermost first, that may stand where they do and have well-formed content so far. -/
def OpenedWell (d : Dialect) : List OpenElement → Prop
  | [] => True
  | o :: outer =>
    o.element.WellFormed d ∧ o.element.isVoid = false ∧ holdsRawText o.element.name = false ∧
      MayStandIn d (outer.map fun o => o.element.name) o.element.name ∧
      Forest.WellFormed d (outer.map fun o => o.element.name) o.before ∧ OpenedWell d outer

/-- All that has been put together so far is well-formed where it stands. -/
structure WellFormed (d : Dialect) (n : Nesting) : Prop where
  opened : OpenedWell d n.opened
  content : Forest.WellFormed d n.names n.content

variable {n : Nesting}

theorem wellFormed_empty (d : Dialect) : empty.WellFormed d := ⟨trivial, .nil d []⟩

theorem OpenedWell.isNested {opened : List OpenElement} (h : OpenedWell d opened) :
    IsNested d (opened.map fun o => o.element.name) := by
  induction opened with
  | nil => trivial
  | cons o outer ih =>
    obtain ⟨-, -, -, hm, -, ho⟩ := h
    exact ⟨hm, ih ho⟩

theorem OpenedWell.of_mem {opened : List OpenElement} (h : OpenedWell d opened) :
    ∀ o ∈ opened, o.element.WellFormed d ∧ o.element.isVoid = false ∧ holdsRawText o.element.name = false := by
  induction opened with
  | nil => exact fun _ h => nomatch h
  | cons o outer ih =>
    obtain ⟨he, hv, hr, -, -, ho⟩ := h
    exact List.forall_mem_cons.2 ⟨⟨he, hv, hr⟩, ih ho⟩

theorem WellFormed.isNested (h : n.WellFormed d) : IsNested d n.names := h.opened.isNested

theorem WellFormed.add {t : Tree} (h : n.WellFormed d) (ht : t.WellFormed d n.names) (hn : t.isText = false) :
    (n.add t).WellFormed d :=
  ⟨h.opened, h.content.cons_of_not_isText ht hn⟩

theorem WellFormed.addText {t : Text} (h : n.WellFormed d) (ht : t ≠ []) : (n.addText t).WellFormed d := by
  rw [Nesting.addText, if_neg ht]
  have hc := h.content
  split
  · next u before he =>
    rw [he] at hc
    exact ⟨h.opened, hc.text_congr (by simp [ht])⟩
  · next hne => exact ⟨h.opened, hc.cons (.leaf ht) fun u hu => .inr (Forest.isText_of_mem_head? hne u hu)⟩

theorem WellFormed.addLeaf {l : Leaf} (h : n.WellFormed d) (hl : l.WellFormed) : (n.addLeaf l).WellFormed d := by
  cases l with
  | text t => exact h.addText hl
  | _ => exact h.add (.leaf hl) rfl

theorem WellFormed.leave (h : n.WellFormed d) : n.leave.WellFormed d := by
  obtain ⟨opened, content⟩ := n
  cases opened with
  | nil => exact h
  | cons o outer =>
    obtain ⟨⟨he, hv, hr, hm, hb, ho⟩, hc⟩ := h
    have hc' := hc.reverse
    exact ⟨ho, hb.cons_of_not_isText (.element he hm hv hr hc'.textsApart hc'.trees) rfl⟩

theorem WellFormed.close (h : n.WellFormed d) (k : Nat) : (n.close k).WellFormed d := by
  induction k generalizing n with
  | zero => exact h
  | succ k ih => exact ih h.leave

theorem WellFormed.makeRoom (h : n.WellFormed d) (name : Text) : (n.makeRoom d name).WellFormed d := by
  unfold Nesting.makeRoom
  split
  · exact h
  · exact h.close _

theorem isRawContent_rawContent {name content : Text} (h : HoldsNoEndTag name content) :
    IsRawContent name (rawContent content) := by
  unfold rawContent
  split
  · exact .inl rfl
  · next hne => exact .inr ⟨content, hne, rfl, h⟩

/-- Each token that is put in keeps everything well-formed. -/
theorem WellFormed.step {t : Token} (h : n.WellFormed d) (ht : t.WellFormed d) : (n.step d t).WellFormed d := by
  cases t with
  | leaf l => exact h.addLeaf ht
  | startTag e =>
    -- the start tag has first closed what the element may not stand in
    obtain ⟨he, hr⟩ := ht
    have hm : MayStandIn d (n.makeRoom d e.name).names e.name := mayStandIn_makeRoom h.isNested
    have hroom := h.makeRoom e.name
    rw [Nesting.step]
    split
    · next hv => exact hroom.add (.void he hm hv) rfl
    · next hv =>
      rw [Bool.not_eq_true] at hv
      have hr' : holdsRawText e.name = false := by
        rw [Bool.eq_false_iff]
        intro hraw
        rw [hr hraw] at hv
        cases hv
      exact ⟨⟨he, hv, hr', hm, hroom.content, hroom.opened⟩, .nil d _⟩
  | rawElement e content =>
    obtain ⟨he, hv, hr, hc⟩ := ht
    exact (h.makeRoom e.name).add
      (.raw he (mayStandIn_makeRoom h.isNested) hv hr (isRawContent_rawContent hc)) rfl
  | endTag name => exact h.close _

theorem WellFormed.steps {ts : List Token} (h : n.WellFormed d) (ht : ∀ t ∈ ts, t.WellFormed d) :
    (n.steps d ts).WellFormed d := by
  induction ts generalizing n with
  | nil => exact h
  | cons t ts ih =>
    rw [List.forall_mem_cons] at ht
    exact ih (h.step ht.1) ht.2

theorem WellFormed.finish (h : n.WellFormed d) : Forest.WellFormed d [] n.finish := by
  have hc := (h.close n.opened.length).content
  rw [names_close, List.drop_eq_nil_of_le (by simp [names])] at hc
  exact hc.reverse

end Nesting

/-! ## Whole templates -/

/-- The open elements after a text that can be read to its end, and all that stands in them, are well-formed. -/
theorem Nesting.wellFormed_of_readAll {s : Text} (h : (Token.readAll d s).fault? = none) :
    (empty.steps d (Token.readAll d s).tokens).WellFormed d :=
  (wellFormed_empty d).steps (Token.wellFormed_of_mem_readAll h)

theorem Forest.wellFormed_of_parse {s : Text} {f : Forest} (h : Forest.parse d s = .ok f) : Forest.WellFormed d [] f := by
  have hf := Forest.fault?_of_parse h
  have hw := (Nesting.wellFormed_of_readAll hf).finish
  rw [Forest.parse_eq_ok_iff, Nesting.readOn, hf] at h
  obtain rfl := Except.ok.inj h
  exact hw

end MailTemplate
