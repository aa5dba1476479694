import MailTemplate.Markup.Printer
import MailTemplate.Proofs.Markup.Kept
import MailTemplate.Proofs.Markup.OpenElements
import MailTemplate.Proofs.Markup.Reading
/-!
# Reading what was written

A template written compactly is read back as the trees it was written from, with names as the dialect keeps them, but
for the entities in character data, which are decoded, and for double quotes in attribute values that hold quotes of
both kinds, which come back escaped (`Forest.asRead`). The open elements while a tree is read are those around it, so
that nothing is closed by the way (`readOn_compact`).
-/
namespace MailTemplate

/-! ## What is read back -/

/-- A value with its double quotes escaped. -/
def escapeQuotes (v : Text) : Text := v.flatMap fun c => if c = '"' then "&quot;".toList else [c]

/-- A value as it is read back: no quotes can stand around one that holds both kinds. -/
def requoted (v : Text) : Text := if '"' ∈ v ∧ '\'' ∈ v then escapeQuotes v else v

def Attribute.asRead (a : Attribute) : Attribute := { a with value := a.value.map requoted }

def Element.asRead (e : Element) : Element := { e with attributes := e.attributes.map Attribute.asRead }

def Leaf.asRead : Leaf → Leaf
  | .text t => .text (Entity.decode t)
  | l => l

mutual

/-- A tree as it is read back. -/
def Tree.asRead : Tree → Tree
  | .leaf l => .leaf l.asRead
  | .element e content => .element e.asRead (Forest.asRead content)

/-- Trees as they are read back. -/
def Forest.asRead : List Tree → Forest
  | [] => []
  | t :: ts => t.asRead :: Forest.asRead ts

end

theorem Tree.isText_asRead (t : Tree) : t.asRead.isText = t.isText := by
  cases t with
  | leaf l => cases l <;> rfl
  | element e content => rfl

theorem Forest.elements_asRead (f : Forest) :
    Forest.elements (Forest.asRead f) = (Forest.elements f).map Element.asRead := by
  induction f using Forest.induct with
  | nil => rfl
  | leaf l ts ih => exact ih
  | element e content ts ihc iht =>
    rw [Forest.asRead, Tree.asRead, Forest.elements, Tree.elements, ihc, iht, Forest.elements, Tree.elements,
      List.map_append, List.map_cons]

/-! ## Start tags -/

theorem not_mem_escapeQuotes (v : Text) : '"' ∉ escapeQuotes v := by
  intro h
  obtain ⟨c, -, hc⟩ := List.mem_flatMap.1 h
  split at hc
  · exact absurd hc (by decide)
  · next hne => exact hne (List.mem_singleton.1 hc).symm

/-- The quotes around a value do not stand in it as it is read back. -/
theorem exists_quoteValue (v : Text) :
    ∃ q, Text.isQuote q = true ∧ q ∉ requoted v ∧ quoteValue v = q :: (requoted v ++ [q]) := by
  unfold quoteValue requoted
  simp only [List.contains_iff_mem]
  by_cases hd : '"' ∈ v
  · by_cases hs : '\'' ∈ v
    · rw [if_pos hd, if_pos hs, if_pos ⟨hd, hs⟩]
      exact ⟨'"', by decide, not_mem_escapeQuotes v, rfl⟩
    · rw [if_pos hd, if_neg hs, if_neg fun h => hs h.2]
      exact ⟨'\'', by decide, hs, rfl⟩
  · rw [if_neg hd, if_neg fun h => hd h.1]
    exact ⟨'"', by decide, hd, rfl⟩

theorem spelling_print {as : List Attribute} (h : ∀ a ∈ as, IsAttributeName a.name) (closes : Bool) :
    Tag.Spelling closes (as.map Attribute.asRead)
      (as.flatMap Attribute.print ++ if closes then " /".toList else []) := by
  induction as with
  | nil =>
    cases closes with
    | true => exact .nil Text.allBlank_space
    | false => exact .nil Text.allBlank_nil
  | cons a as ih =>
    have ha := h a List.mem_cons_self
    have hrest := ih fun b hb => h b (List.mem_cons_of_mem a hb)
    obtain ⟨name, value⟩ := a
    cases value with
    | none =>
      have hs := Tag.Spelling.cons (List.cons_ne_nil ' ' []) Text.allBlank_space (.bare ha) hrest
      simpa [Attribute.asRead, Attribute.print] using hs
    | some v =>
      obtain ⟨q, hq, hv, he⟩ := exists_quoteValue v
      have hs := Tag.Spelling.cons (List.cons_ne_nil ' ' []) Text.allBlank_space
        (.quoted ha Text.allBlank_nil Text.allBlank_nil hq hv) hrest
      simpa [Attribute.asRead, Attribute.print, he] using hs

namespace Element

/-- What stands between `<` and the end mark of a start tag. -/
def tagText (e : Element) : Text :=
  e.name ++ (e.attributes.flatMap Attribute.print ++ if e.isVoid then " /".toList else [])

theorem startTag_eq (e : Element) : e.startTag = '<' :: (e.tagText ++ ['>']) := by
  unfold startTag tagText
  cases e.isVoid <;> simp

variable {d : Dialect} {e : Element} (he : (e.kept d).WellFormed d)
include he

theorem isElementName_of_kept : IsElementName e.name := he.name.of_keep

theorem spelling_of_kept : Tag.Spelling e.isVoid (e.attributes.map Attribute.asRead)
    (e.attributes.flatMap Attribute.print ++ if e.isVoid then " /".toList else []) :=
  spelling_print (fun a ha => (he.attributes (a.kept d) (List.mem_map_of_mem ha)).of_keep) e.isVoid

theorem isStart_tagText : Tag.IsStart e.tagText := by
  have hin := ((Tag.Passed.of_elementName (isElementName_of_kept he)).append (spelling_of_kept he).passed).end? []
  obtain ⟨c, more, hn, hc, -⟩ := isElementName_of_kept he
  exact ⟨hin, c, _, by rw [tagText, hn]; rfl, hc⟩

theorem name_tagText : Tag.name e.tagText = e.name :=
  Tag.name_spelling (isElementName_of_kept he) (spelling_of_kept he)

theorem elementOf_tagText : Token.elementOf d e.tagText = (e.kept d).asRead := by
  have hs := spelling_of_kept he
  have hattr : (Tag.attributes e.tagText).map (fun a => { a with name := d.keep a.name }) =
      (e.kept d).attributes.map Attribute.asRead := by
    rw [tagText, Tag.attributes_spelling (isElementName_of_kept he) hs, Element.kept, List.map_map, List.map_map]
    rfl
  have hvoid : (Tag.closesItself e.tagText || d.isVoid (d.keep e.name)) = e.isVoid := by
    rw [tagText, Tag.closesItself_spelling (isElementName_of_kept he) hs]
    cases h : e.isVoid with
    | true => rfl
    | false =>
      rw [Bool.false_or, Bool.eq_false_iff]
      intro hd
      have hv : e.isVoid = true := he.isVoid hd
      rw [h] at hv
      cases hv
  rw [Token.elementOf, name_tagText he, hattr, hvoid]
  rfl

end Element

/-! ## Reading -/

namespace Token

variable {d : Dialect} {e : Element} (he : (e.kept d).WellFormed d)
include he

theorem reading_startTag (hr : holdsRawText e.name = true → e.isVoid = true) (q : Text) :
    Reading d (e.startTag ++ q) (.startTag (e.kept d).asRead) q := by
  have h : Reading d ('<' :: (e.tagText ++ '>' :: q)) (.startTag (elementOf d e.tagText)) q :=
    .startTag (e.isStart_tagText he) (by rw [e.name_tagText he, e.elementOf_tagText he]; exact hr)
  rw [e.elementOf_tagText he] at h
  simpa [Element.startTag_eq] using h

theorem reading_rawElement (hr : holdsRawText e.name = true) (hv : e.isVoid = false) {content : Text}
    (hc : HoldsNoEndTag e.name content) (q : Text) :
    Reading d (e.startTag ++ (content ++ (e.endTag ++ q))) (.rawElement (e.kept d).asRead content) q := by
  have h : Reading d ('<' :: (e.tagText ++ '>' :: (content ++ ("</".toList ++ (e.name ++ ([] ++ '>' :: q))))))
      (.rawElement (elementOf d e.tagText) content) q :=
    .rawElement (e.isStart_tagText he) (by rw [e.name_tagText he, hr]) (by rw [e.elementOf_tagText he]; exact hv)
      (by rwa [e.name_tagText he]) (by rw [e.name_tagText he]; exact Text.sameLetters_iff.2 rfl) (by simp)
      List.not_mem_nil
  rw [e.elementOf_tagText he] at h
  simpa [Element.startTag_eq, Element.endTag] using h

end Token

namespace Nesting

variable {d : Dialect}

/-- Adds trees one after the other. -/
def addAll (n : Nesting) (f : Forest) : Nesting := { n with content := f.reverse ++ n.content }

theorem addAll_cons (n : Nesting) (t : Tree) (f : Forest) : n.addAll (t :: f) = (n.add t).addAll f := by
  simp [addAll, add]

theorem leave_addAll_enter (n : Nesting) (e : Element) (f : Forest) :
    ((n.enter e).addAll f).leave = n.add (.element e f) := by
  simp [addAll, enter, leave, add]

/-- Whether a tree stays apart from what stands just before it: two texts would join. -/
def Accepts (n : Nesting) (t : Tree) : Prop := t.isText = true → ∀ u ∈ n.content.head?, u.isText = false

theorem addText_of_accepts {n : Nesting} {t : Text} (ht : t ≠ []) (h : n.Accepts (.leaf (.text t))) :
    n.addText t = n.add (.leaf (.text t)) := by
  rw [addText, if_neg ht]
  split
  · next u before hc =>
    have := h rfl (.leaf (.text u)) (by rw [hc]; rfl)
    cases this
  · rfl

theorem readOn_leaf {l : Leaf} (hl : l.WellFormed) {n : Nesting} {q : Text} (hn : n.Accepts (.leaf l))
    (hq : l.isText = true → q.Breaks) :
    n.readOn d (l.print ++ q) = (n.add (.leaf l.asRead)).readOn d q := by
  cases l with
  | raw t => cases hl
  | text t =>
    have hr := Token.Reading.characters (d := d) (mt escapeText_eq_nil_iff.1 hl) (not_mem_escapeText t) (hq rfl)
    rw [Entity.decode_escapeText] at hr
    have ha : n.Accepts (.leaf (.text (Entity.decode t))) := hn
    change n.readOn d (escapeText t ++ q) = _
    rw [readOn_of_reading hr]
    exact congrArg (readOn d · q) (addText_of_accepts (mt Entity.decode_eq_nil_iff.1 hl) ha)
  | comment t | cdata t | declaration t | instruction t =>
    rw [readOn_of_reading (.leaf rfl hl)]
    rfl

theorem readOn_void {e : Element} (he : (e.kept d).WellFormed d) (hv : e.isVoid = true) {n : Nesting}
    (hm : MayStandIn d n.names (e.kept d).name) (q : Text) :
    n.readOn d (e.startTag ++ q) = (n.add (.element (e.kept d).asRead [])).readOn d q := by
  have hm' : MayStandIn d n.names (e.kept d).asRead.name := hm
  have hv' : (e.kept d).asRead.isVoid = true := hv
  rw [readOn_of_reading (Token.reading_startTag he (fun _ => hv) q), step, if_pos hv', makeRoom_of_mayStandIn hm']

theorem readOn_enter {e : Element} (he : (e.kept d).WellFormed d) (hv : e.isVoid = false)
    (hr : holdsRawText e.name = false) {n : Nesting} (hm : MayStandIn d n.names (e.kept d).name) (q : Text) :
    n.readOn d (e.startTag ++ q) = (n.enter (e.kept d).asRead).readOn d q := by
  have hm' : MayStandIn d n.names (e.kept d).asRead.name := hm
  have hv' : ¬ (e.kept d).asRead.isVoid = true := Bool.eq_false_iff.1 hv
  rw [readOn_of_reading (Token.reading_startTag he (by simp [hr]) q), step, if_neg hv', makeRoom_of_mayStandIn hm']

theorem readOn_leave {e : Element} (he : (e.kept d).WellFormed d) (n : Nesting) (f : Forest) (q : Text) :
    ((n.enter (e.kept d).asRead).addAll f).readOn d (e.endTag ++ q) =
      (n.add (.element (e.kept d).asRead f)).readOn d q := by
  have hs : d.sameName (e.kept d).asRead.name (d.keep e.name) = true := Dialect.sameName_self d _
  have ho : ((n.enter (e.kept d).asRead).addAll f).names = (e.kept d).asRead.name :: n.names := rfl
  rw [Element.endTag, readOn_endTag (e.isElementName_of_kept he), closeNamed_of_names_cons ho hs, leave_addAll_enter]

theorem rawContent_of_isRawContent {name : Text} {f : Forest} (h : IsRawContent name f) :
    ∃ content, HoldsNoEndTag name content ∧ Forest.compact f = content ∧ Forest.asRead f = rawContent content := by
  rcases h with rfl | ⟨t, hne, rfl, ht⟩
  · exact ⟨[], .nil name, rfl, rfl⟩
  · refine ⟨t, ht, ?_, ?_⟩
    · simp only [Forest.compact, Tree.compact, List.append_nil]
      rfl
    · rw [rawContent, if_neg hne]
      rfl

theorem readOn_raw {e : Element} (he : (e.kept d).WellFormed d) (hv : e.isVoid = false)
    (hr : holdsRawText e.name = true) {content : Text} (hc : HoldsNoEndTag e.name content) {n : Nesting}
    (hm : MayStandIn d n.names (e.kept d).name) (q : Text) :
    n.readOn d (e.startTag ++ (content ++ (e.endTag ++ q))) =
      (n.add (.element (e.kept d).asRead (rawContent content))).readOn d q := by
  have hm' : MayStandIn d n.names (e.kept d).asRead.name := hm
  rw [readOn_of_reading (Token.reading_rawElement he hr hv hc q), step, makeRoom_of_mayStandIn hm']

/-! ## Trees and forests -/

/-- Only character data does not begin with a `<`. -/
theorem breaks_compact {t : Tree} {above : List Text} (h : (t.kept d).WellFormed d above) (ht : t.isText = false)
    (q : Text) : Text.Breaks (t.compact ++ q) := by
  have hstart : ∀ (e : Element) (s : Text), Text.Breaks (e.startTag ++ s) := fun e s => by
    rw [Element.startTag_eq]
    exact .cons _
  cases t with
  | element e content =>
    rw [Tree.compact]
    split
    · exact hstart e q
    · rw [List.append_assoc, List.append_assoc]
      exact hstart e _
  | leaf l =>
    cases h with
    | leaf hl =>
      obtain ⟨s, hs, -⟩ := Token.read_print (d := d) ht hl q
      rw [Tree.compact, hs]
      exact .cons _

/-- Trees that are each read back by themselves are read back one after the other. -/
theorem readOn_compact_of_trees {above : List Text} {f : Forest} (hf : Forest.TextsApart f)
    (hw : ∀ t ∈ f, (t.kept d).WellFormed d above)
    (ht : ∀ t ∈ f, ∀ (n : Nesting) (q : Text), n.names = above → n.Accepts t → (t.isText = true → q.Breaks) →
      n.readOn d (t.compact ++ q) = (n.add (t.kept d).asRead).readOn d q)
    {n : Nesting} (hn : n.names = above) (ha : ∀ t ∈ f.head?, n.Accepts t) {q : Text} (hq : q.Breaks) :
    n.readOn d (Forest.compact f ++ q) = (n.addAll (Forest.asRead (Forest.kept d f))).readOn d q := by
  induction f generalizing n with
  | nil => rfl
  | cons t f ih =>
    rw [Forest.TextsApart, List.isChain_cons] at hf
    -- character data is followed by something that begins with a `<`, or by the end
    have hbreaks : t.isText = true → Text.Breaks (Forest.compact f ++ q) := by
      intro htext
      cases f with
      | nil => exact hq
      | cons u f =>
        rcases hf.1 u rfl with h | h
        · rw [h] at htext
          cases htext
        · rw [Forest.compact, List.append_assoc]
          exact breaks_compact (hw u (by simp)) h _
    -- and the tree that was just added is not character data if the next one is
    have hacc : ∀ u ∈ f.head?, (n.add (t.kept d).asRead).Accepts u := by
      rintro u hu hutext v ⟨⟩
      rw [Tree.isText_asRead, Tree.isText_kept]
      rcases hf.1 u hu with h | h
      · exact h
      · rw [h] at hutext
        cases hutext
    rw [Forest.compact, List.append_assoc, ht t List.mem_cons_self n _ hn (ha t rfl) hbreaks, Forest.kept, Forest.asRead,
      addAll_cons]
    exact ih hf.2 (fun u hu => hw u (List.mem_cons_of_mem t hu)) (fun u hu => ht u (List.mem_cons_of_mem t hu)) hn hacc

/-- A tree is read back where it may stand, however its names are spelled. -/
theorem readOn_compact {above : List Text} {t : Tree} (h : (t.kept d).WellFormed d above) (n : Nesting) (q : Text)
    (hn : n.names = above) (ha : n.Accepts t) (hq : t.isText = true → q.Breaks) :
    n.readOn d (t.compact ++ q) = (n.add (t.kept d).asRead).readOn d q := by
  generalize hu : t.kept d = u at h
  induction h generalizing t n q with
  | @leaf above l hl =>
    cases t with
    | element e content => cases hu
    | leaf l' =>
      obtain rfl := Tree.leaf.inj hu
      exact readOn_leaf hl ha hq
  | void he hm hv =>
    obtain ⟨e, content, rfl, rfl, -⟩ := Tree.exists_of_kept_eq_element hu
    subst hn
    have hv' : e.isVoid = true := hv
    rw [Tree.compact, if_pos hv']
    exact readOn_void he hv' hm q
  | raw he hm hv hr hc =>
    obtain ⟨e, content, rfl, rfl, rfl⟩ := Tree.exists_of_kept_eq_element hu
    subst hn
    have hv' : e.isVoid = false := hv
    have hr' : holdsRawText e.name = true := by
      rw [← holdsRawText_keep d]
      exact hr
    have hkept := hc.of_kept
    rw [hkept] at hc ⊢
    obtain ⟨raw, hraw, hcompact, hread⟩ := rawContent_of_isRawContent hc
    rw [Tree.compact, if_neg (by simp [hv']), hcompact, Tree.asRead, hread, List.append_assoc, List.append_assoc]
    exact readOn_raw he hv' hr' ((holdsNoEndTag_keep d).1 hraw) hm q
  | @element above e' content' he hm hv hr hcontent hw ih =>
    obtain ⟨e, content, rfl, rfl, rfl⟩ := Tree.exists_of_kept_eq_element hu
    subst hn
    have hnames : (n.enter (e.kept d).asRead).names = (e.kept d).name :: n.names := rfl
    have hacc : ∀ t ∈ content.head?, (n.enter (e.kept d).asRead).Accepts t := by
      rintro t - - u ⟨⟩
    have hend : Text.Breaks (e.endTag ++ q) := .cons _
    have hv' : e.isVoid = false := hv
    have hr' : holdsRawText e.name = false := by
      rw [← holdsRawText_keep d]
      exact hr
    have hw' : ∀ t ∈ content, (t.kept d).WellFormed d ((e.kept d).name :: n.names) := fun t ht =>
      hw _ (Forest.mem_kept_of_mem ht)
    rw [Tree.compact, if_neg (by simp [hv']), List.append_assoc, List.append_assoc, readOn_enter he hv' hr' hm,
      readOn_compact_of_trees (Forest.textsApart_of_kept hcontent) hw'
        (fun t ht n q hn ha hq => ih _ (Forest.mem_kept_of_mem ht) n q hn ha hq rfl) hnames hacc hend,
      readOn_leave he, Tree.asRead]

end Nesting

/-- Trees that are well-formed as they are kept are read back from their compact form. -/
theorem Forest.readOn_compact_of_kept {d : Dialect} {f : Forest} (h : Forest.WellFormed d [] (Forest.kept d f)) :
    Nesting.empty.readOn d (Forest.compact f) = .ok (Forest.asRead (Forest.kept d f)) := by
  have hw : ∀ t ∈ f, (t.kept d).WellFormed d [] := fun t ht => h.trees _ (Forest.mem_kept_of_mem ht)
  have hr := Nesting.readOn_compact_of_trees (Forest.textsApart_of_kept h.textsApart) hw
    (fun t ht n q => Nesting.readOn_compact (hw t ht) n q) (n := Nesting.empty) rfl (by rintro t - - u ⟨⟩) .nil
  rw [List.append_nil] at hr
  rw [hr, Nesting.readOn_nil, Nesting.finish]
  simp [Nesting.addAll, Nesting.empty, Nesting.close]

/-- Well-formed trees are read back from their compact form. -/
theorem Forest.WellFormed.readOn_compact {d : Dialect} {f : Forest} (h : Forest.WellFormed d [] f) :
    Nesting.empty.readOn d (Forest.compact f) = .ok (Forest.asRead f) := by
  have hr := Forest.readOn_compact_of_kept (d := d) (f := f)
  rw [h.kept_eq] at hr
  exact hr h

/-- Every well-formed template, written compactly, is read back as it was but for its entities and the double quotes
that were escaped. -/
theorem Forest.parse_compact {d : Dialect} {f : Forest} (h : Forest.WellFormed d [] f) :
    Forest.parse d (Forest.print false f) = .ok (Forest.asRead f) :=
  Forest.parse_eq_ok_iff.2 h.readOn_compact

/-- `<p id="a&quot;'b">&lt;<br /></p>` as a tree whose character data is an entity. -/
def paragraph : Tree :=
  .element ⟨"p".toList, [⟨"id".toList, some "a\"'b".toList⟩], false⟩
    [.leaf (.text "&lt;".toList), .element ⟨"br".toList, [], true⟩ []]

theorem wellFormed_paragraph : Forest.WellFormed Dialect.jelly [] [paragraph] := by
  have hp : Element.WellFormed Dialect.jelly ⟨"p".toList, [⟨"id".toList, some "a\"'b".toList⟩], false⟩ := by
    refine ⟨⟨'p', [], rfl, by decide, by simp⟩, ?_, by decide, by decide⟩
    intro a ha
    rw [List.mem_singleton.1 ha]
    exact ⟨List.cons_ne_nil _ _, List.all_eq_true.1 (by decide)⟩
  have hbr : Element.WellFormed Dialect.jelly ⟨"br".toList, [], true⟩ :=
    ⟨⟨'b', ['r'], rfl, by decide, List.all_eq_true.1 (by decide)⟩, by simp, by decide, by decide⟩
  have hin : MayStandIn Dialect.jelly ["p".toList] "br".toList :=
    (mayStandIn_cons_iff (by decide)).2 ⟨by decide, .inr (.nil _ _)⟩
  refine ⟨.singleton _, fun t ht => ?_⟩
  rw [List.mem_singleton.1 ht]
  refine .element hp (.nil _ _) rfl (by decide) ?_ fun u hu => ?_
  · exact .cons_cons (.inr rfl) (.singleton _)
  · rcases List.mem_pair.1 hu with rfl | rfl
    · exact .leaf (List.cons_ne_nil _ _)
    · exact .void hbr hin rfl

theorem parse_compact_paragraph : Forest.WellFormed Dialect.jelly [] [paragraph] ∧
    Forest.parse Dialect.jelly "<p id=\"a&quot;'b\">&lt;<br /></p>".toList = .ok (Forest.asRead [paragraph]) :=
  ⟨wellFormed_paragraph, Forest.parse_compact wellFormed_paragraph⟩

end MailTemplate
