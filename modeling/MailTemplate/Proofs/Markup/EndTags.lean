import MailTemplate.Proofs.Markup.Invariant
/-!
# End tags that are missing, repeated or out of place

Whatever a tag closes without saying so, end tags could have closed just as well: an end tag that closes nothing can be
left out, one that closes several elements stands for an end tag for each, a start tag that closes an element of its own
name stands for the end tag before it, and so does the end of a template for the end tags of all that is open
(`readAlike_endTags`).
-/
namespace MailTemplate

/-- Two templates that say the same, or neither of which can be read, for the same fault. -/
def ReadAlike (d : Dialect) (s s' : Text) : Prop :=
  (∃ f, Forest.parse d s = .ok f ∧ Forest.parse d s' = .ok f) ∨
    ∃ e e', Forest.parse d s = .error e ∧ Forest.parse d s' = .error e' ∧ e.fault = e'.fault

/-- The end tag for a name. -/
def endTagFor (name : Text) : Text := "</".toList ++ name ++ ">".toList

/-- The names of the elements that are open at the end of a text, innermost first. -/
def openNames (d : Dialect) (s : Text) : List Text := (Nesting.empty.steps d (Token.readAll d s).tokens).names

variable {d : Dialect}

theorem ReadAlike.of_readOn {s s' : Text} (h : Nesting.empty.readOn d s = Nesting.empty.readOn d s') :
    ReadAlike d s s' := by
  rw [← Forest.parse_eq_readOn, ← Forest.parse_eq_readOn] at h
  cases hs : Forest.parse d s with
  | ok f =>
    cases hs' : Forest.parse d s' with
    | ok f' =>
      rw [hs, hs'] at h
      obtain rfl := Except.ok.inj h
      exact .inl ⟨f, hs, hs'⟩
    | error e =>
      rw [hs, hs'] at h
      cases h
  | error e =>
    cases hs' : Forest.parse d s' with
    | ok f' =>
      rw [hs, hs'] at h
      cases h
    | error e' =>
      rw [hs, hs'] at h
      exact .inr ⟨e, e', hs, hs', Except.error.inj h⟩

/-! ## Start tags -/

/-- What begins with a start tag begins with it in every token that it is read as. -/
theorem Token.cases_of_read_isStart {inside s rest : Text} {t : Token} (h : Tag.IsStart inside)
    (hr : read d '<' (inside ++ '>' :: s) = .ok (t, rest)) :
    t = .startTag (elementOf d inside) ∨ ∃ content, t = .rawElement (elementOf d inside) content := by
  rw [read, opening_tag (opens_of_isStart h _)] at hr
  simp only [readTag, h.1.end? s, if_neg h.head?_ne] at hr
  split at hr
  · split at hr
    · cases hr
    · next content r _ =>
      simp only [Except.ok.injEq, Prod.mk.injEq] at hr
      exact .inr ⟨content, hr.1.symm⟩
  · simp only [Except.ok.injEq, Prod.mk.injEq] at hr
    exact .inl hr.1.symm

namespace Nesting

variable {n m : Nesting}

theorem step_startTag_congr {e : Element} (h : n.makeRoom d e.name = m.makeRoom d e.name) :
    n.step d (.startTag e) = m.step d (.startTag e) := by
  rw [step, step, h]

theorem step_rawElement_congr {e : Element} (h : n.makeRoom d e.name = m.makeRoom d e.name) (content : Text) :
    n.step d (.rawElement e content) = m.step d (.rawElement e content) := by
  rw [step, step, h]

/-- Before a start tag only what it leaves open counts. -/
theorem readOn_isStart_congr {inside : Text} (hs : Tag.IsStart inside)
    (h : n.makeRoom d (d.keep (Tag.name inside)) = m.makeRoom d (d.keep (Tag.name inside))) (s : Text) :
    n.readOn d ('<' :: (inside ++ '>' :: s)) = m.readOn d ('<' :: (inside ++ '>' :: s)) := by
  cases hr : Token.read d '<' (inside ++ '>' :: s) with
  | error f => rw [readOn, readOn, Token.readAll_of_error hr]
  | ok r =>
    obtain ⟨t, rest⟩ := r
    have hstep : n.step d t = m.step d t := by
      rcases Token.cases_of_read_isStart hs hr with rfl | ⟨content, rfl⟩
      · exact step_startTag_congr h
      · exact step_rawElement_congr h content
    rw [readOn_of_reading (Token.reading_of_read hr), readOn_of_reading (Token.reading_of_read hr), hstep]

/-- A start tag that closes an element of its own name finds nothing to close where that one is closed already. -/
theorem makeRoom_close {inner outer : List Text} {a name : Text} (hi : IsNested d n.names)
    (h : n.names = inner ++ a :: outer) (hn : d.isNestable name = false)
    (hinner : ∀ b ∈ inner, d.sameName b name = false ∧ d.isNestable b = false) (ha : d.sameName a name = true) :
    n.makeRoom d name = (n.close (inner.length + 1)).makeRoom d name := by
  have hnames : (n.close (inner.length + 1)).names = outer := by
    rw [names_close, h, List.drop_append]
    simp
  -- what the closed element could stand in, another one of its name can stand in
  have hstands : MayStandIn d outer name := by
    have hdrop := hi.drop inner.length
    rw [h, List.drop_left] at hdrop
    exact hdrop.1.congr ha
  rw [makeRoom_of_names h hn hinner ha, makeRoom_of_mayStandIn (by rwa [hnames])]

/-! ## End tags -/

theorem readOn_endTagFor {name : Text} (hn : IsElementName name) (s : Text) :
    n.readOn d (endTagFor name ++ s) = (n.closeNamed d (d.keep name)).readOn d s := readOn_endTag hn

/-- The end tags of the innermost elements, each in its turn, close these. -/
theorem readOn_endTags {inner outer : List Text} (h : n.names = inner ++ outer) (hn : ∀ a ∈ inner, IsElementName a)
    (s : Text) : n.readOn d (inner.flatMap endTagFor ++ s) = (n.close inner.length).readOn d s := by
  induction inner generalizing n with
  | nil => rfl
  | cons a inner ih =>
    rw [List.forall_mem_cons] at hn
    have hsame : d.sameName a (d.keep a) = true := by rw [Dialect.sameName_keep, Dialect.sameName_self]
    have hleave : n.leave.names = inner ++ outer := by
      rw [names, opened_leave, List.map_drop, ← names, h]
      rfl
    rw [List.flatMap_cons, List.append_assoc, readOn_endTagFor hn.1, closeNamed_of_names_cons h hsame, ih hleave hn.2,
      List.length_cons, close]

end Nesting

theorem Text.Breaks.endTag (name s : Text) : Text.Breaks (endTagFor name ++ s) := .cons _

theorem Text.Breaks.endTags (names : List Text) {s : Text} (hs : s.Breaks) :
    Text.Breaks (names.flatMap endTagFor ++ s) := by
  cases names with
  | nil => exact hs
  | cons a names => exact .cons _

/-! ## Whole templates -/

section Templates

variable {p : Text} (hp : (Token.readAll d p).fault? = none)
include hp

/-- What follows a text is read on from what that text leaves open. -/
theorem exists_nesting : ∃ n : Nesting, n.names = openNames d p ∧ IsNested d n.names ∧
    (∀ a ∈ n.names, IsElementName a) ∧ ∀ s : Text, s.Breaks → Nesting.empty.readOn d (p ++ s) = n.readOn d s := by
  have hw := Nesting.wellFormed_of_readAll hp
  refine ⟨_, rfl, hw.isNested, ?_, fun s hs => Nesting.readOn_append hp hs⟩
  intro a ha
  obtain ⟨o, ho, rfl⟩ := List.mem_map.1 ha
  exact (hw.opened.of_mem o ho).1.name

/-- An end tag for nothing that is open can be left out. -/
theorem readAlike_stray {q : Text} (hq : q.Breaks) {x : Text} (hx : IsElementName x)
    (hn : ∀ a ∈ openNames d p, d.sameName a x = false) : ReadAlike d (p ++ endTagFor x ++ q) (p ++ q) := by
  obtain ⟨n, hnames, -, -, hread⟩ := exists_nesting hp
  refine .of_readOn ?_
  have hclose : n.closeNamed d (d.keep x) = n := Nesting.closeNamed_of_none fun a ha => by
    rw [Dialect.sameName_keep, hn a (hnames ▸ ha)]
  rw [List.append_assoc, hread _ (.endTag x q), hread q hq, Nesting.readOn_endTagFor hx, hclose]

/-- An end tag stands for the end tags of all that it closes. -/
theorem readAlike_several {x a : Text} {inner outer : List Text}
    (hn : openNames d p = inner ++ a :: outer) (hi : ∀ b ∈ inner, d.sameName b x = false)
    (ha : d.sameName a x = true) (q : Text) :
    ReadAlike d (p ++ endTagFor x ++ q) (p ++ inner.flatMap endTagFor ++ endTagFor x ++ q) := by
  obtain ⟨n, hnames, -, hnamed, hread⟩ := exists_nesting hp
  rw [← hnames] at hn
  rw [hn] at hnamed
  have hx : IsElementName x := (hnamed a (by simp)).congr ha
  have hclose : n.closeNamed d (d.keep x) = n.close (inner.length + 1) :=
    Nesting.closeNamed_of_names hn (fun b hb => by rw [Dialect.sameName_keep, hi b hb])
      (by rw [Dialect.sameName_keep, ha])
  have hlast : (n.close inner.length).names = a :: outer := by rw [Nesting.names_close, hn, List.drop_left]
  have hleave : (n.close inner.length).closeNamed d (d.keep x) = (n.close inner.length).leave :=
    Nesting.closeNamed_of_names_cons hlast (by rw [Dialect.sameName_keep, ha])
  refine .of_readOn ?_
  calc Nesting.empty.readOn d (p ++ endTagFor x ++ q)
    _ = (n.close (inner.length + 1)).readOn d q := by
      rw [List.append_assoc, hread _ (.endTag x q), Nesting.readOn_endTagFor hx, hclose]
    _ = ((n.close inner.length).closeNamed d (d.keep x)).readOn d q := by
      rw [hleave, Nesting.close_add]
      rfl
    _ = (n.close inner.length).readOn d (endTagFor x ++ q) := (Nesting.readOn_endTagFor hx q).symm
    _ = n.readOn d (inner.flatMap endTagFor ++ (endTagFor x ++ q)) :=
      (Nesting.readOn_endTags hn (fun b hb => hnamed b (by simp [hb])) _).symm
    _ = Nesting.empty.readOn d (p ++ inner.flatMap endTagFor ++ endTagFor x ++ q) := by
      rw [List.append_assoc, List.append_assoc, hread _ (.endTags inner (.endTag x q))]

/-- A start tag that may not nest stands for an end tag before it. -/
theorem readAlike_repeated {inside a : Text} {inner outer : List Text} (hs : Tag.IsStart inside)
    (hnest : d.isNestable (Tag.name inside) = false) (hn : openNames d p = inner ++ a :: outer)
    (hi : ∀ b ∈ inner, d.sameName b (Tag.name inside) = false ∧ d.isNestable b = false)
    (ha : d.sameName a (Tag.name inside) = true) (q : Text) :
    ReadAlike d (p ++ '<' :: (inside ++ '>' :: q))
      (p ++ endTagFor (Tag.name inside) ++ '<' :: (inside ++ '>' :: q)) := by
  obtain ⟨n, hnames, hnested, -, hread⟩ := exists_nesting hp
  rw [← hnames] at hn
  have hnest' : d.isNestable (d.keep (Tag.name inside)) = false := by rw [Dialect.isNestable_keep, hnest]
  have hi' : ∀ b ∈ inner, d.sameName b (d.keep (Tag.name inside)) = false ∧ d.isNestable b = false := fun b hb => by
    rw [Dialect.sameName_keep]
    exact hi b hb
  have ha' : d.sameName a (d.keep (Tag.name inside)) = true := by rw [Dialect.sameName_keep, ha]
  have hclose : n.closeNamed d (d.keep (Tag.name inside)) = n.close (inner.length + 1) :=
    Nesting.closeNamed_of_names hn (fun b hb => (hi' b hb).1) ha'
  have hroom := Nesting.makeRoom_close hnested hn hnest' hi' ha'
  refine .of_readOn ?_
  rw [List.append_assoc, hread _ (.cons _), hread _ (.endTag _ _), Nesting.readOn_endTagFor hs.isElementName, hclose,
    Nesting.readOn_isStart_congr hs hroom]

/-- The end of a template stands for the end tags of all that is open. -/
theorem readAlike_end : ReadAlike d p (p ++ (openNames d p).flatMap endTagFor) := by
  obtain ⟨n, hnames, -, hnamed, hread⟩ := exists_nesting hp
  have hstart := hread [] .nil
  have hend := hread _ (Text.Breaks.endTags n.names .nil)
  have hall : n.names = n.names ++ [] := (List.append_nil _).symm
  have hlen : n.names.length = n.opened.length := List.length_map _
  have hopened : (n.close n.opened.length).opened = [] := by rw [Nesting.opened_close, List.drop_length]
  have hfinish : (n.close n.opened.length).finish = n.finish := by
    rw [Nesting.finish, hopened]
    rfl
  refine .of_readOn ?_
  rw [Nesting.readOn_endTags hall hnamed, Nesting.readOn_nil, hlen, hfinish, List.append_nil] at hend
  rw [List.append_nil, Nesting.readOn_nil] at hstart
  rw [← hnames, hend, hstart]

end Templates

/-- Every tag that closes more than it says, and the end of a template, can be had with end tags that say so. -/
theorem readAlike_endTags {p q : Text} {f : Forest} (hp : Forest.parse d p = .ok f) (hq : q.Breaks) :
    (∀ x, IsElementName x → (∀ a ∈ openNames d p, d.sameName a x = false) →
      ReadAlike d (p ++ endTagFor x ++ q) (p ++ q)) ∧
    (∀ x inner a outer, openNames d p = inner ++ a :: outer → (∀ b ∈ inner, d.sameName b x = false) →
      d.sameName a x = true →
      ReadAlike d (p ++ endTagFor x ++ q) (p ++ inner.flatMap endTagFor ++ endTagFor x ++ q)) ∧
    (∀ inside inner a outer, Tag.IsStart inside → d.isNestable (Tag.name inside) = false →
      openNames d p = inner ++ a :: outer →
      (∀ b ∈ inner, d.sameName b (Tag.name inside) = false ∧ d.isNestable b = false) →
      d.sameName a (Tag.name inside) = true →
      ReadAlike d (p ++ '<' :: (inside ++ '>' :: q))
        (p ++ endTagFor (Tag.name inside) ++ '<' :: (inside ++ '>' :: q))) ∧
    Forest.parse d (p ++ (openNames d p).flatMap endTagFor) = .ok f := by
  have hf := Forest.fault?_of_parse hp
  refine ⟨fun x => readAlike_stray hf hq, fun x inner a outer hn hi ha => readAlike_several hf hn hi ha q,
    fun inside inner a outer hs hnest hn hi ha => readAlike_repeated hf hs hnest hn hi ha q, ?_⟩
  rcases readAlike_end hf with ⟨g, hg, hend⟩ | ⟨e, e', he, -⟩
  · rw [hp] at hg
    obtain rfl := Except.ok.inj hg
    exact hend
  · rw [hp] at he
    cases he

theorem parse_row : Forest.parse Dialect.jelly "<table><tr><td>a".toList =
    .ok [.element ⟨"table".toList, [], false⟩ [.element ⟨"tr".toList, [], false⟩
      [.element ⟨"td".toList, [], false⟩ [.leaf (.text "a".toList)]]]] :=
  Forest.parse_of_readAll (by decide +kernel)
    (show _ = [.startTag ⟨"table".toList, [], false⟩, .startTag ⟨"tr".toList, [], false⟩,
      .startTag ⟨"td".toList, [], false⟩, .leaf (.text "a".toList)] by decide +kernel)

theorem openNames_row : openNames Dialect.jelly "<table><tr><td>a".toList =
    ["td".toList, "tr".toList, "table".toList] := by decide +kernel

theorem readAlike_endTags_row :
    ReadAlike Dialect.jelly "<table><tr><td>a</i><b>".toList "<table><tr><td>a<b>".toList ∧
    ReadAlike Dialect.jelly "<table><tr><td>a</TR><b>".toList "<table><tr><td>a</td></TR><b>".toList ∧
    ReadAlike Dialect.jelly "<table><tr><td>a<tr><b>".toList "<table><tr><td>a</tr><tr><b>".toList ∧
    ReadAlike Dialect.jelly "<table><tr><td>a".toList "<table><tr><td>a</td></tr></table>".toList := by
  have hb : Text.Breaks "<b>".toList := .cons _
  obtain ⟨hstray, hseveral, hrepeated, hend⟩ := readAlike_endTags parse_row hb
  rw [openNames_row] at hstray hseveral hrepeated hend
  have hrow : Tag.IsStart "tr".toList := ⟨by unfold Tag.IsInside; decide, 't', ['r'], rfl, by decide⟩
  refine ⟨?_, ?_, ?_, .inl ⟨_, parse_row, hend⟩⟩
  · exact hstray "i".toList ⟨'i', [], rfl, by decide, by simp⟩ (by decide +kernel)
  · exact hseveral "TR".toList ["td".toList] "tr".toList ["table".toList] rfl (by decide +kernel) (by decide)
  · exact hrepeated "tr".toList ["td".toList] "tr".toList ["table".toList] hrow (by decide) rfl (by decide +kernel)
      (by decide)

end MailTemplate
