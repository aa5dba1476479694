import MailTemplate.Proofs.Markup.Numbering
/-!
# Documents that grow while they are read

A document need not wait for its trees: each token can go into it at once, with no more than the numbers of the open
elements kept beside it (`Building.step`). The document that grows in this way is the one that is made from the trees
once all of them are there (`document_steps`), so that whatever template is read, its document is well-formed
(`wellFormed_built_of_parse`).
-/
namespace MailTemplate

/-- A document that is being read, with the numbers of the open elements, innermost first. -/
structure Building where
  document : Document
  opened : List NodeId

namespace Building

def empty : Building := ⟨Document.empty, []⟩

/-- The node that the next one goes into. -/
def current (b : Building) : NodeId := b.opened.headD Document.root

def addNode (b : Building) (data : NodeData) : Building :=
  { b with document := (b.document.create data).append b.current b.document.size }

def addText (b : Building) (t : Text) : Building := { b with document := b.document.appendText b.current t }

def enter (b : Building) (e : Element) : Building := ⟨(b.addNode (.element e)).document, b.document.size :: b.opened⟩

/-- Closes the `k` innermost open elements. -/
def close (b : Building) (k : Nat) : Building := { b with opened := b.opened.drop k }

/-- The open elements, as they stand in the document. -/
def elements (b : Building) : List OpenElement := b.opened.filterMap fun i => (b.document.element? i).map (⟨·, []⟩)

def makeRoom (d : Dialect) (b : Building) (name : Text) : Building :=
  if d.isNestable name then b else b.close ((Nesting.repeatedLevels? d name b.elements).getD 0)

/-- Puts one token in. -/
def step (d : Dialect) (b : Building) : Token → Building
  | .leaf (.text t) => b.addText t
  | .leaf l => b.addNode (.leaf l)
  | .startTag e => if e.isVoid then (b.makeRoom d e.name).addNode (.element e) else (b.makeRoom d e.name).enter e
  | .rawElement e content =>
    let b := (b.makeRoom d e.name).enter e
    (if content = [] then b else b.addNode (.leaf (.raw content))).close 1
  | .endTag name => b.close ((Nesting.levels? d name b.elements).getD 0)

/-- Puts tokens in, in order. -/
def steps (d : Dialect) (b : Building) (ts : List Token) : Building := ts.foldl (step d) b

/-! ## Adding trees -/

/-- Adds trees at the end of the innermost open element. -/
def addAll (b : Building) (f : Forest) : Building := { b with document := b.document.graftAll b.current f }

theorem graftAll_append (g : Document) (p : NodeId) (f h : Forest) :
    g.graftAll p (f ++ h) = (g.graftAll p f).graftAll p h := by
  induction f generalizing g with
  | nil => rfl
  | cons t f ih => rw [List.cons_append, Document.graftAll, ih, Document.graftAll]

theorem addAll_append (b : Building) (f h : Forest) : b.addAll (f ++ h) = (b.addAll f).addAll h :=
  congrArg (Building.mk · b.opened) (graftAll_append b.document b.current f h)

theorem addAll_element (b : Building) (e : Element) (content : Forest) :
    b.addAll [.element e content] = ((b.enter e).addAll content).close 1 := rfl

theorem close_close (b : Building) (k : Nat) : (b.close 1).close k = b.close (k + 1) := by
  rw [close, close, close, List.drop_drop, Nat.add_comm]

end Building

/-! ## What has been put together, as a document -/

namespace Nesting

/-- The document that grows with some open elements and their content. -/
def builtOn : List OpenElement → Forest → Building
  | [], content => Building.empty.addAll content.reverse
  | o :: outer, content => ((builtOn outer o.before).enter o.element).addAll content.reverse

/-- The document that grows with what has been put together so far. -/
def built (n : Nesting) : Building := builtOn n.opened n.content

theorem builtOn_cons (opened : List OpenElement) (t : Tree) (content : Forest) :
    builtOn opened (t :: content) = (builtOn opened content).addAll [t] := by
  cases opened <;> rw [builtOn, builtOn, List.reverse_cons, Building.addAll_append]

theorem built_add (n : Nesting) (t : Tree) : (n.add t).built = n.built.addAll [t] := builtOn_cons n.opened t n.content

theorem built_leave (n : Nesting) : n.leave.built = n.built.close 1 := by
  obtain ⟨opened, content⟩ := n
  cases opened with
  | nil => rfl
  | cons o outer => exact (builtOn_cons outer _ o.before).trans (Building.addAll_element _ _ _)

theorem built_close (n : Nesting) (k : Nat) : (n.close k).built = n.built.close k := by
  induction k generalizing n with
  | zero => rfl
  | succ k ih => rw [close, ih, built_leave, Building.close_close]

end Nesting

/-! ## Nodes that stay as they are -/

namespace Document

variable {g : Document} {p : Nat}

theorem exists_split (hp : p < g.size) : ∃ before n after, g.nodes.toList = before ++ n :: after ∧ before.length = p := by
  have hl : p < g.nodes.toList.length := by rwa [Array.length_toList]
  refine ⟨g.nodes.toList.take p, g.nodes.toList[p], g.nodes.toList.drop (p + 1), ?_,
    List.length_take_of_le (Nat.le_of_lt hl)⟩
  rw [← List.drop_eq_getElem_cons hl, List.take_append_drop]

theorem size_graftAll (hp : p < g.size) (f : Forest) : (g.graftAll p f).size = g.size + Forest.size f := by
  obtain ⟨before, n, after, hg, hb⟩ := exists_split hp
  rw [size_of_toList (toList_graftAll f hg hb), size_of_toList hg, List.length_append, Forest.length_nodes]
  omega

/-- Adding trees changes nothing in the nodes that are there but the children of one of them. -/
theorem data?_graftAll (hp : p < g.size) (f : Forest) {i : Nat} (hi : i < g.size) :
    (g.graftAll p f).data? i = g.data? i := by
  obtain ⟨before, n, after, hg, hb⟩ := exists_split hp
  have hdata : (g.graftAll p f).nodes.toList.map Node.data =
      g.nodes.toList.map Node.data ++ (Forest.nodes p g.size f).map Node.data := by
    rw [toList_graftAll f hg hb, hg]
    simp
  have hlen : i < (g.nodes.toList.map Node.data).length := by
    rw [List.length_map, Array.length_toList]
    exact hi
  rw [data?, data?, ← Array.getElem?_toList, ← Array.getElem?_toList, ← List.getElem?_map, ← List.getElem?_map, hdata,
    List.getElem?_append_left hlen]

/-- The last child after a tree was added is that tree. -/
theorem getLast?_children_graftAll (hp : p < g.size) (t : Tree) :
    ((g.graftAll p [t]).children p).getLast? = some g.size := by
  obtain ⟨before, n, after, hg, hb⟩ := exists_split hp
  rw [children_of_toList (toList_graftAll [t] hg hb) hb]
  exact List.getLast?_concat

theorem data?_size_graftAll (hp : p < g.size) (t : Tree) :
    (g.graftAll p [t]).data? g.size = (t.nodes p g.size).head?.map Node.data := by
  obtain ⟨before, n, after, hg, hb⟩ := exists_split hp
  have hl := toList_graftAll [t] hg hb
  rw [← List.cons_append, ← List.append_assoc] at hl
  have hnodes : Forest.nodes p g.size [t] = t.nodes p g.size := List.append_nil _
  have hlen : (before ++ { n with children := n.children ++ Forest.roots g.size [t] } :: after).length = g.size := by
    rw [size_of_toList hg, List.length_append, List.length_cons]
    omega
  rw [data?, ← Array.getElem?_toList, hl, List.getElem?_append_right (Nat.le_of_eq hlen), hlen, Nat.sub_self, hnodes,
    List.head?_eq_getElem?]

/-! ## Character data -/

theorem appendText_of_last_ne {t : Text} (ht : t ≠ [])
    (h : ∀ i, (g.children p).getLast? = some i → ∀ u, g.data? i ≠ some (.leaf (.text u))) :
    g.appendText p t = (g.create (.leaf (.text t))).append p g.size := by
  rw [appendText, if_neg ht]
  dsimp only
  split
  · next i u hi hu =>
    rw [hi] at hu
    exact absurd hu (h i hi u)
  · rfl

theorem ext_toList {g h : Document} (hl : g.nodes.toList = h.nodes.toList) : g = h :=
  congrArg Document.mk (Array.toList_inj.1 hl)

/-- Character data that is added stands at the end of the document. -/
theorem exists_toList_graftAll_text (hp : p < g.size) : ∃ before : List Node, before.length = g.size ∧
    ∀ v, (g.graftAll p [.leaf (.text v)]).nodes.toList = before ++ [⟨.leaf (.text v), some p, []⟩] := by
  obtain ⟨before, n, after, hg, hb⟩ := exists_split hp
  refine ⟨before ++ { n with children := n.children ++ [g.size] } :: after, ?_, fun v => ?_⟩
  · rw [size_of_toList hg, List.length_append, List.length_cons]
    omega
  · rw [toList_graftAll _ hg hb, List.append_assoc, List.cons_append]
    rfl

/-- Character data joins with that of the last child. -/
theorem appendText_graftAll (hp : p < g.size) {t u : Text} (ht : t ≠ []) :
    (g.graftAll p [.leaf (.text u)]).appendText p t = g.graftAll p [.leaf (.text (u ++ t))] := by
  have hlast := getLast?_children_graftAll hp (.leaf (.text u))
  have hdata : (g.graftAll p [.leaf (.text u)]).data? g.size = some (.leaf (.text u)) :=
    data?_size_graftAll hp (.leaf (.text u))
  obtain ⟨before, hlen, hl⟩ := exists_toList_graftAll_text hp
  rw [appendText, if_neg ht, hlast]
  simp only [Option.bind_some, hdata]
  refine ext_toList ?_
  rw [update, Array.toList_modify, hl, hl, ← hlen, modify_append_cons]

end Document

/-! ## Reading into a document -/

namespace Building

/-- All open elements are nodes of the document. -/
structure Valid (b : Building) : Prop where
  root : Document.root < b.document.size
  opened : ∀ i ∈ b.opened, i < b.document.size

variable {b : Building}

theorem valid_empty : Valid empty := ⟨Nat.one_pos, fun _ h => nomatch h⟩

theorem Valid.current_lt (h : b.Valid) : b.current < b.document.size := by
  unfold current
  cases hb : b.opened with
  | nil => exact h.root
  | cons i opened => exact h.opened i (by rw [hb]; exact List.mem_cons_self)

theorem size_addAll (h : b.Valid) (f : Forest) : (b.addAll f).document.size = b.document.size + Forest.size f :=
  Document.size_graftAll h.current_lt f

theorem size_addNode (h : b.Valid) (data : NodeData) : (b.addNode data).document.size = b.document.size + 1 := by
  obtain ⟨before, n, after, hg, hb⟩ := Document.exists_split h.current_lt
  rw [addNode, Document.size_of_toList (Document.toList_append_create data hg hb), Document.size_of_toList hg,
    List.length_append, List.length_singleton]
  omega

theorem Valid.addAll (h : b.Valid) (f : Forest) : (b.addAll f).Valid := by
  have hs := size_addAll h f
  refine ⟨by rw [hs]; exact Nat.lt_add_right _ h.root, fun i hi => ?_⟩
  rw [hs]
  exact Nat.lt_add_right _ (h.opened i hi)

theorem Valid.enter (h : b.Valid) (e : Element) : (b.enter e).Valid := by
  have hs : (b.enter e).document.size = b.document.size + 1 := size_addNode h _
  refine ⟨by rw [hs]; exact Nat.lt_add_right _ h.root, fun i hi => ?_⟩
  rw [hs]
  rcases List.mem_cons.1 hi with rfl | hi
  · exact Nat.lt_succ_self _
  · exact Nat.lt_add_right _ (h.opened i hi)

theorem elements_addAll (h : b.Valid) (f : Forest) : (b.addAll f).elements = b.elements := by
  refine List.filterMap_congr fun i hi => ?_
  have hd : (b.addAll f).document.data? i = b.document.data? i :=
    Document.data?_graftAll h.current_lt f (h.opened i hi)
  rw [Document.element?, Document.element?, hd]

theorem elements_enter (h : b.Valid) (e : Element) : (b.enter e).elements = ⟨e, []⟩ :: b.elements := by
  have hnew : (b.enter e).document.element? b.document.size = some e := by
    have hd : (b.enter e).document.data? b.document.size = some (.element e) :=
      Document.data?_size_graftAll h.current_lt (.element e [])
    rw [Document.element?, hd]
  -- the open elements around the new one are older than it, and stay as they are
  have hold := elements_addAll h [.element e []]
  rw [elements, show (b.enter e).opened = b.document.size :: b.opened from rfl, List.filterMap_cons, hnew]
  exact congrArg (⟨e, []⟩ :: ·) hold

theorem children_current_enter (h : b.Valid) (e : Element) :
    (b.enter e).document.children (b.enter e).current = [] := by
  obtain ⟨before, n, after, hg, hb⟩ := Document.exists_split h.current_lt
  have hl := Document.toList_append_create (.element e) hg hb
  rw [← List.cons_append, ← List.append_assoc] at hl
  have hlen : (before ++ { n with children := n.children ++ [b.document.size] } :: after).length = b.document.size := by
    rw [Document.size_of_toList hg, List.length_append, List.length_cons]
    omega
  exact Document.children_of_toList hl hlen

end Building

namespace Nesting

variable {d : Dialect} {n : Nesting}

theorem valid_builtOn (opened : List OpenElement) (content : Forest) : (builtOn opened content).Valid := by
  induction opened generalizing content with
  | nil => exact Building.valid_empty.addAll _
  | cons o outer ih => exact ((ih o.before).enter o.element).addAll _

theorem names_builtOn (opened : List OpenElement) (content : Forest) :
    (builtOn opened content).elements.map (fun o => o.element.name) = opened.map fun o => o.element.name := by
  induction opened generalizing content with
  | nil => rfl
  | cons o outer ih =>
    have hv := valid_builtOn outer o.before
    rw [builtOn, Building.elements_addAll (hv.enter o.element), Building.elements_enter hv, List.map_cons, List.map_cons,
      ih o.before]

theorem built_makeRoom (n : Nesting) (name : Text) : (n.makeRoom d name).built = n.built.makeRoom d name := by
  rw [makeRoom, Building.makeRoom]
  split
  · rfl
  · rw [built_close, repeatedLevels?_congr (names_builtOn n.opened n.content).symm]
    rfl

theorem built_closeNamed (n : Nesting) (name : Text) :
    (n.closeNamed d name).built = n.built.close ((levels? d name n.built.elements).getD 0) := by
  rw [closeNamed, built_close, levels?_congr (names_builtOn n.opened n.content).symm]
  rfl

/-- The last child in the innermost open element is what was added last. -/
theorem last_ne_text {opened : List OpenElement} {content : Forest}
    (h : ∀ u before, content ≠ .leaf (.text u) :: before) {i : NodeId}
    (hi : ((builtOn opened content).document.children (builtOn opened content).current).getLast? = some i) (u : Text) :
    (builtOn opened content).document.data? i ≠ some (.leaf (.text u)) := by
  cases content with
  | nil =>
    -- nothing has been added since the element was opened
    have hnil : (builtOn opened []).document.children (builtOn opened []).current = [] := by
      cases opened with
      | nil => rfl
      | cons o outer => exact Building.children_current_enter (valid_builtOn outer o.before) o.element
    rw [hnil] at hi
    cases hi
  | cons t before =>
    have hv := (valid_builtOn opened before).current_lt
    have hlast := Document.getLast?_children_graftAll hv t
    have hdata := Document.data?_size_graftAll hv t
    rw [builtOn_cons] at hi ⊢
    obtain rfl := Option.some.inj (hlast.symm.trans hi)
    intro hu
    have ht := hdata.symm.trans hu
    cases t with
    | element e content => cases ht
    | leaf l =>
      cases l with
      | text v => exact h v before rfl
      | _ => cases ht

theorem built_addText (n : Nesting) (t : Text) : (n.addText t).built = n.built.addText t := by
  rw [addText, Building.addText]
  split
  · next ht => rw [ht, Document.appendText, if_pos rfl]
  · next ht =>
    split
    · next u before hc =>
      have hv := (valid_builtOn n.opened before).current_lt
      rw [built, built, hc, builtOn_cons, builtOn_cons]
      exact congrArg (Building.mk · _) (Document.appendText_graftAll hv ht).symm
    · next hc =>
      have hlast : n.built.document.appendText n.built.current t = (n.built.addNode (.leaf (.text t))).document :=
        Document.appendText_of_last_ne ht fun i hi => last_ne_text hc hi
      rw [built_add, hlast]
      rfl

/-- A token goes into the document as it goes into the trees. -/
theorem built_step (n : Nesting) (t : Token) : (n.step d t).built = n.built.step d t := by
  cases t with
  | leaf l =>
    cases l with
    | text t => exact built_addText n t
    | raw t | comment t | cdata t | declaration t | instruction t => exact built_add n _
  | startTag e =>
    rw [step, Building.step, ← built_makeRoom]
    split
    · exact built_add _ _
    · rfl
  | rawElement e content =>
    rw [step, Building.step, ← built_makeRoom, built_add, Building.addAll_element, rawContent]
    split <;> rfl
  | endTag name => exact built_closeNamed n name

theorem built_steps (n : Nesting) (ts : List Token) : (n.steps d ts).built = n.built.steps d ts := by
  induction ts generalizing n with
  | nil => rfl
  | cons t ts ih =>
    have hs : (n.steps d (t :: ts)).built = ((n.step d t).steps d ts).built := rfl
    rw [hs, ih, built_step]
    rfl

theorem document_built (n : Nesting) : n.built.document = Document.ofForest n.finish := by
  have hclose := built_close n n.opened.length
  have hopened : (n.close n.opened.length).opened = [] := by rw [opened_close, List.drop_length]
  rw [built, hopened, builtOn] at hclose
  exact (congrArg Building.document hclose).symm

end Nesting

/-- The document that tokens are put into one by one is the one that is made from the trees they stand for. -/
theorem Building.document_steps (d : Dialect) (ts : List Token) :
    (Building.empty.steps d ts).document = Document.ofForest (Forest.ofTokens d ts) := by
  have hb := Nesting.built_steps (d := d) Nesting.empty ts
  rw [Forest.ofTokens, ← Nesting.document_built, hb]
  rfl

/-- Every template that can be read gives a well-formed document, which stands for the trees that were read, and which
grows token by token. -/
theorem Document.wellFormed_built_of_parse {d : Dialect} {src : Text} {f : Forest} (h : Forest.parse d src = .ok f) :
    (ofForest f).WellFormed d ∧ (ofForest f).forest = f ∧
      (Building.empty.steps d (Token.readAll d src).tokens).document = ofForest f := by
  refine ⟨wellFormed_ofForest (Forest.wellFormed_of_parse h), forest_ofForest f, ?_⟩
  rw [Building.document_steps, Forest.eq_ofTokens_of_parse h]

/-- What is read of two `b` elements that are left open and a stray end tag between texts. -/
def repeatedTrees : Forest :=
  [.element ⟨"b".toList, [], false⟩ [.leaf (.text "x&".toList)],
    .element ⟨"b".toList, [], false⟩ [.leaf (.text "y".toList)]]

theorem parse_repeated : Forest.parse Dialect.jelly "<b>x</i>&amp;<b>y".toList = .ok repeatedTrees :=
  Forest.parse_of_readAll (by decide +kernel)
    (show _ = [.startTag ⟨"b".toList, [], false⟩, .leaf (.text "x".toList), .endTag "i".toList,
      .leaf (.text "&".toList), .startTag ⟨"b".toList, [], false⟩, .leaf (.text "y".toList)] by decide +kernel)

theorem wellFormed_repeated : (Document.ofForest repeatedTrees).WellFormed Dialect.jelly ∧
    (Document.ofForest repeatedTrees).forest = repeatedTrees ∧
    (Building.empty.steps Dialect.jelly
        (Token.readAll Dialect.jelly "<b>x</i>&amp;<b>y".toList).tokens).document = Document.ofForest repeatedTrees :=
  Document.wellFormed_built_of_parse parse_repeated

end MailTemplate
