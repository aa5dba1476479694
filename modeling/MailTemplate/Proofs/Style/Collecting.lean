import MailTemplate.Proofs.Markup.Hanging
import MailTemplate.Proofs.Style.Holding
import MailTemplate.Proofs.Style.Taking
import MailTemplate.Style.InPlace
/-!
# Taking sheets out of a document

The nodes of a row are gone through one after the other. Each step leaves what a node holds, changes no row of children
but that of the node and the one that it stands in, and adds nodes (`ChangesOnly`), and so does the whole run. What the
row stands for afterwards is what stays of its trees (`RowAt.collected`).
-/
namespace MailTemplate

/-! ## Sources hold no elements -/

/-- Whether elements that are called `style` or `link`, in any case of letters, hold no elements. -/
inductive Forest.PlainSources : Forest → Prop
  | nil : PlainSources []
  | leaf {l : Leaf} {ts : Forest} : PlainSources ts → PlainSources (.leaf l :: ts)
  | element {e : Element} {content ts : Forest} :
      (Text.sameLetters e.name "style".toList = true ∨ Text.sameLetters e.name "link".toList = true →
        ∀ t ∈ content, t.isElement = false) →
      PlainSources content → PlainSources ts → PlainSources (.element e content :: ts)

theorem Dialect.isVoid_of_sameLetters_link (d : Dialect) {name : Text} (h : Text.sameLetters name "link".toList = true) :
    d.isVoid name = true := by
  have hhtml : isAmong htmlVoidNames name = true :=
    List.any_eq_true.2 ⟨"link".toList, by decide, Text.sameLetters_iff.2 (Text.sameLetters_iff.1 h).symm⟩
  rw [isVoid, hhtml, Bool.true_or]

theorem Forest.plainSources_of_wellFormed {d : Dialect} {above : List Text} {f : Forest} (h : f.WellFormed d above) :
    f.PlainSources := by
  have htrees := h.trees
  clear h
  induction f using Forest.induct generalizing above with
  | nil => exact .nil
  | leaf l ts ih => exact .leaf (ih fun t ht => htrees t (List.mem_cons_of_mem _ ht))
  | element e content ts ihc ih =>
    have hts := ih fun t ht => htrees t (List.mem_cons_of_mem _ ht)
    cases htrees _ List.mem_cons_self with
    | void _ _ _ => exact .element (fun _ => List.forall_mem_nil _) .nil hts
    | raw _ _ _ _ hraw =>
      obtain rfl | ⟨t, -, rfl, -⟩ := hraw
      · exact .element (fun _ => List.forall_mem_nil _) .nil hts
      · exact .element (fun _ => List.forall_mem_singleton.2 rfl) (.leaf .nil) hts
    | element he _ hv hr _ hinside =>
      refine .element (fun hname => ?_) (ihc hinside) hts
      rcases hname with hname | hname
      · rw [Element.IsStyle.holdsRawText hname] at hr
        cases hr
      · rw [he.isVoid (d.isVoid_of_sameLetters_link hname)] at hv
        cases hv

/-- What is read is called `style` or `link`. -/
theorem Source.name_of_ofElement? {s : Settings} {dir : Option Path} {e : Element} {css : Text} {source : Source}
    (h : Source.ofElement? s dir e css = some source) :
    Text.sameLetters e.name "style".toList = true ∨ Text.sameLetters e.name "link".toList = true := by
  unfold ofElement? at h
  split at h
  · next hname => exact .inl hname
  · split at h
    · next hlink => exact .inr (Bool.and_eq_true_iff.1 hlink).1
    · cases h

namespace Document

variable {g g' g'' : Document} {p i : NodeId} {before is after ns ms : List NodeId} {f : Forest}

/-! ## What becomes of a row -/

/-- Whether a change of no more than a part of a row and what is below it makes that part stand for `kept`. -/
inductive Becomes (g g' : Document) (p : NodeId) (before after ns : List NodeId) (kept : Forest) : Prop
  | intro {is' ns' : List NodeId} (row : g'.RowAt p before is' after kept ns') (changes : g.ChangesOnly g' (p :: ns))
      (fresh : ∀ i ∈ ns', i ∈ ns ∨ g.size ≤ i)

/-- What becomes of two parts of a row that stand side by side, the second one changed after the first. -/
theorem Becomes.append {is₁ is₂ ns₁ ns₂ : List NodeId} {f₂ kept₁ : Forest}
    (h : g.RowAt p before (is₁ ++ is₂) after f (ns₁ ++ ns₂)) (hs : g.Shows is₂ f₂ ns₂)
    (h₁ : g.Becomes g' p before (is₂ ++ after) ns₁ kept₁) : ∃ row, g'.RowAt p (before ++ row) is₂ after f₂ ns₂ ∧
      ∀ {g'' : Document} {kept₂ : Forest}, g'.Becomes g'' p (before ++ row) after ns₂ kept₂ →
        g.Becomes g'' p before after (ns₁ ++ ns₂) (kept₁ ++ kept₂) := by
  obtain @⟨row, ns₁', hrow, hchanges, hfresh⟩ := h₁
  refine ⟨row, ⟨hrow.linked, hrow.forest, by rw [hrow.children, List.append_assoc],
    hchanges.shows hs fun i hi => h.notMem_of_right hi⟩, ?_⟩
  rintro g'' kept₂ @⟨row₂, ns₂', hrow₂, hchanges₂, hfresh₂⟩
  have hno : ∀ i ∈ ns₁', i ∉ p :: ns₂ := by
    intro i hi hmem
    rcases List.mem_cons.1 hmem with rfl | hmem
    · exact hrow.notMem hi
    · rcases hfresh i hi with hold | hnew
      · exact List.disjoint_of_nodup_append h.nodup hold hmem
      · exact absurd (hs.lt_size i hmem) (Nat.not_lt_of_le hnew)
  refine ⟨⟨hrow₂.linked, hrow₂.forest, ?_, (hchanges₂.shows hrow.shows hno).append hrow₂.shows⟩, ?_, ?_⟩
  · rw [hrow₂.children, List.append_assoc, List.append_assoc]
  · refine (hchanges.mono fun i hi => ?_).trans hchanges₂ fun i hi _ => ?_
    · simp only [List.mem_cons, List.mem_append] at hi ⊢
      exact hi.imp_right .inl
    · simp only [List.mem_cons, List.mem_append] at hi ⊢
      exact hi.imp_right .inr
  · intro i hi
    rw [List.mem_append] at hi ⊢
    rcases hi with hi | hi
    · exact (hfresh i hi).imp_left .inl
    · exact (hfresh₂ i hi).imp .inr (Nat.le_trans hchanges.size)

/-! ## One source -/

theorem RowAt.becomes_detach (h : g.RowAt p before [i] after f (i :: ns)) :
    g.Becomes (g.detach i) p before after (i :: ns) [] := by
  have hrow : g.children p = before ++ i :: after := h.children
  have hno : i ∉ before ++ after := not_mem_append_of_nodup (hrow ▸ h.linked.nodup p)
  refine ⟨⟨h.linked.detach i, h.forest.detach i, ?_, .nil⟩, ⟨?_, fun j _ => data?_detach g i j, fun q _ hq => ?_⟩,
    List.forall_mem_nil _⟩
  · rw [h.linked.children_detach, hrow, filter_ne_eq hno, List.nil_append]
  · rw [Linked.size_detach]
  · rw [h.linked.children_detach, List.filter_eq_self]
    intro c hc
    rw [bne_iff_ne]
    rintro rfl
    rw [h.linked.eq_of_mem_children hc (h.mem_children List.mem_cons_self)] at hq
    exact hq List.mem_cons_self

theorem RowAt.becomes_keepAtRules {e : Element} (h : g.RowAt p before [i] after f (i :: ns))
    (he : g.data? i = some (.element e)) (sheet : Css.Stylesheet) :
    g.Becomes (g.keepAtRules i sheet) p before after (i :: ns) (MailTemplate.keepAtRules e sheet) := by
  unfold MailTemplate.keepAtRules
  by_cases hnone : sheet.atRules = []
  · rw [keepAtRules, if_pos hnone, if_pos hnone]
    exact h.becomes_detach
  · have hi : i < g.size := lt_size_of_data? he
    have hp : p < g.size := lt_size_of_mem_children (h.mem_children List.mem_cons_self)
    have hpi : p ∉ [i] := fun hmem => h.notMem (List.mem_singleton.1 hmem ▸ List.mem_cons_self)
    rw [if_neg hnone]
    obtain ⟨hlinked, hforest, hchanges, hdata, hrow, hempty⟩ := h.linked.refill_frame h.forest hi
      (show _ = g.keepAtRules i sheet from (if_neg hnone).symm)
    generalize g.keepAtRules i sheet = g' at *
    have hleaf : g'.Shows (g'.children i) [.leaf (.raw (['\n'] ++ Text.join ['\n'] sheet.atRules ++ ['\n']))] [g.size] := by
      rw [hrow]
      exact .leaf hdata hempty .nil
    refine ⟨⟨hlinked, hforest, ?_, .element ((hchanges.data i hi).trans he) hleaf .nil⟩, hchanges.mono (by simp), ?_⟩
    · rw [hchanges.children p hp hpi, h.children]
    · exact List.forall_mem_cons.2 ⟨.inl List.mem_cons_self, List.forall_mem_singleton.2 (.inr (Nat.le_refl _))⟩

theorem RowAt.becomes_replaceLink (h : g.RowAt p before [i] after f (i :: ns)) (sheet : Css.Stylesheet) :
    g.Becomes (g.replaceLink i sheet) p before after (i :: ns)
      (MailTemplate.keepAtRules ⟨"style".toList, [], false⟩ sheet) := by
  by_cases hnone : sheet.atRules = []
  · rw [replaceLink, if_pos hnone, MailTemplate.keepAtRules, if_pos hnone]
    exact h.becomes_detach
  · rw [replaceLink, if_neg hnone]
    obtain ⟨hlinked, hforest, hchanges, hdata, hrow, hempty⟩ := h.linked.replace_new_frame h.forest h.children
      (show (g.create (.element ⟨"style".toList, [], false⟩)).replace i g.size = _ from rfl)
    generalize (g.create _).replace i g.size = g' at *
    have hnothing : g'.Shows (g'.children g.size) [] [] := by
      rw [hempty]
      exact .nil
    have hstyle : g'.RowAt p before [g.size] after [.element ⟨"style".toList, [], false⟩ []] [g.size] :=
      ⟨hlinked, hforest, hrow, .element hdata hnothing .nil⟩
    obtain ⟨hkept, hchanges', hfresh⟩ := hstyle.becomes_keepAtRules hdata sheet
    refine ⟨hkept, (hchanges.mono (by simp)).trans hchanges' fun j hj hlt => ?_, fun j hj => ?_⟩
    · rcases List.mem_cons.1 hj with rfl | hj
      · exact List.mem_cons_self
      · exact absurd hlt (List.mem_singleton.1 hj ▸ Nat.lt_irrefl _)
    · rcases hfresh j hj with hj | hj
      · exact .inr (List.mem_singleton.1 hj ▸ Nat.le_refl _)
      · exact .inr (Nat.le_trans hchanges.size hj)

/-- An element that stays has in it what comes of its content. -/
theorem Becomes.of_inside {e : Element} {kept : Forest} (h : g.RowAt p before [i] after f (i :: ns))
    (he : g.data? i = some (.element e)) (hb : g.Becomes g' i [] [] ns kept) :
    g.Becomes g' p before after (i :: ns) [.element e kept] := by
  obtain @⟨row, ns', hrow, hchanges, hfresh⟩ := hb
  have hi : i < g.size := lt_size_of_data? he
  have hp : p < g.size := lt_size_of_mem_children (h.mem_children List.mem_cons_self)
  have hinside : g'.Shows (g'.children i) kept ns' := by
    rw [hrow.children, List.nil_append, List.append_nil]
    exact hrow.shows
  refine ⟨⟨hrow.linked, hrow.forest, ?_, .element ((hchanges.data i hi).trans he) hinside .nil⟩,
    hchanges.mono fun _ => List.mem_cons_of_mem p, ?_⟩
  · rw [hchanges.children p hp h.notMem, h.children]
  · rw [List.append_nil]
    exact List.forall_mem_cons.2 ⟨.inl List.mem_cons_self, fun j hj => (hfresh j hj).imp_left (List.mem_cons_of_mem i)⟩

/-! ## One node after the other -/

section Collecting

variable {s : Settings} {dir : Option Path} {read : Reader}

theorem collect_append (g : Document) (ns ms : List NodeId) : g.collect s dir read (ns ++ ms) =
    (g.collect s dir read ns).bind fun (g, sheets) =>
      (g.collect s dir read ms).map fun (g, more) => (g, sheets ++ more) := by
  induction ns generalizing g with
  | nil =>
    simp only [List.nil_append, collect, Except.bind]
    cases g.collect s dir read ms <;> rfl
  | cons i ns ih =>
    simp only [List.cons_append, collect]
    cases g.collectAt s dir read i with
    | error x => rfl
    | ok r =>
      simp only [Except.bind, ih]
      cases r.1.collect s dir read ns with
      | error x => rfl
      | ok r' =>
        simp only [Except.map]
        cases r'.1.collect s dir read ms with
        | error x => rfl
        | ok r'' => simp only [List.append_assoc]

theorem collect_of_no_elements (h : ∀ i ∈ ns, g.element? i = none) : g.collect s dir read ns = .ok (g, []) := by
  induction ns with
  | nil => rfl
  | cons i ns ih =>
    rw [List.forall_mem_cons] at h
    rw [collect, collectAt, h.1]
    dsimp only [Except.bind]
    rw [ih h.2]
    rfl

theorem collectAt_eq {e : Element} {content : Forest} (he : g.data? i = some (.element e))
    (hs : g.Shows (g.children i) content ns) : g.collectAt s dir read i =
      match Source.ofElement? s dir e content.ownText with
      | some (.embedded css) => .ok (g.keepAtRules i (.parse css), [.parse css])
      | some (.linked location) => (read location).map fun css => (g.replaceLink i (.parse css), [.parse css])
      | some (.left _) | none => .ok (g, []) := by
  rw [collectAt, element?_of_data? he, ← hs.ownText_eq]
  rfl

/-- Whether a run on the nodes of a row fails as taking the sheets out of its trees does, or ends with the same sheets
and what stays of the trees. -/
inductive Collected (g : Document) (p : NodeId) (before after ns : List NodeId) :
    Except Failure (Forest × List Css.Stylesheet) → Except Failure (Document × List Css.Stylesheet) → Prop
  | error (x : Failure) : Collected g p before after ns (.error x) (.error x)
  | ok {g' : Document} {kept : Forest} (sheets : List Css.Stylesheet) : g.Becomes g' p before after ns kept →
      Collected g p before after ns (.ok (kept, sheets)) (.ok (g', sheets))

/-- Nothing is collected below a source that has been read. -/
theorem Collected.of_source {kept : Forest} {sheets : List Css.Stylesheet} (h : g.Becomes g' p before after (i :: ns) kept)
    (hno : ∀ j ∈ ns, j < g.size ∧ g.element? j = none) (hat : g.collectAt s dir read i = .ok (g', sheets)) :
    Collected g p before after (i :: ns) (.ok (kept, sheets)) (g.collect s dir read (i :: ns)) := by
  have hchanges : g.ChangesOnly g' (p :: i :: ns) := by
    obtain ⟨-, hchanges, -⟩ := h
    exact hchanges
  have hnone : ∀ j ∈ ns, g'.element? j = none := fun j hj => (hchanges.element? (hno j hj).1).trans (hno j hj).2
  have hrun : g.collect s dir read (i :: ns) = .ok (g', sheets) := by
    rw [collect, hat]
    dsimp only [Except.bind]
    rw [collect_of_no_elements hnone]
    exact congrArg (fun l => Except.ok (g', l)) (List.append_nil sheets)
  rw [hrun]
  exact .ok sheets h

section Element

variable {e : Element} {content : Forest} (h : g.RowAt p before [i] after f (i :: ns))
  (he : g.data? i = some (.element e)) (hs : g.Shows (g.children i) content ns)

include h he hs

theorem collected_of_stays (hstays : Forest.Stays s dir e content.ownText)
    (hinside : Collected g i [] [] ns (Forest.taken s dir read content) (g.collect s dir read ns)) :
    Collected g p before after (i :: ns) (Forest.taken s dir read [.element e content])
      (g.collect s dir read (i :: ns)) := by
  have hat : g.collectAt s dir read i = .ok (g, []) := by
    rw [collectAt_eq he hs]
    rcases hstays with hsource | ⟨problem, hsource⟩ <;> rw [hsource]
  rw [Forest.taken_of_stays read hstays, collect, hat]
  dsimp only [Except.bind]
  generalize Forest.taken s dir read content = expected, g.collect s dir read ns = run at hinside ⊢
  cases hinside with
  | error x => exact .error x
  | ok sheets hb => exact .ok sheets (.of_inside h he hb)

theorem collected_element
    (hplain : Text.sameLetters e.name "style".toList = true ∨ Text.sameLetters e.name "link".toList = true →
      ∀ t ∈ content, t.isElement = false)
    (hinside : Collected g i [] [] ns (Forest.taken s dir read content) (g.collect s dir read ns)) :
    Collected g p before after (i :: ns) (Forest.taken s dir read [.element e content])
      (g.collect s dir read (i :: ns)) := by
  cases hsource : Source.ofElement? s dir e content.ownText with
  | none => exact collected_of_stays h he hs (.inl hsource) hinside
  | some source =>
    have hno : ∀ j ∈ ns, j < g.size ∧ g.element? j = none := fun j hj =>
      ⟨hs.lt_size j hj, hs.element?_eq_none (hplain (Source.name_of_ofElement? hsource)) j hj⟩
    have hat : g.collectAt s dir read i = _ := collectAt_eq he hs
    rw [hsource] at hat
    cases source with
    | left problem => exact collected_of_stays h he hs (.inr ⟨problem, hsource⟩) hinside
    | embedded css =>
      rw [Forest.taken_embedded read hsource]
      exact .of_source (h.becomes_keepAtRules he _) hno hat
    | linked location =>
      rw [Forest.taken_linked read hsource]
      dsimp only at hat
      generalize read location = result at hat ⊢
      cases result with
      | error x =>
        rw [collect, hat]
        exact .error x
      | ok css => exact .of_source (h.becomes_replaceLink _) hno hat

end Element

/-- What comes of the first tree of a row and what comes of the others are put together. -/
theorem Collected.cons {t : Tree} {ts : Forest} {is₁ is₂ ns₁ ns₂ : List NodeId}
    (h : g.RowAt p before (is₁ ++ is₂) after f (ns₁ ++ ns₂)) (hs : g.Shows is₂ ts ns₂)
    (h₁ : Collected g p before (is₂ ++ after) ns₁ (Forest.taken s dir read [t]) (g.collect s dir read ns₁))
    (h₂ : ∀ {g' : Document} {row : List NodeId}, g'.RowAt p (before ++ row) is₂ after ts ns₂ →
      Collected g' p (before ++ row) after ns₂ (Forest.taken s dir read ts) (g'.collect s dir read ns₂)) :
    Collected g p before after (ns₁ ++ ns₂) (Forest.taken s dir read (t :: ts))
      (g.collect s dir read (ns₁ ++ ns₂)) := by
  rw [Forest.taken_cons, collect_append]
  generalize Forest.taken s dir read [t] = expected, g.collect s dir read ns₁ = run at h₁ ⊢
  cases h₁ with
  | error x => exact .error x
  | @ok g' kept sheets hb =>
    obtain ⟨row, hrow, happend⟩ := hb.append h hs
    have hrest := h₂ hrow
    dsimp only [Except.bind]
    generalize Forest.taken s dir read ts = expected, g'.collect s dir read ns₂ = run at hrest ⊢
    cases hrest with
    | error x => exact .error x
    | ok more hb₂ => exact .ok (sheets ++ more) (happend hb₂)

variable (s dir read) in
/-- Going through the nodes of a row takes the sheets out of the trees that it stands for. -/
theorem RowAt.collected (h : g.RowAt p before is after f ns) (hplain : f.PlainSources) :
    Collected g p before after ns (Forest.taken s dir read f) (g.collect s dir read ns) := by
  induction hplain generalizing g p before is after ns with
  | nil =>
    cases h.shows
    rw [Forest.taken_nil, collect]
    exact .ok [] ⟨h, .refl g _, List.forall_mem_nil _⟩
  | @leaf l ts _ ih =>
    cases h.shows with
    | @leaf i _ is ns _ hd hc hs =>
      have hparts : g.RowAt p before ([i] ++ is) after (.leaf l :: ts) ([i] ++ ns) := h
      refine Collected.cons hparts hs ?_ ih
      have hrun : g.collect s dir read [i] = .ok (g, []) :=
        collect_of_no_elements (List.forall_mem_singleton.2 (element?_of_leaf hd))
      rw [hrun, Forest.taken_leaf]
      exact .ok [] ⟨⟨h.linked, h.forest, h.children, .leaf hd hc .nil⟩, .refl g _, fun j hj => .inl hj⟩
  | @element e content ts hplain _ _ ihc ih =>
    cases h.shows with
    | @element i _ is inside ns _ _ hd hc hs =>
      have hparts : g.RowAt p before ([i] ++ is) after (.element e content :: ts) ((i :: inside) ++ ns) := h
      refine Collected.cons hparts hs ?_ ih
      have hi : g.RowAt p before [i] (is ++ after) [.element e content] (i :: (inside ++ [])) :=
        ⟨h.linked, h.forest, h.children, .element hd hc .nil⟩
      rw [List.append_nil] at hi
      exact collected_element hi hd hc hplain (ihc (h.inside hc))

end Collecting

end Document
end MailTemplate
