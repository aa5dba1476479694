import MailTemplate.Markup.Place
import MailTemplate.Proofs.Markup.Climbing
/-!
# Surroundings

The place of an element shows the places of the elements that enclose it (`mem_ancestors_iff`) and of those that stand
before it under its parent (`earlier_of_place?`). In a forest neither way comes back to where it has been
(`IsForest.wellFounded_parentElement?`, `Linked.wellFounded_previousElement?`), and with as many levels as there are nodes
a place shows all that there is (`IsForest.levels_eq`).
-/
namespace MailTemplate.Document

variable {g : Document} {i p x y z : NodeId} {before after between : List NodeId} {e : Element} {m n : Nat}

/-! ## Siblings -/

/-- Whether `x` stands before `y` under the same parent, with `between` between them. -/
def StandsBefore (g : Document) (x : NodeId) (between : List NodeId) (y : NodeId) : Prop :=
  ∃ p before after, g.children p = before ++ x :: (between ++ y :: after)

/-- A node parts the children of its parent into those before and those after it. -/
theorem Linked.siblings_eq (hl : g.Linked) (h : g.children p = before ++ i :: after) :
    g.earlierSiblings i = before.reverse ∧ g.laterSiblings i = after := by
  have hp : g.parent? i = some p := (hl.links i p).1 (by simp [h])
  have hnodup := hl.nodup p
  rw [h, List.nodup_append] at hnodup
  have hbefore : ∀ c ∈ before, (c != i) = true := by
    intro c hc
    simpa using hnodup.2.2 c hc i List.mem_cons_self
  constructor
  · simp [earlierSiblings, hp, h, List.takeWhile_append_of_pos hbefore]
  · simp [laterSiblings, hp, h, List.dropWhile_append_of_pos hbefore]

theorem Linked.exists_children_eq (hl : g.Linked) (h : g.parent? i = some p) :
    ∃ before after, g.children p = before ++ i :: after := List.append_of_mem ((hl.links i p).2 h)

/-- A node that has siblings hangs somewhere. -/
theorem Linked.exists_siblings_eq (hl : g.Linked) (h : x ∈ g.earlierSiblings i ∨ x ∈ g.laterSiblings i) :
    ∃ p before after, g.children p = before ++ i :: after ∧ g.earlierSiblings i = before.reverse ∧
      g.laterSiblings i = after := by
  cases hp : g.parent? i with
  | none => simp [earlierSiblings, laterSiblings, hp] at h
  | some p =>
    obtain ⟨before, after, hc⟩ := hl.exists_children_eq hp
    exact ⟨p, before, after, hc, hl.siblings_eq hc⟩

theorem Linked.mem_earlierSiblings_iff (hl : g.Linked) :
    x ∈ g.earlierSiblings y ↔ ∃ between, g.StandsBefore x between y := by
  constructor
  · intro hx
    obtain ⟨p, before, after, hc, hearlier, -⟩ := hl.exists_siblings_eq (.inl hx)
    rw [hearlier, List.mem_reverse] at hx
    obtain ⟨first, between, rfl⟩ := List.append_of_mem hx
    exact ⟨between, p, first, after, by rw [hc, List.append_assoc, List.cons_append]⟩
  · rintro ⟨between, p, first, after, hc⟩
    rw [← List.cons_append, ← List.append_assoc] at hc
    rw [(hl.siblings_eq hc).1]
    simp

theorem Linked.mem_laterSiblings_iff (hl : g.Linked) :
    y ∈ g.laterSiblings x ↔ ∃ between, g.StandsBefore x between y := by
  constructor
  · intro hy
    obtain ⟨p, before, after, hc, -, hlater⟩ := hl.exists_siblings_eq (.inr hy)
    rw [hlater] at hy
    obtain ⟨between, last, rfl⟩ := List.append_of_mem hy
    exact ⟨between, p, before, last, hc⟩
  · rintro ⟨between, p, before, last, hc⟩
    rw [(hl.siblings_eq hc).2]
    simp

/-- The nearest element before a node has no element between it and the node. -/
theorem Linked.previousElement?_eq_some_iff (hl : g.Linked) (hx : g.isElement x = true) :
    g.previousElement? y = some x ↔ ∃ between, g.StandsBefore x between y ∧ ∀ z ∈ between, g.isElement z = false := by
  rw [previousElement?]
  constructor
  · intro hfind
    obtain ⟨p, before, after, hc, hearlier, -⟩ := hl.exists_siblings_eq (.inl (List.mem_of_find?_eq_some hfind))
    rw [hearlier, List.find?_eq_some_iff_append] at hfind
    obtain ⟨-, between, first, hbefore, hbetween⟩ := hfind
    rw [List.reverse_eq_iff, List.reverse_append, List.reverse_cons, List.append_assoc] at hbefore
    refine ⟨between.reverse, ⟨p, first.reverse, after, ?_⟩, fun z hz => ?_⟩
    · rw [hc, hbefore]
      simp
    · simpa using hbetween z (List.mem_reverse.1 hz)
  · rintro ⟨between, ⟨p, first, after, hc⟩, hbetween⟩
    rw [← List.cons_append, ← List.append_assoc] at hc
    rw [(hl.siblings_eq hc).1, List.find?_eq_some_iff_append]
    refine ⟨hx, between.reverse, first.reverse, by simp, fun z hz => ?_⟩
    simp [hbetween z (List.mem_reverse.1 hz)]

/-- Going from element to element before it, one comes to an end. -/
theorem Linked.wellFounded_previousElement? (hl : g.Linked) :
    WellFounded fun x y => g.previousElement? y = some x := by
  refine Subrelation.wf (r := InvImage (· < ·) fun y => (g.earlierSiblings y).length) ?_ (InvImage.wf _ Nat.lt_wfRel.wf)
  intro x y hxy
  have hx : g.isElement x = true := List.find?_some hxy
  obtain ⟨between, ⟨p, first, after, hc⟩, -⟩ := (hl.previousElement?_eq_some_iff hx).1 hxy
  have hxs := (hl.siblings_eq hc).1
  rw [← List.cons_append, ← List.append_assoc] at hc
  have hys := (hl.siblings_eq hc).1
  simp only [InvImage, hxs, hys, List.length_reverse, List.length_append, List.length_cons]
  omega

/-! ## Ancestors -/

/-- Whether `x` is a proper ancestor of `y`. -/
def IsAncestor (g : Document) (x y : NodeId) : Prop := ∃ n, g.climb (n + 1) y = some x

/-- Whether `x` is a proper ancestor of `y`, with nothing but elements between them. -/
inductive Encloses (g : Document) (x : NodeId) : NodeId → Prop
  | parent {y : NodeId} : g.parent? y = some x → Encloses g x y
  | further {y z : NodeId} : g.parent? y = some z → g.isElement z = true → Encloses g x z → Encloses g x y

theorem Encloses.isAncestor (h : g.Encloses x y) : g.IsAncestor x y := by
  induction h with
  | parent hp => exact ⟨0, climb_of_some hp 0⟩
  | further hp _ _ ih =>
    obtain ⟨n, hn⟩ := ih
    exact ⟨n + 1, by rw [climb_of_some hp, hn]⟩

/-- Whether nothing but elements and the root has children. -/
def NestsInElements (g : Document) : Prop := ∀ i p, g.parent? i = some p → g.isElement p = true ∨ p = root

theorem nestsInElements_iff :
    g.NestsInElements ↔ ∀ i < g.size, ∀ p ∈ g.parent? i, g.isElement p = true ∨ p = root :=
  ⟨fun h i _ p hp => h i p hp, fun h i p hp => h i (lt_size_of_parent? hp) p hp⟩

instance (g : Document) : Decidable g.NestsInElements := decidable_of_iff' _ nestsInElements_iff

/-- Where the root hangs nowhere, all ancestors enclose. -/
theorem encloses_iff_isAncestor (hp : g.NestsInElements) (hroot : g.parent? root = none) :
    g.Encloses x y ↔ g.IsAncestor x y := by
  refine ⟨Encloses.isAncestor, ?_⟩
  rintro ⟨n, hn⟩
  induction n generalizing y with
  | zero =>
    cases hz : g.parent? y with
    | none => simp [climb, hz] at hn
    | some z =>
      rw [climb_of_some hz] at hn
      exact .parent (hz.trans hn)
  | succ n ih =>
    cases hz : g.parent? y with
    | none => simp [climb, hz] at hn
    | some z =>
      rw [climb_of_some hz] at hn
      rcases hp y z hz with he | rfl
      · exact .further hz he (ih hn)
      · rw [climb_of_none hroot] at hn
        cases hn

theorem parentElement?_eq_some_iff : g.parentElement? y = some z ↔ g.parent? y = some z ∧ g.isElement z = true := by
  rw [parentElement?, Option.filter_eq_some_iff]

theorem encloses_iff_of_parentElement? (h : g.parentElement? y = some z) :
    g.Encloses x y ↔ x = z ∨ g.Encloses x z := by
  obtain ⟨hz, he⟩ := parentElement?_eq_some_iff.1 h
  constructor
  · intro hx
    cases hx with
    | parent hp => exact .inl (Option.some.inj (hp.symm.trans hz))
    | further hp _ hx =>
      obtain rfl := Option.some.inj (hp.symm.trans hz)
      exact .inr hx
  · rintro (rfl | hx)
    · exact .parent hz
    · exact .further hz he hx

/-- Going from element to element around it, one comes to an end. -/
theorem IsForest.wellFounded_parentElement? (hf : g.IsForest) : WellFounded fun x y => g.parentElement? y = some x := by
  refine ⟨fun y => ?_⟩
  obtain ⟨n, hn⟩ := hf y
  induction n generalizing y with
  | zero => cases hn
  | succ n ih =>
    refine ⟨y, fun x hx => ih x ?_⟩
    rwa [climb_of_some (parentElement?_eq_some_iff.1 hx).1] at hn

/-! ## Places -/

theorem level?_of_element? (he : g.element? i = some e) :
    g.level? i = some ⟨e, (g.earlierSiblings i).filterMap g.element?, (g.nextElement? i).isNone⟩ := by
  rw [level?, he]
  rfl

theorem levels_of_no_element (he : g.element? i = none) (n : Nat) : g.levels n i = [] := by
  cases n with
  | zero => rfl
  | succ n =>
    rw [levels, level?, he]
    rfl

theorem levels_eq_of_climb (h : g.climb m i = none) (hmn : m ≤ n) : g.levels n i = g.levels m i := by
  induction m generalizing i n with
  | zero => cases h
  | succ m ih =>
    obtain ⟨n, rfl⟩ := Nat.exists_eq_add_of_le' (Nat.one_le_of_lt hmn)
    rw [levels, levels]
    cases hz : g.parentElement? i with
    | none => rfl
    | some z =>
      rw [climb_of_some (parentElement?_eq_some_iff.1 hz).1] at h
      rw [Option.map_some, Option.map_some, ih h (by omega)]

theorem lt_size_of_element? (he : g.element? i = some e) : i < g.size := by
  unfold element? at he
  split at he
  · next hd => exact lt_size_of_data? hd
  · cases he

/-- With as many levels as there are nodes all levels are seen. -/
theorem IsForest.levels_eq (hf : g.IsForest) (hl : g.Linked) (h : g.size ≤ n) (i : NodeId) :
    g.levels n i = g.levels g.size i := by
  cases he : g.element? i with
  | none => rw [levels_of_no_element he, levels_of_no_element he]
  | some e => exact levels_eq_of_climb (hf.climb_size hl (lt_size_of_element? he)) h

theorem isElement_iff : g.isElement i = true ↔ ∃ e, g.element? i = some e := Option.isSome_iff_exists

section Forest

variable (hf : g.IsForest) (hl : g.Linked)

include hf hl

theorem levels_of_element? (he : g.element? i = some e) : g.levels g.size i =
    ⟨e, (g.earlierSiblings i).filterMap g.element?, (g.nextElement? i).isNone⟩ ::
      ((g.parentElement? i).map (g.levels g.size)).getD [] := by
  rw [← hf.levels_eq hl (Nat.le_succ g.size), levels, level?_of_element? he]

theorem place?_of_element? (he : g.element? i = some e) : g.place? g.size i =
    some ⟨⟨e, (g.earlierSiblings i).filterMap g.element?, (g.nextElement? i).isNone⟩,
      ((g.parentElement? i).map (g.levels g.size)).getD []⟩ := by
  rw [place?, levels_of_element? hf hl he]
  rfl

theorem exists_of_place? {q : Place} (h : g.place? g.size i = some q) : ∃ e, g.element? i = some e ∧
    q = ⟨⟨e, (g.earlierSiblings i).filterMap g.element?, (g.nextElement? i).isNone⟩,
      ((g.parentElement? i).map (g.levels g.size)).getD []⟩ := by
  cases he : g.element? i with
  | none => simp [place?, levels_of_no_element he, Place.ofLevels] at h
  | some e =>
    rw [place?_of_element? hf hl he] at h
    exact ⟨e, rfl, (Option.some.inj h).symm⟩

/-- An element with its ancestors has its own place and the places of these. -/
theorem ofLevels_levels {q : Place} (h : g.place? g.size i = some q) :
    Place.ofLevels (g.levels g.size i) = q :: q.ancestors := by
  obtain ⟨e, he, rfl⟩ := exists_of_place? hf hl h
  rw [levels_of_element? hf hl he]
  rfl

theorem isSome_place?_iff : (g.place? g.size i).isSome = g.isElement i := by
  unfold isElement
  cases he : g.element? i with
  | none => simp [place?, levels_of_no_element he, Place.ofLevels]
  | some e => simp [place?_of_element? hf hl he]

theorem ancestors_of_place? {q : Place} (h : g.place? g.size i = some q) :
    q.ancestors = ((g.parentElement? i).map fun z => Place.ofLevels (g.levels g.size z)).getD [] := by
  obtain ⟨e, -, rfl⟩ := exists_of_place? hf hl h
  rw [Place.ancestors]
  cases g.parentElement? i <;> rfl

theorem parent?_of_place? {q : Place} (h : g.place? g.size i = some q) :
    q.parent? = (g.parentElement? i).bind (g.place? g.size) := by
  rw [Place.parent?, ancestors_of_place? hf hl h]
  cases g.parentElement? i <;> rfl

/-- The ancestors that a place shows are the elements that enclose it. -/
theorem mem_ancestors_iff {q r : Place} (h : g.place? g.size i = some q) :
    r ∈ q.ancestors ↔ ∃ x, g.Encloses x i ∧ g.place? g.size x = some r := by
  induction i using hf.wellFounded_parentElement?.induction generalizing q with
  | _ i ih =>
    rw [ancestors_of_place? hf hl h]
    cases hz : g.parentElement? i with
    | none =>
      simp only [Option.map_none, Option.getD_none, List.not_mem_nil, false_iff]
      rintro ⟨x, hx, hr⟩
      have hno : ∀ z, g.parent? i = some z → g.isElement z ≠ true := by
        intro z hp he
        rw [parentElement?_eq_some_iff.2 ⟨hp, he⟩] at hz
        cases hz
      cases hx with
      | parent hp => exact hno x hp (by rw [← isSome_place?_iff hf hl, hr]; rfl)
      | further hp he _ => exact hno _ hp he
    | some z =>
      have he : (g.place? g.size z).isSome = true := by
        rw [isSome_place?_iff hf hl]
        exact (parentElement?_eq_some_iff.1 hz).2
      obtain ⟨own, hown⟩ := Option.isSome_iff_exists.1 he
      rw [Option.map_some, Option.getD_some, ofLevels_levels hf hl hown, List.mem_cons, ih z hz hown]
      constructor
      · rintro (rfl | ⟨x, hx, hr⟩)
        · exact ⟨z, .parent (parentElement?_eq_some_iff.1 hz).1, hown⟩
        · exact ⟨x, (encloses_iff_of_parentElement? hz).2 (.inr hx), hr⟩
      · rintro ⟨x, hx, hr⟩
        rcases (encloses_iff_of_parentElement? hz).1 hx with rfl | hx
        · exact .inl (Option.some.inj (hr.symm.trans hown))
        · exact .inr ⟨x, hx, hr⟩

/-- Elements that others follow under one parent. -/
theorem ofEarlier_eq (hc : g.children p = before ++ after) (ha : ∃ y ∈ after, g.isElement y = true) :
    Place.ofEarlier ((((some p).filter g.isElement).map (g.levels g.size)).getD [])
      (before.reverse.filterMap g.element?) = before.reverse.filterMap (g.place? g.size) := by
  induction before using List.reverseRecOn generalizing after with
  | nil => rfl
  | append_singleton before x ih =>
    rw [List.append_assoc, List.singleton_append] at hc
    obtain ⟨y, hy, hey⟩ := ha
    have hbefore := ih hc ⟨y, List.mem_cons_of_mem x hy, hey⟩
    rw [List.reverse_concat]
    cases hx : g.element? x with
    | none =>
      have hplace : g.place? g.size x = none := by
        rw [← Option.not_isSome_iff_eq_none, isSome_place?_iff hf hl, isElement, hx]
        simp
      rw [List.filterMap_cons_none hx, List.filterMap_cons_none hplace, hbefore]
    | some e =>
      obtain ⟨hearlier, hlater⟩ := hl.siblings_eq hc
      have hp : g.parent? x = some p := (hl.links x p).1 (by simp [hc])
      have hnext : (g.nextElement? x).isNone = false := by
        rw [nextElement?, hlater, Option.isNone_eq_false_iff, List.find?_isSome]
        exact ⟨y, hy, hey⟩
      rw [List.filterMap_cons_some hx, List.filterMap_cons_some (place?_of_element? hf hl hx), Place.ofEarlier, hbefore,
        hearlier, hnext, parentElement?, hp]

/-- The elements that a place shows before it are those that stand there. -/
theorem earlier_of_place? {q : Place} (h : g.place? g.size i = some q) :
    q.earlier = (g.earlierSiblings i).filterMap (g.place? g.size) := by
  obtain ⟨e, he, rfl⟩ := exists_of_place? hf hl h
  cases hp : g.parent? i with
  | none => simp [Place.earlier, earlierSiblings, hp, Place.ofEarlier]
  | some p =>
    obtain ⟨before, after, hc⟩ := hl.exists_children_eq hp
    rw [Place.earlier, (hl.siblings_eq hc).1, parentElement?, hp]
    exact ofEarlier_eq hf hl hc ⟨i, List.mem_cons_self, isElement_iff.2 ⟨_, he⟩⟩

theorem previous?_of_place? {q : Place} (h : g.place? g.size i = some q) :
    q.previous? = (g.previousElement? i).bind (g.place? g.size) := by
  rw [Place.previous?, earlier_of_place? hf hl h, previousElement?]
  induction g.earlierSiblings i with
  | nil => rfl
  | cons x earlier ih =>
    have hx := isSome_place?_iff hf hl (i := x)
    rw [List.find?_cons]
    cases hplace : g.place? g.size x with
    | none =>
      rw [hplace] at hx
      rw [List.filterMap_cons_none hplace, ← hx, ih]
      rfl
    | some r =>
      rw [hplace] at hx
      rw [List.filterMap_cons_some hplace, ← hx]
      exact hplace.symm

end Forest

end MailTemplate.Document
