import MailTemplate.Markup.Nesting
import MailTemplate.Proofs.Markup.WellFormed
/-!
# Open elements

What tags close is decided by the names of the open elements alone. An end tag closes down to the nearest element of its
name (`closeNamed_of_names`). Open elements always stand where they may (`IsNested`), and so does, in what a start tag
leaves open, the element that it opens (`mayStandIn_makeRoom`).
-/
namespace MailTemplate

variable {d : Dialect} {name : Text}

/-! ## Names in each other -/

theorem MayStandIn.nil (d : Dialect) (name : Text) : MayStandIn d [] name := by
  intro _ inner a outer h
  simp at h

theorem MayStandIn.of_forall_ne {above : List Text} (h : ∀ a ∈ above, d.sameName a name = false) :
    MayStandIn d above name := by
  rintro - inner a outer rfl hs
  rw [h a (by simp)] at hs
  cases hs

theorem MayStandIn.congr {above : List Text} {a b : Text} (h : MayStandIn d above a) (hab : d.sameName a b = true) :
    MayStandIn d above b := by
  intro hb inner x outer he hx
  refine h (by rw [Dialect.isNestable_congr hab, hb]) inner x outer he ?_
  rw [Dialect.sameName_congr_right hab, hx]

theorem MayStandIn.of_isNestable (h : d.isNestable name = true) (above : List Text) : MayStandIn d above name := by
  intro hn
  rw [h] at hn
  cases hn

/-- Around a name of its own, an element may stand only where another one that may nest comes between. -/
theorem mayStandIn_cons_iff {a : Text} {above : List Text} (hn : d.isNestable name = false) :
    MayStandIn d (a :: above) name ↔
      d.sameName a name = false ∧ (d.isNestable a = true ∨ MayStandIn d above name) := by
  constructor
  · intro h
    refine ⟨?_, ?_⟩
    · rw [Bool.eq_false_iff]
      intro hs
      obtain ⟨b, hb, -⟩ := h hn [] a above rfl hs
      cases hb
    · by_cases ha : d.isNestable a = true
      · exact .inl ha
      · refine .inr fun _ inner x outer he hx => ?_
        obtain ⟨b, hb, hnb⟩ := h hn (a :: inner) x outer (by rw [he]; rfl) hx
        rcases List.mem_cons.1 hb with rfl | hb
        · exact absurd hnb ha
        · exact ⟨b, hb, hnb⟩
  · rintro ⟨hs, h⟩ _ inner x outer he hx
    cases inner with
    | nil =>
      obtain ⟨rfl, -⟩ := List.cons.inj he
      rw [hs] at hx
      cases hx
    | cons b inner =>
      obtain ⟨rfl, rfl⟩ := List.cons.inj he
      rcases h with ha | h
      · exact ⟨a, List.mem_cons_self, ha⟩
      · obtain ⟨c, hc, hnc⟩ := h hn inner x outer rfl hx
        exact ⟨c, List.mem_cons_of_mem a hc, hnc⟩

/-- Names of elements each of which may stand in those after it. -/
def IsNested (d : Dialect) : List Text → Prop
  | [] => True
  | a :: above => MayStandIn d above a ∧ IsNested d above

theorem IsNested.drop {names : List Text} (h : IsNested d names) (k : Nat) : IsNested d (names.drop k) := by
  induction k generalizing names with
  | zero => exact h
  | succ k ih =>
    cases names with
    | nil => exact h
    | cons a above => exact ih h.2

namespace Nesting

/-- The names of the open elements, innermost first. -/
def names (n : Nesting) : List Text := n.opened.map fun o => o.element.name

/-! ## Closing -/

theorem opened_leave (n : Nesting) : n.leave.opened = n.opened.drop 1 := by
  unfold leave
  split
  · next h => simp [h]
  · next h => simp [h]

theorem opened_close (n : Nesting) (k : Nat) : (n.close k).opened = n.opened.drop k := by
  induction k generalizing n with
  | zero => rfl
  | succ k ih => rw [close, ih, opened_leave, List.drop_drop, Nat.add_comm]

theorem names_close (n : Nesting) (k : Nat) : (n.close k).names = n.names.drop k := by
  rw [names, opened_close, List.map_drop, names]

theorem close_add (n : Nesting) (k l : Nat) : n.close (k + l) = (n.close k).close l := by
  induction k generalizing n with
  | zero => rw [Nat.zero_add, close]
  | succ k ih => rw [Nat.succ_add, close, close, ih]

/-! ## What counts of the open elements -/

theorem levels?_congr {name : Text} {l l' : List OpenElement}
    (h : l.map (fun o => o.element.name) = l'.map fun o => o.element.name) : levels? d name l = levels? d name l' := by
  induction l generalizing l' with
  | nil =>
    rw [List.map_nil, eq_comm, List.map_eq_nil_iff] at h
    rw [h]
  | cons o l ih =>
    obtain ⟨o', l', rfl, ho, hl⟩ := List.map_eq_cons_iff.1 h.symm
    rw [levels?, levels?, ih hl.symm, ho]

theorem repeatedLevels?_congr {name : Text} {l l' : List OpenElement}
    (h : l.map (fun o => o.element.name) = l'.map fun o => o.element.name) :
    repeatedLevels? d name l = repeatedLevels? d name l' := by
  induction l generalizing l' with
  | nil =>
    rw [List.map_nil, eq_comm, List.map_eq_nil_iff] at h
    rw [h]
  | cons o l ih =>
    obtain ⟨o', l', rfl, ho, hl⟩ := List.map_eq_cons_iff.1 h.symm
    rw [repeatedLevels?, repeatedLevels?, ih hl.symm, ho]

/-! ## End tags -/

theorem levels?_eq_none_iff {opened : List OpenElement} :
    levels? d name opened = none ↔ ∀ o ∈ opened, d.sameName o.element.name name = false := by
  induction opened with
  | nil => simp [levels?]
  | cons o outer ih =>
    rw [levels?]
    split
    · next h => simp [h]
    · next h => simp [h, ih]

theorem levels?_append {inner outer : List OpenElement} {o : OpenElement}
    (hi : ∀ y ∈ inner, d.sameName y.element.name name = false) (ho : d.sameName o.element.name name = true) :
    levels? d name (inner ++ o :: outer) = some (inner.length + 1) := by
  induction inner with
  | nil => rw [List.nil_append, levels?, if_pos ho, List.length_nil]
  | cons y inner ih =>
    rw [List.cons_append, levels?, if_neg (by simp [hi y List.mem_cons_self]),
      ih fun z hz => hi z (List.mem_cons_of_mem y hz), Option.map_some, List.length_cons]

theorem exists_opened_of_names {n : Nesting} {inner outer : List Text} {a : Text} (h : n.names = inner ++ a :: outer) :
    ∃ before o after, n.opened = before ++ o :: after ∧ before.map (fun o => o.element.name) = inner ∧
      o.element.name = a := by
  obtain ⟨before, more, he, hi, hm⟩ := List.map_eq_append_iff.1 h
  obtain ⟨o, after, rfl, ho, -⟩ := List.map_eq_cons_iff.1 hm
  exact ⟨before, o, after, he, hi, ho⟩

theorem closeNamed_of_none {n : Nesting} (h : ∀ a ∈ n.names, d.sameName a name = false) : n.closeNamed d name = n := by
  rw [closeNamed, levels?_eq_none_iff.2 fun o ho => h _ (List.mem_map_of_mem ho)]
  rfl

/-- An end tag closes the nearest element of its name and all that was opened in it. -/
theorem closeNamed_of_names {n : Nesting} {inner outer : List Text} {a : Text} (h : n.names = inner ++ a :: outer)
    (hi : ∀ b ∈ inner, d.sameName b name = false) (ha : d.sameName a name = true) :
    n.closeNamed d name = n.close (inner.length + 1) := by
  obtain ⟨before, o, after, he, rfl, rfl⟩ := exists_opened_of_names h
  rw [closeNamed, he, levels?_append (fun y hy => hi _ (List.mem_map_of_mem hy)) ha, List.length_map]
  rfl

theorem closeNamed_of_names_cons {n : Nesting} {a : Text} {outer : List Text} (h : n.names = a :: outer)
    (ha : d.sameName a name = true) : n.closeNamed d name = n.leave :=
  closeNamed_of_names (h.trans (List.nil_append _).symm) (fun _ hb => nomatch hb) ha

/-! ## Start tags -/

theorem repeatedLevels?_eq_none_iff (hn : d.isNestable name = false) {opened : List OpenElement} :
    repeatedLevels? d name opened = none ↔ MayStandIn d (opened.map fun o => o.element.name) name := by
  induction opened with
  | nil => simp [repeatedLevels?, MayStandIn.nil]
  | cons o outer ih =>
    rw [List.map_cons, mayStandIn_cons_iff hn, repeatedLevels?]
    split
    · next hs => simp [hs]
    · next hs =>
      split
      · next ho => simp [hs, ho]
      · next ho => simp [hs, ho, ih]

theorem mayStandIn_drop_of_repeatedLevels? {opened : List OpenElement} {k : Nat}
    (hi : IsNested d (opened.map fun o => o.element.name)) (h : repeatedLevels? d name opened = some k) :
    MayStandIn d ((opened.map fun o => o.element.name).drop k) name := by
  induction opened generalizing k with
  | nil => simp [repeatedLevels?] at h
  | cons o outer ih =>
    rw [repeatedLevels?] at h
    split at h
    · next hs =>
      -- what the element that is closed may stand in, another one of its name may, too
      obtain rfl := Option.some.inj h
      exact hi.1.congr hs
    · split at h
      · cases h
      · obtain ⟨k, hk, rfl⟩ := Option.map_eq_some_iff.1 h
        exact ih hi.2 hk

theorem repeatedLevels?_append {inner outer : List OpenElement} {o : OpenElement}
    (hi : ∀ y ∈ inner, d.sameName y.element.name name = false ∧ d.isNestable y.element.name = false)
    (ho : d.sameName o.element.name name = true) :
    repeatedLevels? d name (inner ++ o :: outer) = some (inner.length + 1) := by
  induction inner with
  | nil => rw [List.nil_append, repeatedLevels?, if_pos ho, List.length_nil]
  | cons y inner ih =>
    obtain ⟨hs, hn⟩ := hi y List.mem_cons_self
    rw [List.cons_append, repeatedLevels?, if_neg (by simp [hs]), if_neg (by simp [hn]),
      ih fun z hz => hi z (List.mem_cons_of_mem y hz), Option.map_some, List.length_cons]

/-- A start tag of an element that may not nest closes the nearest element of its name, if none between may nest. -/
theorem makeRoom_of_names {n : Nesting} {inner outer : List Text} {a : Text} (h : n.names = inner ++ a :: outer)
    (hn : d.isNestable name = false) (hi : ∀ b ∈ inner, d.sameName b name = false ∧ d.isNestable b = false)
    (ha : d.sameName a name = true) : n.makeRoom d name = n.close (inner.length + 1) := by
  obtain ⟨before, o, after, he, rfl, rfl⟩ := exists_opened_of_names h
  rw [makeRoom, if_neg (by simp [hn]), he, repeatedLevels?_append (fun y hy => hi _ (List.mem_map_of_mem hy)) ha,
    List.length_map]
  rfl

theorem makeRoom_of_mayStandIn {n : Nesting} (h : MayStandIn d n.names name) : n.makeRoom d name = n := by
  unfold makeRoom
  split
  · rfl
  · next hn => rw [(repeatedLevels?_eq_none_iff (by simpa using hn)).2 h]; rfl

/-- Opening an element leaves elements open that it may stand in. -/
theorem mayStandIn_makeRoom {n : Nesting} (hi : IsNested d n.names) : MayStandIn d (n.makeRoom d name).names name := by
  unfold makeRoom
  split
  · next hn => exact .of_isNestable hn _
  · next hn =>
    rw [names_close]
    cases h : repeatedLevels? d name n.opened with
    | none => exact (repeatedLevels?_eq_none_iff (by simpa using hn)).1 h
    | some k => exact mayStandIn_drop_of_repeatedLevels? hi h

end Nesting

end MailTemplate
