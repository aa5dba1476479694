import MailTemplate.Proofs.Markup.Invariant
import MailTemplate.Proofs.Markup.Layout
import MailTemplate.Proofs.Markup.RoundTrip
/-!
# Texts that have come to stand side by side

Trees that have been changed may have texts side by side, which are read back as one (`Forest.joined`). Apart from that
they are read back as they are, if nothing in them is an entity or needs one (`Forest.WellPlaced.parse_print`).
-/
namespace MailTemplate

variable {d : Dialect} {above : List Text} {f : Forest}

/-- Trees with another one before them; two texts that would stand side by side are put together. -/
def Forest.put (f : Forest) : Tree → Forest
  | .leaf (.text t) => Forest.putText t f
  | t => t :: f

mutual

/-- A tree with the texts that stand side by side in it put together. -/
def Tree.joined : Tree → Tree
  | .leaf l => .leaf l
  | .element e content => .element e (Forest.joined content)

/-- Trees with the texts that stand side by side put together. -/
def Forest.joined : List Tree → Forest
  | [] => []
  | t :: ts => Forest.put (Forest.joined ts) t.joined

end

/-- Trees that a template can say inside elements of the names `above`, but that texts may stand side by side. -/
inductive Forest.WellPlaced (d : Dialect) : List Text → Forest → Prop
  | nil {above : List Text} : Forest.WellPlaced d above []
  | leaf {above : List Text} {l : Leaf} {f : Forest} : l.WellFormed → Forest.WellPlaced d above f →
      Forest.WellPlaced d above (.leaf l :: f)
  | void {above : List Text} {e : Element} {f : Forest} : e.WellFormed d → MayStandIn d above e.name →
      e.isVoid = true → Forest.WellPlaced d above f → Forest.WellPlaced d above (.element e [] :: f)
  | raw {above : List Text} {e : Element} {content f : Forest} : e.WellFormed d → MayStandIn d above e.name →
      e.isVoid = false → holdsRawText e.name = true → IsRawContent e.name content → Forest.WellPlaced d above f →
      Forest.WellPlaced d above (.element e content :: f)
  | element {above : List Text} {e : Element} {content f : Forest} : e.WellFormed d → MayStandIn d above e.name →
      e.isVoid = false → holdsRawText e.name = false → Forest.WellPlaced d (e.name :: above) content →
      Forest.WellPlaced d above f → Forest.WellPlaced d above (.element e content :: f)

namespace Forest

/-! ## Putting texts together -/

theorem put_cases (f : Forest) (t : Tree) : (∃ u, t = .leaf (.text u) ∧ put f t = putText u f) ∨ put f t = t :: f := by
  cases t with
  | element e content => exact .inr rfl
  | leaf l =>
    cases l with
    | text u => exact .inl ⟨u, rfl, rfl⟩
    | _ => exact .inr rfl

theorem compact_put (f : Forest) (t : Tree) : compact (put f t) = t.compact ++ compact f := by
  rcases put_cases f t with ⟨u, rfl, h⟩ | h
  · rw [h, compact_putText]
    rfl
  · rw [h, compact]

theorem elements_put (f : Forest) (t : Tree) : elements (put f t) = t.elements ++ elements f := by
  rcases put_cases f t with ⟨u, rfl, h⟩ | h
  · rw [h]
    unfold putText
    split
    · next hu =>
      rw [hu]
      rfl
    · split <;> rfl
  · rw [h, elements]

theorem WellFormed.put {t : Tree} (hf : WellFormed d above f) (ht : t.WellFormed d above) :
    WellFormed d above (put f t) := by
  cases t with
  | element e content => exact hf.cons_of_not_isText ht rfl
  | leaf l =>
    cases l with
    | text u => exact hf.putText u
    | _ => exact hf.cons_of_not_isText ht rfl

/-- Texts side by side are written as one. -/
theorem compact_joined (f : Forest) : compact (joined f) = compact f := by
  induction f using Forest.induct with
  | nil => rfl
  | leaf l ts ih => rw [joined, compact_put, ih, Tree.joined, compact]
  | element e content ts ihc iht =>
    rw [joined, compact_put, iht, Tree.joined, Tree.compact, ihc, compact, Tree.compact]

theorem elements_joined (f : Forest) : elements (joined f) = elements f := by
  induction f using Forest.induct with
  | nil => rfl
  | leaf l ts ih => rw [joined, elements_put, ih, Tree.joined, elements]
  | element e content ts ihc iht =>
    rw [joined, elements_put, iht, Tree.joined, Tree.elements, ihc, elements, Tree.elements]

theorem joined_of_isRawContent {name : Text} {content : Forest} (h : IsRawContent name content) :
    joined content = content := by
  rcases h with rfl | ⟨t, -, rfl, -⟩
  · rfl
  · rfl

theorem WellPlaced.wellFormed_joined (h : WellPlaced d above f) : WellFormed d above (joined f) := by
  induction h with
  | nil => exact .nil d _
  | leaf hl _ ih => exact ih.put (.leaf hl)
  | void he hm hv _ ih => exact ih.put (.void he hm hv)
  | raw he hm hv hr hc _ ih =>
    rw [joined, Tree.joined, joined_of_isRawContent hc]
    exact ih.put (.raw he hm hv hr hc)
  | element he hm hv hr _ _ ihc ih => exact ih.put (.element he hm hv hr ihc.textsApart ihc.trees)

/-! ## Read back -/

end Forest

/-- A value that is between quotes of one kind is read back as it is. -/
theorem Attribute.asRead_eq_self {a : Attribute} (h : ∀ v, a.value = some v → ¬ ('"' ∈ v ∧ '\'' ∈ v)) : a.asRead = a := by
  obtain ⟨name, value⟩ := a
  cases value with
  | none => rfl
  | some v => simp [asRead, requoted, h v rfl]

namespace Forest

/-- What has no entities in its texts and no values with quotes of both kinds is read back as it is. -/
theorem asRead_eq_self (ht : ∀ t ∈ texts f, ∀ name ∈ Entity.names, ¬ name <:+: t)
    (hq : ∀ e ∈ elements f, ∀ a ∈ e.attributes, ∀ v, a.value = some v → ¬ ('"' ∈ v ∧ '\'' ∈ v)) : asRead f = f := by
  induction f using Forest.induct with
  | nil => rfl
  | leaf l ts ih =>
    have hts := ih (fun t hmem => ht t (by simp [texts, hmem])) (fun e hmem => hq e (by simp [elements, hmem]))
    cases l with
    | text t => simp [asRead, Tree.asRead, Leaf.asRead, hts, Entity.decode_eq_self (ht t (by simp [texts, Tree.texts]))]
    | _ => simp [asRead, Tree.asRead, Leaf.asRead, hts]
  | element e content ts ihc iht =>
    have hcontent := ihc (fun t hmem => ht t (by simp [texts, Tree.texts, hmem]))
      (fun e' hmem => hq e' (by simp [elements, Tree.elements, hmem]))
    have hts := iht (fun t hmem => ht t (by simp [texts, hmem])) (fun e' hmem => hq e' (by simp [elements, hmem]))
    have hattributes : e.attributes.map Attribute.asRead = e.attributes := by
      conv_rhs => rw [← List.map_id e.attributes]
      exact List.map_congr_left fun a ha => Attribute.asRead_eq_self (hq e (by simp [elements, Tree.elements]) a ha)
    simp [asRead, Tree.asRead, Element.asRead, hcontent, hts, hattributes]

theorem WellPlaced.parse_print (h : WellPlaced d [] f) (ht : ∀ t ∈ texts (joined f), ∀ name ∈ Entity.names, ¬ name <:+: t)
    (hq : ∀ e ∈ elements f, ∀ a ∈ e.attributes, ∀ v, a.value = some v → ¬ ('"' ∈ v ∧ '\'' ∈ v)) :
    Forest.parse d (Forest.print false f) = .ok (joined f) := by
  have hread := h.wellFormed_joined.readOn_compact
  rw [compact_joined, asRead_eq_self ht (by rwa [elements_joined])] at hread
  exact Forest.parse_eq_ok_iff.2 hread

end Forest

end MailTemplate
