import MailTemplate.Proofs.Markup.WellFormed
/-!
# Trees as a dialect keeps them

Where the case of letters does not matter, a template can spell the names of a tree in several ways, all of which are
kept as one (`Forest.kept`). Names that can be kept can be written, and what is well-formed is kept as it is
(`Forest.WellFormed.kept_eq`).
-/
namespace MailTemplate

variable {d : Dialect}

/-! ## Names -/

theorem IsElementName.of_keep {name : Text} (h : IsElementName (d.keep name)) : IsElementName name :=
  h.of_lower (d.lower_keep name)

theorem IsAttributeName.of_keep {name : Text} (h : IsAttributeName (d.keep name)) : IsAttributeName name := by
  unfold Dialect.keep at h
  split at h
  · exact h
  · obtain ⟨hne, hall⟩ := h
    refine ⟨by simpa [Text.lower] using hne, fun c hc => ?_⟩
    rw [← Tag.isAttributeNameChar_toLower]
    exact hall c.toLower (List.mem_map_of_mem hc)

/-! ## Trees -/

def Attribute.kept (d : Dialect) (a : Attribute) : Attribute := { a with name := d.keep a.name }

def Element.kept (d : Dialect) (e : Element) : Element :=
  { e with name := d.keep e.name, attributes := e.attributes.map (Attribute.kept d) }

mutual

/-- A tree with the names that are kept for those that it has. -/
def Tree.kept (d : Dialect) : Tree → Tree
  | .leaf l => .leaf l
  | .element e content => .element (e.kept d) (Forest.kept d content)

/-- Trees with the names that are kept for those that they have. -/
def Forest.kept (d : Dialect) : List Tree → Forest
  | [] => []
  | t :: ts => t.kept d :: Forest.kept d ts

end

theorem Forest.kept_eq_map (d : Dialect) (f : Forest) : Forest.kept d f = f.map (Tree.kept d) := by
  induction f with
  | nil => rfl
  | cons t f ih => rw [Forest.kept, ih, List.map_cons]

theorem Tree.isText_kept (d : Dialect) (t : Tree) : (t.kept d).isText = t.isText := by
  cases t <;> rfl

theorem Forest.mem_kept_of_mem {t : Tree} {f : Forest} (h : t ∈ f) : t.kept d ∈ Forest.kept d f := by
  rw [Forest.kept_eq_map]
  exact List.mem_map_of_mem h

theorem Forest.textsApart_of_kept {f : Forest} (h : Forest.TextsApart (Forest.kept d f)) : Forest.TextsApart f := by
  rw [Forest.kept_eq_map, Forest.TextsApart, List.isChain_map] at h
  refine h.imp fun t u htu => ?_
  rwa [Tree.isText_kept, Tree.isText_kept] at htu

theorem Tree.exists_of_kept_eq_element {t : Tree} {e : Element} {content : Forest} (h : t.kept d = .element e content) :
    ∃ e' content', t = .element e' content' ∧ e'.kept d = e ∧ Forest.kept d content' = content := by
  cases t with
  | leaf l => cases h
  | element e' content' =>
    rw [Tree.kept] at h
    obtain ⟨he, hc⟩ := Tree.element.inj h
    exact ⟨e', content', rfl, he, hc⟩

/-- Raw text has no names in it. -/
theorem IsRawContent.of_kept {name : Text} {f : Forest} (h : IsRawContent name (Forest.kept d f)) :
    Forest.kept d f = f := by
  cases f with
  | nil => rfl
  | cons t f =>
    rcases h with h | ⟨x, -, h, -⟩
    · cases h
    · obtain ⟨ht, hf⟩ := List.cons.inj h
      cases t with
      | element e content => cases ht
      | leaf l =>
        cases f with
        | nil => rfl
        | cons u f => cases hf

/-! ## What trees hold -/

mutual

/-- The elements of a tree, in document order. -/
def Tree.elements : Tree → List Element
  | .leaf _ => []
  | .element e content => e :: Forest.elements content

/-- The elements of trees, in document order. -/
def Forest.elements : List Tree → List Element
  | [] => []
  | t :: ts => t.elements ++ Forest.elements ts

end

mutual

/-- The character data of a tree, in document order. -/
def Tree.texts : Tree → List Text
  | .leaf (.text t) => [t]
  | .leaf _ => []
  | .element _ content => Forest.texts content

/-- The character data of trees, in document order. -/
def Forest.texts : List Tree → List Text
  | [] => []
  | t :: ts => t.texts ++ Forest.texts ts

end

theorem Forest.elements_eq_flatMap (f : Forest) : Forest.elements f = f.flatMap Tree.elements := by
  induction f with
  | nil => rfl
  | cons t f ih => rw [Forest.elements, ih, List.flatMap_cons]

theorem Forest.texts_eq_flatMap (f : Forest) : Forest.texts f = f.flatMap Tree.texts := by
  induction f with
  | nil => rfl
  | cons t f ih => rw [Forest.texts, ih, List.flatMap_cons]

theorem Forest.mem_elements {f : Forest} {t : Tree} (ht : t ∈ f) {e : Element} (he : e ∈ t.elements) :
    e ∈ Forest.elements f := by
  rw [Forest.elements_eq_flatMap]
  exact List.mem_flatMap.2 ⟨t, ht, he⟩

theorem Forest.mem_texts {f : Forest} {t : Tree} (ht : t ∈ f) {s : Text} (hs : s ∈ t.texts) : s ∈ Forest.texts f := by
  rw [Forest.texts_eq_flatMap]
  exact List.mem_flatMap.2 ⟨t, ht, hs⟩

theorem Forest.elements_kept (d : Dialect) (f : Forest) :
    Forest.elements (Forest.kept d f) = (Forest.elements f).map (Element.kept d) := by
  induction f using Forest.induct with
  | nil => rfl
  | leaf l ts ih => exact ih
  | element e content ts ihc iht =>
    rw [Forest.kept, Tree.kept, Forest.elements, Tree.elements, ihc, iht, Forest.elements, Tree.elements, List.map_append,
      List.map_cons]

/-! ## Names that are kept as they are -/

theorem Element.WellFormed.kept_eq {e : Element} (h : e.WellFormed d) : e.kept d = e := by
  have hattributes : e.attributes.map (Attribute.kept d) = e.attributes := by
    conv_rhs => rw [← List.map_id e.attributes]
    refine List.map_congr_left fun a ha => ?_
    rw [Attribute.kept, h.keep_attribute ha]
    rfl
  rw [Element.kept, h.keep_name, hattributes]

theorem Forest.kept_eq_of_forall {f : Forest} (h : ∀ t ∈ f, t.kept d = t) : Forest.kept d f = f := by
  rw [Forest.kept_eq_map]
  conv_rhs => rw [← List.map_id f]
  exact List.map_congr_left h

theorem Tree.WellFormed.kept_eq {above : List Text} {t : Tree} (h : t.WellFormed d above) : t.kept d = t := by
  induction h with
  | leaf hl => rfl
  | void he _ _ => rw [Tree.kept, he.kept_eq, Forest.kept]
  | raw he _ _ _ hc =>
    rw [Tree.kept, he.kept_eq]
    rcases hc with rfl | ⟨t, -, rfl, -⟩ <;> rfl
  | element he _ _ _ _ _ ih => rw [Tree.kept, he.kept_eq, Forest.kept_eq_of_forall ih]

theorem Forest.WellFormed.kept_eq {above : List Text} {f : Forest} (h : Forest.WellFormed d above f) :
    Forest.kept d f = f := Forest.kept_eq_of_forall fun t ht => (h.trees t ht).kept_eq

end MailTemplate
