import MailTemplate.Markup.Tree
import MailTemplate.Proofs.Markup.Names
/-!
# Well-formed trees

The trees that a template can say, in a dialect: every leaf can be told from what follows it, every element has a name
and attributes that a tag can hold, void elements and those that hold raw text contain what they can contain, and no
element stands where its start tag would have closed another one (`MayStandIn`).
-/
namespace MailTemplate

/-! ## Leaves -/

/-- The inside of a tag: an end mark after it is the first one outside quotes. -/
def Tag.IsInside (t : Text) : Prop := Tag.end? (t ++ ['>']) = some (t, [])

/-- Raw text in which no end tag for `name` begins, in any case of letters, not even one that the end cuts short. -/
def HoldsNoEndTag (name t : Text) : Prop :=
  ∀ before name' after, t = before ++ "</".toList ++ name' ++ after → Text.sameLetters name' name = true →
    ∃ c more, after = c :: more ∧ Tag.isNameChar c = true

def Leaf.isText : Leaf → Bool
  | .text _ => true
  | _ => false

/-- Leaves that can be told from what follows them. Raw text stands in an element that holds it, and nowhere else. -/
def Leaf.WellFormed : Leaf → Prop
  | .text t => t ≠ []
  | .raw _ => False
  | .comment t => ¬ "-->".toList <:+: t
  | .cdata t => ¬ "]]>".toList <:+: t
  | .declaration t => ¬ "--".toList <+: t ∧ ¬ "[CDATA[".toList <+: t ∧ Tag.IsInside ('!' :: t)
  | .instruction t => ¬ "?>".toList <:+: t

/-! ## Elements -/

/-- Elements that a start tag can open. -/
structure Element.WellFormed (d : Dialect) (e : Element) : Prop where
  name : IsElementName e.name
  attributes : ∀ a ∈ e.attributes, IsAttributeName a.name
  /-- Where the case of letters does not matter, names are in lower case. -/
  lower : d.caseSensitive = false → Text.lower e.name = e.name ∧ ∀ a ∈ e.attributes, Text.lower a.name = a.name
  isVoid : d.isVoid e.name = true → e.isVoid = true

/-- Whether an element called `name` may stand in elements of the names `above`, innermost first: if it may not nest,
then between it and any element of its name around it there is one that may. -/
def MayStandIn (d : Dialect) (above : List Text) (name : Text) : Prop :=
  d.isNestable name = false → ∀ inner a outer, above = inner ++ a :: outer → d.sameName a name = true →
    ∃ b ∈ inner, d.isNestable b = true

/-- What an element called `name` contains if it holds raw text: nothing, or one raw text without an end tag for it. -/
def IsRawContent (name : Text) (content : Forest) : Prop :=
  content = [] ∨ ∃ t, t ≠ [] ∧ content = [.leaf (.raw t)] ∧ HoldsNoEndTag name t

/-! ## Trees -/

/-- What holds of no trees, and of trees with one more before them if of them and of its content, holds of all trees. -/
theorem Forest.induct {P : Forest → Prop} (nil : P []) (leaf : ∀ l ts, P ts → P (.leaf l :: ts))
    (element : ∀ e content ts, P content → P ts → P (.element e content :: ts)) : ∀ f, P f
  | [] => nil
  | .leaf l :: ts => leaf l ts (Forest.induct nil leaf element ts)
  | .element e content :: ts =>
    element e content ts (Forest.induct nil leaf element content) (Forest.induct nil leaf element ts)

def Tree.isText : Tree → Bool
  | .leaf l => l.isText
  | .element .. => false

/-- No two texts stand side by side, where they would read as one. -/
def Forest.TextsApart (f : Forest) : Prop := f.IsChain fun t u => t.isText = false ∨ u.isText = false

/-- Trees that a template can say inside elements of the names `above`, innermost first. -/
inductive Tree.WellFormed (d : Dialect) : List Text → Tree → Prop
  | leaf {above : List Text} {l : Leaf} : l.WellFormed → Tree.WellFormed d above (.leaf l)
  | void {above : List Text} {e : Element} : e.WellFormed d → MayStandIn d above e.name → e.isVoid = true →
      Tree.WellFormed d above (.element e [])
  | raw {above : List Text} {e : Element} {content : Forest} : e.WellFormed d → MayStandIn d above e.name →
      e.isVoid = false → holdsRawText e.name = true → IsRawContent e.name content →
      Tree.WellFormed d above (.element e content)
  | element {above : List Text} {e : Element} {content : Forest} : e.WellFormed d → MayStandIn d above e.name →
      e.isVoid = false → holdsRawText e.name = false → Forest.TextsApart content →
      (∀ t ∈ content, Tree.WellFormed d (e.name :: above) t) → Tree.WellFormed d above (.element e content)

/-- Trees that a template can say side by side. -/
structure Forest.WellFormed (d : Dialect) (above : List Text) (f : Forest) : Prop where
  textsApart : Forest.TextsApart f
  trees : ∀ t ∈ f, t.WellFormed d above

/-! ## Names as a dialect keeps them -/

theorem Element.WellFormed.keep_name {d : Dialect} {e : Element} (h : e.WellFormed d) : d.keep e.name = e.name := by
  unfold Dialect.keep
  split
  · rfl
  · next hc => exact (h.lower (by simpa using hc)).1

theorem Element.WellFormed.keep_attribute {d : Dialect} {e : Element} (h : e.WellFormed d) {a : Attribute}
    (ha : a ∈ e.attributes) : d.keep a.name = a.name := by
  unfold Dialect.keep
  split
  · rfl
  · next hc => exact (h.lower (by simpa using hc)).2 a ha

theorem HoldsNoEndTag.nil (name : Text) : HoldsNoEndTag name [] := by
  intro before name' after he
  simp at he

theorem HoldsNoEndTag.of_append_left {name t w : Text} (h : HoldsNoEndTag name (w ++ t)) : HoldsNoEndTag name t := by
  intro before name' after he hs
  exact h (w ++ before) name' after (by rw [he]; simp) hs

theorem holdsNoEndTag_of_sameLetters {name name' t : Text} (hn : Text.lower name = Text.lower name')
    (h : HoldsNoEndTag name t) : HoldsNoEndTag name' t := by
  intro before n after he hs
  refine h before n after he ?_
  rw [Text.sameLetters_iff] at hs ⊢
  rw [hs, hn]

theorem Dialect.lower_keep (d : Dialect) (name : Text) : Text.lower (d.keep name) = Text.lower name := by
  unfold Dialect.keep
  split
  · rfl
  · exact Text.lower_lower name

theorem holdsNoEndTag_keep (d : Dialect) {name t : Text} : HoldsNoEndTag (d.keep name) t ↔ HoldsNoEndTag name t :=
  ⟨holdsNoEndTag_of_sameLetters (d.lower_keep name), holdsNoEndTag_of_sameLetters (d.lower_keep name).symm⟩

end MailTemplate
