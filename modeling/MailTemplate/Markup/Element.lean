import MailTemplate.Markup.Dialect

/-!
# Elements

The name and the attributes of an element, in the order in which they were written. Main statements: what an attribute
was set to is read back, and no other attribute changes (`attribute?_setAttribute`).
-/
namespace MailTemplate

/-- An attribute; one without a value stands bare, as `selected` does in `<option selected>`. -/
structure Attribute where
  name : Text
  value : Option Text
  deriving Repr, DecidableEq

/-- An element without its content. -/
structure Element where
  name : Text
  attributes : List Attribute
  /-- Set where the element has no content and no end tag. -/
  isVoid : Bool
  deriving Repr, DecidableEq

namespace Attribute

/-- The value as text; a bare attribute reads as empty. -/
def text (a : Attribute) : Text := a.value.getD []

end Attribute

namespace Element

/-- The text of the first attribute whose name `p` accepts. -/
def find? (e : Element) (p : Text → Bool) : Option Text := (e.attributes.find? fun a => p a.name).map Attribute.text

/-- The text of the first attribute called exactly `name`. -/
def attribute? (e : Element) (name : Text) : Option Text := e.find? (· == name)

/-- The text of the first attribute whose name is `name` in the dialect. -/
def attributeIn? (d : Dialect) (e : Element) (name : Text) : Option Text := e.find? (d.sameName · name)

/-- The attributes with the first of them that `p` accepts set to `value`, or with `name` set to it at the end. -/
def assign (p : Text → Bool) (name value : Text) : List Attribute → List Attribute
  | [] => [⟨name, some value⟩]
  | a :: as => if p a.name then ⟨a.name, some value⟩ :: as else a :: assign p name value as

/-- Sets the first attribute called exactly `name`, or adds it at the end. -/
def setAttribute (e : Element) (name value : Text) : Element :=
  { e with attributes := assign (· == name) name value e.attributes }

/-- Sets the first attribute whose name is `name` in the dialect, or adds it at the end. -/
def setAttributeIn (d : Dialect) (e : Element) (name value : Text) : Element :=
  { e with attributes := assign (d.sameName · name) name value e.attributes }

/-- Whether `name` is one of the words of the attribute `class`. -/
def hasClass (e : Element) (name : Text) : Bool :=
  match e.attribute? "class".toList with
  | none => false
  | some value => (Text.words value).contains name

theorem attribute?_setAttribute (e : Element) (name value other : Text) :
    (e.setAttribute name value).attribute? other = if other = name then some value else e.attribute? other := by
  simp only [attribute?, find?, setAttribute]
  induction e.attributes with
  | nil =>
    by_cases h : other = name
    · simp [assign, Attribute.text, h]
    · simp [assign, h, Ne.symm h]
  | cons a as ih =>
    by_cases ha : a.name = name <;> by_cases ho : other = name <;> by_cases hb : a.name = other <;>
      simp_all [assign, Attribute.text]

end Element

end MailTemplate
