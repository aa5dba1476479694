import MailTemplate.Css.Scan
import MailTemplate.Text.WhiteSpace

/-!
# Declarations

What a block between braces, or a `style` attribute, says: properties and their values. Where two declarations set one
property, the later value takes the place of the earlier one. Main statement: merging changes the value of the merged
property alone (`value?_merge`).
-/
namespace MailTemplate.Css

/-- A property and the value that it is given. -/
structure Declaration where
  property : Text
  value : Text
  deriving Repr, DecidableEq

namespace Declaration

/-- The declaration that a piece of a block makes: its property stands before the first colon and its value after it,
both trimmed, and neither may be empty. -/
def ofPiece? (piece : Text) : Option Declaration :=
  match Text.cut? [':'] piece with
  | none => none
  | some (before, after) =>
    let property := Text.trim before
    let value := Text.trim after
    if property = [] ∨ value = [] then none else some ⟨Text.lower property, value⟩

/-- The declarations of a block, in order. -/
def parseBlock (block : Text) : List Declaration := (split ';' block).filterMap ofPiece?

/-- A piece that has text but no colon, and so declares nothing. -/
def valueless? (piece : Text) : Option Text :=
  if (Text.cut? [':'] piece).isNone && !(Text.trim piece).isEmpty then some (Text.trim piece) else none

/-- Sets a property: where it stands, if it is set already, else at the end. -/
def merge (list : List Declaration) (d : Declaration) : List Declaration :=
  match list with
  | [] => [d]
  | e :: list => if e.property = d.property then ⟨e.property, d.value⟩ :: list else e :: merge list d

/-- Sets properties in order. -/
def mergeAll (list : List Declaration) (ds : List Declaration) : List Declaration := ds.foldl merge list

/-- The declaration as a block has it. -/
def print (d : Declaration) : Text := d.property ++ ": ".toList ++ d.value

/-- Declarations as a `style` attribute has them. -/
def printAll (ds : List Declaration) : Text := Text.join "; ".toList (ds.map print)

/-- The value that a list gives to a property. -/
def value? (list : List Declaration) (property : Text) : Option Text :=
  (list.find? (·.property = property)).map Declaration.value

theorem value?_merge (list : List Declaration) (d : Declaration) (property : Text) :
    value? (merge list d) property = if property = d.property then some d.value else value? list property := by
  induction list with
  | nil =>
    by_cases h : property = d.property
    · simp [merge, value?, h]
    · simp [merge, value?, h, Ne.symm h]
  | cons e list ih =>
    by_cases he : e.property = d.property <;> by_cases hp : property = d.property <;>
      by_cases hb : e.property = property <;> simp_all [merge, value?]

end Declaration

end MailTemplate.Css
