import MailTemplate.Text.Basic

/-!
# Corrections

Reading and writing a template flattens the case of Jelly names and the double escape of `&amp;nbsp;`. A fixed list of
literal replacements, applied one after the other to the whole text, puts them back.
-/
namespace MailTemplate

/-- Replaces each occurrence of a pattern. -/
structure Correction where
  pattern : Text
  replacement : Text
  deriving Repr, DecidableEq

namespace Correction

/-- The pieces of a text between the occurrences of a pattern, the leftmost occurrence first and none overlapping
another. No text contains the empty pattern. -/
def pieces (pattern s : Text) : List Text :=
  if _h : pattern = [] then [s]
  else
    match _h' : Text.cut? pattern s with
    | none => [s]
    | some (before, rest) => before :: pieces pattern rest
termination_by s.length
decreasing_by exact Text.length_lt_of_cut? (by assumption) (by assumption)

/-- The text with every occurrence of the pattern replaced. -/
def apply (c : Correction) (s : Text) : Text := Text.join c.replacement (pieces c.pattern s)

/-- How many occurrences are replaced. -/
def count (c : Correction) (s : Text) : Nat := (pieces c.pattern s).length - 1

/-- Applies corrections in order. -/
def applyAll (cs : List Correction) (s : Text) : Text := cs.foldl (fun s c => c.apply s) s

/-- What a run over a Jelly template needs. -/
def jelly : List Correction :=
  [⟨"j:foreach".toList, "j:forEach".toList⟩, ⟨"j:getstatic".toList, "j:getStatic".toList⟩,
    ⟨"varstatus".toList, "varStatus".toList⟩, ⟨"classname".toList, "className".toList⟩,
    ⟨"&nbsp;".toList, "&amp;nbsp;".toList⟩]

end Correction

end MailTemplate
