import MailTemplate.Text.Basic

/-!
# Entities

The five predefined entities are decoded in one pass from left to right; all else that looks like an entity is kept.
-/
namespace MailTemplate.Entity

/-- The predefined entities and the characters that they stand for. -/
def predefined : List (Text × Char) :=
  [("&amp;".toList, '&'), ("&lt;".toList, '<'), ("&gt;".toList, '>'), ("&quot;".toList, '"'), ("&apos;".toList, '\'')]

/-- The character of the entity that the text begins with, and what follows the entity. -/
def at? (s : Text) : Option (Char × Text) :=
  predefined.findSome? fun (name, c) => (Text.after? name s).map fun rest => (c, rest)

theorem length_lt_of_at? {s rest : Text} {c : Char} (h : at? s = some (c, rest)) : rest.length < s.length := by
  obtain ⟨⟨name, c'⟩, hn, he⟩ := List.exists_of_findSome?_eq_some h
  obtain ⟨rest', hr, hp⟩ := Option.map_eq_some_iff.1 he
  obtain ⟨rfl, rfl⟩ := by simpa using hp
  have hs := Text.after?_eq_some_iff.1 hr
  have : 0 < name.length := by
    simp only [predefined, List.mem_cons, Prod.mk.injEq, List.not_mem_nil, or_false] at hn
    rcases hn with h | h | h | h | h <;> simp [h.1]
  simp [hs]
  omega

/-- The text with each predefined entity replaced by its character; what a replacement yields is not looked at again. -/
def decode (s : Text) : Text :=
  match s with
  | [] => []
  | c :: s =>
    match _h : at? (c :: s) with
    | some (d, rest) => d :: decode rest
    | none => c :: decode s
termination_by s.length
decreasing_by
  · exact length_lt_of_at? (by assumption)
  · simp

end MailTemplate.Entity
