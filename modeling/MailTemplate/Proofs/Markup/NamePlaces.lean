import Mathlib
import MailTemplate.Proofs.Markup.Grammar
import MailTemplate.Proofs.Markup.Lowering
/-!
# Where names stand

`Token.inName` says which characters of a template are read as part of the name of a tag, of the end tag of raw text or of
an attribute. It follows the scanners, so that what they pass over (values, the inside of an end tag after its name,
everything after a fault) is in no name. `Respelled` are texts that differ in the case of letters at such places only.
-/
namespace MailTemplate

/-! ## Places -/

/-- A choice of characters of a text, by their places. -/
abbrev Places := Nat → Bool

namespace Places

/-- No place. -/
def none : Places := fun _ => false

/-- In a text `s` that `rest` is the end of: the places `here` before that end, and `there` in it. -/
def upTo (s rest : Text) (here there : Places) : Places := fun i =>
  if i < s.length - rest.length then here i else there (i - (s.length - rest.length))

/-- The places from the `n`th on, counted from there. -/
def drop (n : Nat) (p : Places) : Places := fun i => p (n + i)

@[simp]
theorem drop_upTo (s rest : Text) (here there : Places) :
    drop (s.length - rest.length) (upTo s rest here there) = there := by
  funext i
  simp [drop, upTo]

theorem upTo_add (s rest : Text) (here there : Places) (i : Nat) :
    upTo s rest here there (s.length - rest.length + i) = there i := by simp [upTo]

theorem upTo_cons_succ (c : Char) (s : Text) (here there : Places) (i : Nat) :
    upTo (c :: s) s here there (i + 1) = there i := by simp [upTo]

theorem upTo_of_lt {s rest : Text} {here there : Places} {i : Nat} (h : i < s.length - rest.length) :
    upTo s rest here there i = here i := by rw [upTo, if_pos h]

end Places

namespace Tag

theorem readValue_suffix (s : Text) : (readValue s).2 <:+ s := by
  have hb := List.dropWhile_suffix Text.isBlank (l := s)
  unfold readValue
  split
  · exact List.nil_suffix
  · next c t ht =>
    rw [ht] at hb
    split
    · exact hb
    · split
      · exact ((List.drop_suffix 1 _).trans (List.dropWhile_suffix _)).trans ((List.suffix_cons c t).trans hb)
      · exact (List.dropWhile_suffix _).trans hb

/-- The value of an attribute, if one follows its name, and the text after it. -/
def readAssigned (s : Text) : Option Text × Text :=
  let rest := s.dropWhile Text.isBlank
  if rest.head? = some '=' then ((readValue (rest.drop 1)).1, (readValue (rest.drop 1)).2) else (none, rest)

theorem readAssigned_suffix (s : Text) : (readAssigned s).2 <:+ s := by
  have hb := List.dropWhile_suffix Text.isBlank (l := s)
  unfold readAssigned
  dsimp only
  split
  · exact (readValue_suffix _).trans ((List.drop_suffix 1 _).trans hb)
  · exact hb

/-- An attribute is read at the first character of its name. -/
theorem readAttributes_name {c : Char} (hgt : c ≠ '>') (hc : isAttributeNameChar c = true) (s : Text) :
    readAttributes (c :: s) =
      ⟨c :: s.takeWhile isAttributeNameChar, (readAssigned (s.dropWhile isAttributeNameChar)).1⟩ ::
        readAttributes (readAssigned (s.dropWhile isAttributeNameChar)).2 := by
  rw [readAttributes, if_neg hgt, if_pos hc]
  simp only [readAssigned]
  split <;> rfl

/-- The characters that `readAttributes` reads into names. -/
def inAttributeName (s : Text) : Places :=
  match s with
  | [] => .none
  | c :: s =>
    if c = '>' then .none
    else if isAttributeNameChar c then
      .upTo (c :: s) (readAssigned (s.dropWhile isAttributeNameChar)).2
        (· < (s.takeWhile isAttributeNameChar).length + 1)
        (inAttributeName (readAssigned (s.dropWhile isAttributeNameChar)).2)
    else .upTo (c :: s) s .none (inAttributeName s)
termination_by s.length
decreasing_by
  · have hrest := (readAssigned_suffix (s.dropWhile isAttributeNameChar)).length_le
    have hname := (List.dropWhile_suffix isAttributeNameChar (l := s)).length_le
    rw [List.length_cons]
    omega
  · simp

/-- The characters of a start tag, from after its `<` to its end mark, that are in its name or in that of an attribute. -/
def inStartTagName (inside : Text) : Places :=
  let attributes := (inside ++ ['>']).dropWhile isNameChar
  .upTo (inside ++ ['>']) attributes (fun _ => true) (inAttributeName attributes)

end Tag

namespace Token

/-- The characters of the name in the first end tag for `name`. -/
def inRawEndName (name : Text) : Text → Places
  | [] => .none
  | c :: s =>
    if atEndTag name (c :: s) then fun i => 2 ≤ i && i < name.length + 2
    else .upTo (c :: s) s .none (inRawEndName name s)

/-- The characters of names that `readTag` reads. -/
def inTagName (d : Dialect) (s : Text) : Places :=
  match Tag.end? s with
  | none => .none
  | some (inside, rest) =>
    if inside.head? = some '/' then fun i => 1 ≤ i && i < (Tag.name (inside.drop 1)).length + 1
    else
      .upTo s rest (Tag.inStartTagName inside)
        (if holdsRawText (Tag.name inside) && !(elementOf d inside).isVoid then inRawEndName (Tag.name inside) rest
        else .none)

/-- The characters of names that `read` reads. -/
def inTokenName (d : Dialect) (c : Char) (s : Text) : Places :=
  match opening c s with
  | .tag rest => .upTo (c :: s) rest .none (inTagName d rest)
  | _ => .none

/-- The characters of a template that are in the name of a tag or of an attribute, up to the first fault. -/
def inName (d : Dialect) (s : Text) : Places :=
  match s with
  | [] => .none
  | c :: s =>
    match _h : read d c s with
    | .error _ => inTokenName d c s
    | .ok (_, rest) => .upTo (c :: s) rest (inTokenName d c s) (inName d rest)
termination_by s.length
decreasing_by
  have := length_le_of_read (by assumption)
  simp only [List.length_cons]
  omega

variable {d : Dialect} {c : Char} {s rest : Text} {t : Token}

theorem read_of_opens (ho : Tag.opens s = true) : read d '<' s = readTag d s := by rw [read, opening_tag ho]

theorem inTokenName_of_opens (ho : Tag.opens s = true) :
    inTokenName d '<' s = .upTo ('<' :: s) s .none (inTagName d s) := by rw [inTokenName, opening_tag ho]

/-- Nothing but a tag has a name. -/
theorem inTokenName_eq_none (h : ¬ (c = '<' ∧ Tag.opens s = true)) : inTokenName d c s = .none := by
  have ho := opening_inv c s
  unfold inTokenName
  split
  · next hop =>
    simp only [hop] at ho
    exact absurd ⟨ho.1, ho.2.2⟩ h
  · rfl

/-- Nothing but a tag is read where none begins. -/
theorem exists_leaf_of_not_opens (h : Reading d (c :: s) t rest) (ho : ¬ (c = '<' ∧ Tag.opens s = true)) :
    ∃ l, t = .leaf l := by
  generalize hy : c :: s = y at h
  cases h with
  | characters => exact ⟨_, rfl⟩
  | lessThan => exact ⟨_, rfl⟩
  | leaf => exact ⟨_, rfl⟩
  | endTag htag =>
    obtain ⟨rfl, rfl⟩ := List.cons.inj hy
    exact absurd ⟨rfl, opens_of_isEnd htag _⟩ ho
  | startTag htag =>
    obtain ⟨rfl, rfl⟩ := List.cons.inj hy
    exact absurd ⟨rfl, opens_of_isStart htag _⟩ ho
  | rawElement htag =>
    obtain ⟨rfl, rfl⟩ := List.cons.inj hy
    exact absurd ⟨rfl, opens_of_isStart htag _⟩ ho

theorem inName_of_read (h : read d c s = .ok (t, rest)) :
    inName d (c :: s) = .upTo (c :: s) rest (inTokenName d c s) (inName d rest) := by
  rw [inName]
  split
  · next h' => simp_all
  · next h' =>
    rw [h] at h'
    simp only [Except.ok.injEq, Prod.mk.injEq] at h'
    obtain ⟨-, rfl⟩ := h'
    rfl

theorem inName_of_error {f : FaultAt} (h : read d c s = .error f) :
    inName d (c :: s) = inTokenName d c s := by
  rw [inName]
  split
  · rfl
  · next h' => simp_all

end Token

/-! ## Texts in other letters -/

/-- Texts of one length that differ at most in the case of letters at the places `p`. -/
structure Respelled (p : Places) (s s' : Text) : Prop where
  lower : Text.lower s = Text.lower s'
  same : ∀ i, p i = false → s[i]? = s'[i]?

namespace Respelled

variable {p q : Places} {s s' t t' : Text}

theorem of_lt (hl : Text.lower s = Text.lower s') (h : ∀ i < s.length, p i = false → s[i]? = s'[i]?) :
    Respelled p s s' := by
  refine ⟨hl, fun i hi => ?_⟩
  rcases Nat.lt_or_ge i s.length with hlt | hge
  · exact h i hlt hi
  · rw [List.getElem?_eq_none hge, List.getElem?_eq_none (by rwa [← Text.length_eq_of_lower hl])]

theorem length_eq (h : Respelled p s s') : s.length = s'.length := Text.length_eq_of_lower h.lower

theorem exists_cons {c : Char} (h : Respelled p (c :: s) s') :
    ∃ c' t, s' = c' :: t ∧ c.toLower = c'.toLower ∧ Text.lower s = Text.lower t := by
  have hlower := h.lower
  cases s' with
  | nil => cases hlower
  | cons c' t =>
    obtain ⟨hc, ht⟩ := List.cons.inj hlower
    exact ⟨c', t, rfl, hc, ht⟩

theorem suffix (h : Respelled p s s') (ht : t <:+ s) (ht' : t' <:+ s') (hl : t.length = t'.length) :
    Respelled (p.drop (s.length - t.length)) t t' := by
  have hn : s'.length - t'.length = s.length - t.length := by rw [hl, h.length_eq]
  rw [List.suffix_iff_eq_drop] at ht ht'
  rw [hn] at ht'
  generalize s.length - t.length = n at ht ht'
  subst ht ht'
  refine ⟨?_, fun i hi => ?_⟩
  · rw [← Text.drop_lower, ← Text.drop_lower, h.lower]
  · rw [List.getElem?_drop, List.getElem?_drop]
    exact h.same (n + i) hi

/-- Beginnings of such texts differ only at those of the places that are in them. -/
theorem of_prefix (h : Respelled p s s') (ht : t <+: s) (ht' : t' <+: s') (hl : t.length = t'.length)
    (hq : ∀ i < t.length, q i = false → p i = false) : Respelled q t t' := by
  obtain ⟨r, rfl⟩ := ht
  obtain ⟨r', rfl⟩ := ht'
  constructor
  · have hlower := h.lower
    rw [Text.lower_append, Text.lower_append] at hlower
    exact List.append_inj_left hlower (by simpa using hl)
  · intro i hi
    rcases Nat.lt_or_ge i t.length with hlt | hge
    · have hsame := h.same i (hq i hlt hi)
      rwa [List.getElem?_append_left hlt, List.getElem?_append_left (by omega)] at hsame
    · rw [List.getElem?_eq_none hge, List.getElem?_eq_none (by omega)]

/-- Where there is no place, nothing differs. -/
theorem eq_of_prefix (h : Respelled p s s') (ht : t <+: s) (ht' : t' <+: s') (hl : t.length = t'.length)
    (hp : ∀ i < t.length, p i = false) : t = t' :=
  List.ext_getElem? fun i => (h.of_prefix (q := .none) ht ht' hl fun i hi _ => hp i hi).same i rfl

theorem dropWhile {f : Char → Bool} (h : Respelled p s s') (hf : ∀ c : Char, f c.toLower = f c) :
    Respelled (p.drop (s.length - (s.dropWhile f).length)) (s.dropWhile f) (s'.dropWhile f) :=
  h.suffix (List.dropWhile_suffix f) (List.dropWhile_suffix f)
    (Text.length_eq_of_lower (Text.lower_dropWhile_congr hf h.lower))

theorem takeWhile_eq {f : Char → Bool} (h : Respelled p s s') (hf : ∀ c : Char, f c.toLower = f c)
    (hp : ∀ i < s.length - (s.dropWhile f).length, p i = false) : s.takeWhile f = s'.takeWhile f := by
  have hl := congrArg List.length (List.takeWhile_append_dropWhile (p := f) (l := s))
  rw [List.length_append] at hl
  exact h.eq_of_prefix (List.takeWhile_prefix f) (List.takeWhile_prefix f)
    (Text.length_eq_of_lower (Text.lower_takeWhile_congr hf h.lower)) fun i hi => hp i (by omega)

theorem tail {c c' : Char} (h : Respelled p (c :: s) (c' :: s')) : Respelled (p.drop 1) s s' := by
  have hs := h.suffix (List.suffix_cons c s) (List.suffix_cons c' s')
    (by simpa using h.length_eq)
  rwa [List.length_cons, Nat.add_sub_cancel_left] at hs

theorem eq (h : Respelled .none s s') : s = s' := List.ext_getElem? fun i => h.same i rfl

/-- What differs nowhere before its last part `r`. -/
theorem append_left {x r : Text} (h : Respelled p (x ++ r) s') (hp : ∀ i < x.length, p i = false) :
    ∃ r', s' = x ++ r' ∧ Respelled (p.drop x.length) r r' := by
  have hlen := h.length_eq
  simp only [List.length_append] at hlen
  have hx : x = s'.take x.length :=
    h.eq_of_prefix (List.prefix_append x r) (List.take_prefix _ _) (by simp; omega) hp
  have hs' := List.take_append_drop x.length s'
  rw [← hx] at hs'
  have hr := h.suffix (List.suffix_append x r) (List.drop_suffix x.length s') (by simp; omega)
  rw [List.length_append, Nat.add_sub_cancel] at hr
  exact ⟨_, hs'.symm, hr⟩

end Respelled

end MailTemplate
