import MailTemplate.Proofs.Bytes.Scanning
import MailTemplate.Proofs.Correcting.Replacing
import MailTemplate.Proofs.Css.Comments
import MailTemplate.Proofs.Markup.Entities
/-!
# Texts put together from pieces

Decoding entities, escaping, correcting and taking out comments all go through a text by bytes, from mark to mark, and
put the pieces between the marks together. Each comes to what it comes to by characters, so that every piece is one that
can be cut out (`decode?_eq`, `escape?_eq`, `replaceAll?_eq`, `stripComments?_eq`).
-/
namespace MailTemplate.Bytes

open Text

variable {c : Char} {r t : Text} {i : Nat}

/-! ## Entities -/

/-- The entity that the text begins with from byte `i` on, if one does. -/
def entityAt? (t : Text) (i : Nat) : Option (Option (Text × Char)) :=
  if unit? t i == some '&' then do
    let rest ← slice? t i (byteSize t)
    return Entity.predefined.find? fun e => e.1.isPrefixOf rest
  else some none

/-- A round of decoding: the character of an entity, or the text up to where the next one can begin. -/
def decodeRound? (t : Text) (i : Nat) : Option (Text × Option Nat) :=
  if byteSize t ≤ i then some ([], none)
  else do
    match ← entityAt? t i with
    | some (name, c) => return ([c], some (i + byteSize name))
    | none =>
      let next? ← findFrom? ['&'] t (i + 1)
      let stop := next?.getD (byteSize t)
      let piece ← slice? t i stop
      return (piece, some stop)

/-- Decodes the entities of a text. -/
def decode? (t : Text) : Option Text :=
  match find? ['&'] t 0 with
  | none => some t
  | some first => do
    let before ← slice? t 0 first
    let decoded ← loop? t (decodeRound? t) first
    return before ++ decoded

theorem entityAt?_eq (h : RestAt t i (c :: r)) :
    (entityAt? t i = some none ∧ Entity.at? (c :: r) = none) ∨
      ∃ name x rest, entityAt? t i = some (some (name, x)) ∧ c :: r = name ++ rest ∧
        Entity.at? (c :: r) = some (x, rest) := by
  rw [entityAt?, beq_unit? h (by decide), h.slice?_rest]
  have hprefix : ∀ e ∈ Entity.predefined, ¬ e.1.isPrefixOf (c :: r) = true → ¬ e.1 <+: c :: r := by
    intro e _ he hpre
    exact he (List.isPrefixOf_iff_prefix.2 hpre)
  by_cases hc : c = '&'
  · have hhead : ((c :: r).head? == some '&') = true := by rw [hc]; rfl
    rw [if_pos hhead, Option.bind_eq_bind, Option.bind_some]
    cases hf : Entity.predefined.find? fun e => e.1.isPrefixOf (c :: r) with
    | none =>
      rw [List.find?_eq_none] at hf
      refine .inl ⟨rfl, Entity.at?_eq_none_iff.2 fun name hn => ?_⟩
      obtain ⟨e, he, rfl⟩ := List.mem_map.1 hn
      exact hprefix e he (hf e he)
    | some e =>
      have hpre : e.1.isPrefixOf (c :: r) = true := by simpa only using List.find?_some hf
      obtain ⟨rest, hrest⟩ := List.isPrefixOf_iff_prefix.1 hpre
      have he := List.mem_of_find?_eq_some hf
      exact .inr ⟨e.1, e.2, rest, rfl, hrest.symm, Entity.at?_eq_some_iff.2 ⟨e.1, he, hrest.symm⟩⟩
  · refine .inl ⟨if_neg (by simpa using hc), Entity.at?_eq_none_iff.2 fun name hn hpre => ?_⟩
    obtain ⟨more, rfl, -⟩ := Entity.exists_of_mem_names hn
    exact hc (List.cons_prefix_cons.1 hpre).1.symm

theorem decodeRound?_eq (h : RestAt t i r) : Round t Entity.decode r (decodeRound? t i) := by
  rw [decodeRound?]
  cases r with
  | nil =>
    have hend := h.byteSize_eq
    rw [byteSize] at hend
    rw [if_pos (by omega)]
    exact .stop Entity.decode_nil
  | cons c r =>
    obtain ⟨b, hb, -⟩ := exists_unit? h
    rw [if_neg (Nat.not_le_of_lt (lt_of_unit? hb))]
    rcases entityAt?_eq h with ⟨he, hat⟩ | ⟨name, x, rest, he, hname, hat⟩
    · have hfind := getD_findFrom? (z := '&') h.tail
      rw [← pass (f := findFrom? ['&'] t) (fun j hj => findFrom?_of_isInside (List.cons_ne_nil _ _) hj) h] at hfind
      obtain ⟨next?, hnext, hstop⟩ := Option.map_eq_some_iff.1 hfind
      have hrun : RestAt t i (c :: r.takeWhile (· != '&') ++ r.dropWhile (· != '&')) := by
        rwa [List.cons_append, List.takeWhile_append_dropWhile]
      have hslice := hrun.slice?
      have hrest := hrun.append
      rw [byteSize, ← Nat.add_assoc, ← hstop] at hslice hrest
      rw [he, Option.bind_eq_bind, Option.bind_some]
      dsimp only
      rw [hnext, Option.bind_eq_bind, Option.bind_some, hslice]
      refine .next hrest ?_ ?_
      · exact Nat.lt_succ_of_le (List.dropWhile_suffix _).length_le
      · have hno : '&' ∉ r.takeWhile (· != '&') := by
          intro hmem
          simpa using List.mem_takeWhile_imp hmem
        rw [Entity.decode_cons hat, ← List.takeWhile_append_dropWhile (p := (· != '&')) (l := r),
          Entity.decode_append (Entity.not_straddles_of_not_mem hno), Entity.decode_of_not_mem hno,
          List.takeWhile_append_dropWhile]
        rfl
    · rw [hname] at h
      rw [he]
      exact .next h.append (Entity.length_lt_of_at? hat) (Entity.decode_of_at? hat)

theorem decode?_eq (t : Text) : decode? t = some (Entity.decode t) := by
  have h := RestAt.start t
  rw [decode?, find?_eq (List.cons_ne_nil _ _) h]
  cases hcut : cut? ['&'] t with
  | none =>
    have hno : '&' ∉ t := by
      rw [cut?_eq_none_iff, List.singleton_infix_iff] at hcut
      exact hcut
    rw [Entity.decode_of_not_mem hno]
    rfl
  | some p =>
    obtain ⟨before, rest⟩ := p
    have hno := not_mem_of_cut? hcut
    have ht := eq_append_of_cut? hcut
    rw [List.append_assoc] at ht
    rw [Option.map_some]
    dsimp only
    rw [slice?_of_cut? h hcut, loop?_eq (fun _ _ h => decodeRound?_eq h) (restAt_of_cut? h hcut)]
    conv_rhs => rw [ht, Entity.decode_append (Entity.not_straddles_of_not_mem hno), Entity.decode_of_not_mem hno]
    rfl

/-! ## Replacing -/

/-- A round of replacing: the text up to the next mark, and what is put in its place. -/
def replaceRound? (mark replacement t : Text) (i : Nat) : Option (Text × Option Nat) :=
  match find? mark t i with
  | none => do
    let piece ← slice? t i (byteSize t)
    return (piece, none)
  | some pos => do
    let piece ← slice? t i pos
    return (piece ++ replacement, some (pos + byteSize mark))

/-- Escapes a text. -/
def escape? (t : Text) : Option Text := loop? t (replaceRound? ['<'] "&lt;".toList t) 0

/-- Replaces each occurrence of the pattern of a correction. -/
def replaceAll? (c : Correction) (t : Text) : Option Text :=
  if c.pattern = [] then some t else loop? t (replaceRound? c.pattern c.replacement t) 0

theorem replaceRound?_eq {c : Correction} (hp : c.pattern ≠ []) (h : RestAt t i r) :
    Round t c.apply r (replaceRound? c.pattern c.replacement t i) := by
  rw [replaceRound?, find?_eq hp h]
  cases hcut : cut? c.pattern r with
  | none =>
    rw [Option.map_none, h.slice?_rest]
    exact .stop (Correction.apply_eq_self (cut?_eq_none_iff.1 hcut))
  | some p =>
    obtain ⟨before, rest⟩ := p
    rw [Option.map_some]
    dsimp only
    rw [slice?_of_cut? h hcut]
    exact .next (restAt_of_cut? h hcut).append (length_lt_of_cut? hp hcut) (Correction.apply_of_cut? hp hcut)

theorem replaceAll?_eq (c : Correction) (t : Text) : replaceAll? c t = some (c.apply t) := by
  rw [replaceAll?]
  split
  · next hp => rw [Correction.apply_of_pattern_eq_nil hp]
  · next hp => exact loop?_eq (fun _ _ h => replaceRound?_eq hp h) (.start t)

/-- To escape a text is to correct it. -/
theorem apply_escape (t : Text) : (Correction.mk ['<'] "&lt;".toList).apply t = escapeText t := by
  induction t with
  | nil => exact Correction.apply_nil _
  | cons c t ih =>
    by_cases hc : c = '<'
    · subst hc
      rw [escapeText_cons_lt, ← ih]
      exact Correction.apply_pattern_append (c := ⟨['<'], _⟩) (List.cons_ne_nil _ _) t
    · rw [escapeText_cons hc, ← ih, Correction.apply_cons]
      rw [List.cons_prefix_cons]
      exact fun h => hc h.1.symm

theorem escape?_eq (t : Text) : escape? t = some (escapeText t) := by
  rw [← apply_escape]
  exact loop?_eq (fun _ _ h => replaceRound?_eq (c := ⟨['<'], _⟩) (List.cons_ne_nil _ _) h) (.start t)

/-! ## Comments -/

/-- A round of taking out comments: the text up to the next one, which is passed over. -/
def stripRound? (t : Text) (i : Nat) : Option (Text × Option Nat) := do
  match ← findFrom? "/*".toList t i with
  | none =>
    let piece ← slice? t i (byteSize t)
    return (piece, none)
  | some start =>
    let piece ← slice? t i start
    let stop? ← findFrom? "*/".toList t (start + 2)
    return (piece, stop?.map (· + 2))

/-- Takes out the comments of a sheet. -/
def stripComments? (t : Text) : Option Text := loop? t (stripRound? t) 0

theorem stripRound?_eq (h : RestAt t i r) : Round t Css.stripComments r (stripRound? t i) := by
  rw [stripRound?, findFrom?_eq (by decide) h]
  cases hcut : cut? "/*".toList r with
  | none =>
    rw [Option.map_none, Option.bind_eq_bind, Option.bind_some, h.slice?_rest]
    exact .stop (Css.stripComments_eq_self (cut?_eq_none_iff.1 hcut))
  | some p =>
    obtain ⟨before, rest⟩ := p
    have hrest : RestAt t (i + byteSize before + 2) rest := (restAt_of_cut? h hcut).append
    have hread := Css.stripComments_of_cut? hcut
    rw [Option.map_some, Option.bind_eq_bind, Option.bind_some]
    dsimp only
    rw [slice?_of_cut? h hcut, findFrom?_eq (by decide) hrest]
    rw [Css.stripOpenComment] at hread
    cases hstop : cut? "*/".toList rest with
    | none =>
      rw [hstop] at hread
      exact .stop (hread.trans (List.append_nil _))
    | some q =>
      rw [hstop] at hread
      have h₁ := length_lt_of_cut? (by decide) hcut
      have h₂ := length_lt_of_cut? (by decide) hstop
      exact .next (restAt_of_cut? hrest hstop).append (by omega) hread

theorem stripComments?_eq (t : Text) : stripComments? t = some (Css.stripComments t) :=
  loop?_eq (fun _ _ h => stripRound?_eq h) (.start t)

end MailTemplate.Bytes
