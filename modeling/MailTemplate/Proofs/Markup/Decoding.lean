import MailTemplate.Proofs.Bytes.Pieces
/-!
# Decoding in one pass

`Decodes` says what decoding is: one pass from left to right over entities and other characters. What is decoded from one
`&` to the next comes to the same (`decode_eq_iff`, `decode_in_one_pass`). A text can be decoded on both sides of a cut
exactly if no entity lies across it (`decode_append_iff`), and decoding undoes the writing of entities (`decode_encode`).
-/
namespace MailTemplate.Entity

variable {a b s t : Text} {c : Char}

/-! ## One pass -/

/-- Whether `t` is `s` decoded in one pass. An entity that begins where the pass has come to gives its character, and the
pass goes on behind it; any other character is kept. -/
inductive Decodes : Text → Text → Prop
  | nil : Decodes [] []
  | entity {name s t : Text} {c : Char} : (name, c) ∈ predefined → Decodes s t → Decodes (name ++ s) (c :: t)
  | other {c : Char} {s t : Text} : (∀ name ∈ names, ¬ name <+: c :: s) → Decodes s t → Decodes (c :: s) (c :: t)

theorem Decodes.decode_eq (h : Decodes s t) : decode s = t := by
  induction h with
  | nil => exact decode_nil
  | entity hn _ ih => rw [decode_name hn, ih]
  | other hn _ ih => rw [decode_cons (at?_eq_none_iff.2 hn), ih]

theorem decodes_decode (s : Text) : Decodes s (decode s) := by
  fun_induction decode s with
  | case1 => exact .nil
  | case2 c s d rest h ih =>
    obtain ⟨name, hn, hname⟩ := at?_eq_some_iff.1 h
    rw [hname]
    exact .entity hn ih
  | case3 c s h ih => exact .other (at?_eq_none_iff.1 h) ih

theorem decode_eq_iff : decode s = t ↔ Decodes s t := by
  constructor
  · rintro rfl
    exact decodes_decode s
  · exact Decodes.decode_eq

/-! ## Cuts through entities -/

/-- No entity goes on over the beginning of another. -/
theorem not_straddles_amp (a b : Text) : ¬ Straddles a ('&' :: b) := by
  refine not_straddles_of_head fun c hc => ?_
  obtain rfl := Option.some.inj hc
  decide

/-- The two sides of an entity that is cut are longer than its character. -/
theorem Straddles.length_decode_lt (h : Straddles a b) : (decode (a ++ b)).length < (decode a ++ decode b).length := by
  obtain ⟨name, hn, u, v, hname, hu, hv, ⟨a, rfl⟩, ⟨b, rfl⟩⟩ := h
  obtain ⟨⟨name, c⟩, hc, rfl⟩ := List.mem_map.1 hn
  obtain ⟨more, hmore, -, hamp⟩ := exists_of_mem_names hn
  obtain ⟨x, u, rfl⟩ := List.exists_cons_of_ne_nil hu
  dsimp only at hname hmore
  obtain ⟨rfl, huv⟩ := List.cons.inj (hmore.symm.trans hname)
  have hvamp : '&' ∉ v := fun h => hamp (by rw [huv]; exact List.mem_append_right u h)
  have hwhole : decode (a ++ '&' :: u ++ (v ++ b)) = decode a ++ c :: decode b := by
    have htext : a ++ '&' :: u ++ (v ++ b) = a ++ (name ++ b) := by rw [hname]; simp
    rw [htext, hmore, List.cons_append, decode_append (not_straddles_amp a _), ← List.cons_append, ← hmore,
      decode_name hc]
  have hleft : decode (a ++ '&' :: u) = decode a ++ decode ('&' :: u) := decode_append (not_straddles_amp a u)
  have hright : decode (v ++ b) = v ++ decode b := by
    rw [decode_append (not_straddles_of_not_mem hvamp), decode_of_not_mem hvamp]
  have hupos : 0 < (decode ('&' :: u)).length := List.length_pos_iff.2 (mt decode_eq_nil_iff.1 hu)
  have hvpos : 0 < v.length := List.length_pos_iff.2 hv
  rw [hwhole, hleft, hright]
  simp only [List.length_append, List.length_cons]
  omega

theorem decode_append_iff : decode (a ++ b) = decode a ++ decode b ↔ ¬ Straddles a b := by
  constructor
  · intro h hs
    exact Nat.ne_of_lt hs.length_decode_lt (congrArg List.length h)
  · exact decode_append

/-! ## Writing entities -/

/-- A character as it is written: as its entity, if it has one. -/
def written (c : Char) : Text := ((predefined.find? (·.2 == c)).map Prod.fst).getD [c]

/-- The text with an entity in place of each character that has one. -/
def encode (s : Text) : Text := s.flatMap written

theorem written_cases (c : Char) : (written c, c) ∈ predefined ∨ written c = [c] ∧ c ≠ '&' := by
  rw [written]
  cases hf : predefined.find? (·.2 == c) with
  | none =>
    refine .inr ⟨rfl, ?_⟩
    rintro rfl
    exact absurd hf (by decide)
  | some e =>
    obtain ⟨name, d⟩ := e
    obtain rfl : d = c := by simpa using List.find?_some hf
    exact .inl (List.mem_of_find?_eq_some hf)

theorem decode_encode (s : Text) : decode (encode s) = s := by
  induction s with
  | nil => exact decode_nil
  | cons c s ih =>
    rw [encode, List.flatMap_cons]
    change decode (written c ++ encode s) = c :: s
    rcases written_cases c with hc | ⟨hc, hamp⟩
    · rw [decode_name hc, ih]
    · have hno : '&' ∉ [c] := by simpa using hamp.symm
      rw [hc, decode_append (not_straddles_of_not_mem hno), decode_of_not_mem hno, ih, List.singleton_append]

example : encode "<b title='\"'>&".toList = "&lt;b title=&apos;&quot;&apos;&gt;&amp;".toList := by decide

/-- Decoding, by characters and by bytes from one `&` to the next, is one pass from left to right. It can be done on both
sides of a cut exactly if no entity lies across it; it gives back what was written with entities; and escaping a text
makes no difference to it. -/
theorem decode_in_one_pass :
    (∀ s t, (decode s = t ↔ Decodes s t) ∧ (Bytes.decode? s = some t ↔ Decodes s t)) ∧
    (∀ a b, decode (a ++ b) = decode a ++ decode b ↔ ¬ Straddles a b) ∧
    (∀ s, decode (encode s) = s) ∧
    ∀ s, decode (escapeText s) = decode s := by
  refine ⟨fun s t => ⟨decode_eq_iff, ?_⟩, fun a b => decode_append_iff, decode_encode, decode_escapeText⟩
  rw [Bytes.decode?_eq, Option.some_inj, decode_eq_iff]

end MailTemplate.Entity
