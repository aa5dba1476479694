import MailTemplate.Proofs.Bytes.Pieces
/-!
# Factorizations

A text has one factorization at a pattern: into what stands before, between and behind the leftmost occurrences of the
pattern that do not overlap (`existsUnique_isFactorization`). A correction puts its replacement where the pattern stood, and
corrections are made one after the other (`applyAll_eq_iff`). Whatever finds the offsets of these occurrences, cutting the
text there comes to the same (`splice?_eq`).
-/
namespace MailTemplate

namespace Correction

variable {c : Correction} {cs : List Correction} {s t u x : Text} {us : List Text}

/-! ## The factorization of a text -/

/-- Whether a text is made of others with the pattern between each two, where the pattern comes first behind each of them,
and is not in the last. -/
inductive IsFactorization (x : Text) : Text → List Text → Prop
  | last {u : Text} : ¬ x <:+: u → IsFactorization x u [u]
  | cons {u s : Text} {us : List Text} : (∀ before after, u ++ x = before ++ x ++ after → after = []) →
      IsFactorization x s us → IsFactorization x (u ++ x ++ s) (u :: us)

theorem IsFactorization.pieces_eq (hx : x ≠ []) (h : IsFactorization x s us) : pieces x s = us := by
  induction h with
  | last hu => exact pieces_of_none (Text.cut?_eq_none_iff.2 hu)
  | cons honly _ ih => rw [pieces_of_cut? hx (Text.cut?_eq_some_iff.2 ⟨rfl, honly⟩), ih]

theorem isFactorization_pieces (hx : x ≠ []) (s : Text) : IsFactorization x s (pieces x s) := by
  fun_induction pieces x s with
  | case1 s h => exact absurd h hx
  | case2 s _ h => exact .last (Text.cut?_eq_none_iff.1 h)
  | case3 s _ before rest h ih =>
    obtain ⟨rfl, honly⟩ := Text.cut?_eq_some_iff.1 h
    exact .cons honly ih

theorem existsUnique_isFactorization (hx : x ≠ []) (s : Text) : ∃! us, IsFactorization x s us :=
  ⟨pieces x s, isFactorization_pieces hx s, fun _ hus => (hus.pieces_eq hx).symm⟩

/-! ## Replacement -/

/-- Whether a correction turns `s` into `t`: it puts its replacement between the texts of the factorization at its
pattern. The empty pattern is nowhere. -/
inductive Replaces (c : Correction) (s : Text) : Text → Prop
  | nowhere : c.pattern = [] → Replaces c s s
  | between {us : List Text} : c.pattern ≠ [] → IsFactorization c.pattern s us →
      Replaces c s (Text.join c.replacement us)

theorem apply_eq_iff : c.apply s = t ↔ Replaces c s t := by
  constructor
  · rintro rfl
    by_cases hp : c.pattern = []
    · rw [apply_of_pattern_eq_nil hp]
      exact .nowhere hp
    · exact .between hp (isFactorization_pieces hp s)
  · intro h
    cases h with
    | nowhere hp => exact apply_of_pattern_eq_nil hp s
    | between hp hus => rw [apply, hus.pieces_eq hp]

/-- Whether corrections turn `s` into `t`, each of them applied to what the ones before it have made of the text. -/
inductive ReplacesAll : List Correction → Text → Text → Prop
  | nil {s : Text} : ReplacesAll [] s s
  | cons {c : Correction} {cs : List Correction} {s u t : Text} : Replaces c s u → ReplacesAll cs u t →
      ReplacesAll (c :: cs) s t

theorem applyAll_eq_iff : applyAll cs s = t ↔ ReplacesAll cs s t := by
  constructor
  · rintro rfl
    induction cs generalizing s with
    | nil => exact .nil
    | cons c cs ih => exact .cons (apply_eq_iff.1 rfl) ih
  · intro h
    induction h with
    | nil => rfl
    | cons hc _ ih =>
      obtain rfl := apply_eq_iff.2 hc
      exact ih

end Correction

/-! ## Offsets of occurrences -/

namespace Bytes

open Text

variable {c : Correction} {find : Text → Text → List Nat} {mark r t : Text} {i : Nat} {js : List Nat}

/-- The offsets, from byte `i` on, of the leftmost occurrences of a mark that do not overlap. -/
inductive Occurrences (mark t : Text) : Nat → List Nat → Prop
  | nowhere {i : Nat} : (∀ j, i ≤ j → startsAt mark t j = false) → Occurrences mark t i []
  | first {i j : Nat} {js : List Nat} : i ≤ j → startsAt mark t j = true →
      (∀ k, i ≤ k → k < j → startsAt mark t k = false) → Occurrences mark t (j + byteSize mark) js →
      Occurrences mark t i (j :: js)

/-- The text from byte `i` on, with `replacement` in place of the `size` bytes at each offset. -/
def splice? (replacement : Text) (size : Nat) (t : Text) (i : Nat) : List Nat → Option Text
  | [] => slice? t i (byteSize t)
  | j :: js => do
    let piece ← slice? t i j
    let more ← splice? replacement size t (j + size) js
    return piece ++ (replacement ++ more)

/-- Replaces the occurrences of a pattern that `find` finds. -/
def replaceWith? (find : Text → Text → List Nat) (t : Text) (c : Correction) : Option Text :=
  if c.pattern = [] then some t
  else if find c.pattern t = [] then some t
  else splice? c.replacement (byteSize c.pattern) t 0 (find c.pattern t)

/-- Makes corrections in order. -/
def correct? (find : Text → Text → List Nat) (cs : List Correction) (t : Text) : Option Text :=
  cs.foldlM (replaceWith? find) t

/-- What is cut out between the occurrences, and put together again with the replacement, is the corrected text. -/
theorem splice?_eq (hp : c.pattern ≠ []) (hjs : Occurrences c.pattern t i js) (h : RestAt t i r) :
    splice? c.replacement (byteSize c.pattern) t i js = some (c.apply r) := by
  induction hjs generalizing r with
  | nowhere hno =>
    have hcut := find?_eq hp h
    rw [find?_eq_none_iff.2 hno, eq_comm, Option.map_eq_none_iff] at hcut
    rw [splice?, h.slice?_rest, Correction.apply_eq_self (cut?_eq_none_iff.1 hcut)]
  | first hij hj hfirst _ ih =>
    have hcut := find?_eq hp h
    rw [find?_eq_some_iff.2 ⟨hij, hj, hfirst⟩, eq_comm, Option.map_eq_some_iff] at hcut
    obtain ⟨⟨before, rest⟩, hcut, rfl⟩ := hcut
    have hrest := ih (restAt_of_cut? h hcut).append
    rw [splice?, slice?_of_cut? h hcut, hrest, Correction.apply_of_cut? hp hcut, List.append_assoc]
    rfl

/-- A search that yields the leftmost occurrences. -/
def offsets (mark t : Text) (i : Nat) : List Nat :=
  match _h : find? mark t i with
  | none => []
  | some j => if _hm : mark = [] then [] else j :: offsets mark t (j + byteSize mark)
termination_by byteSize t - i
decreasing_by
  have := le_of_find? (show find? mark t i = some j by assumption) (by assumption)
  have : byteSize mark ≠ 0 := mt byteSize_eq_zero_iff.1 (by assumption)
  omega

theorem occurrences_offsets (hm : mark ≠ []) (t : Text) (i : Nat) : Occurrences mark t i (offsets mark t i) := by
  fun_induction offsets mark t i with
  | case1 i h => exact .nowhere (find?_eq_none_iff.1 h)
  | case2 i j _ h => exact absurd h hm
  | case3 i j h _ ih =>
    obtain ⟨hij, hj, hfirst⟩ := find?_eq_some_iff.1 h
    exact .first hij hj hfirst ih

section Found

variable (hfind : ∀ mark t, mark ≠ [] → Occurrences mark t 0 (find mark t))
include hfind

theorem replaceWith?_eq (t : Text) (c : Correction) : replaceWith? find t c = some (c.apply t) := by
  rw [replaceWith?]
  split
  · next hp => rw [Correction.apply_of_pattern_eq_nil hp]
  · next hp =>
    have hsplice := splice?_eq hp (hfind _ t hp) (.start t)
    split
    · next hnone =>
      rw [hnone, splice?, (RestAt.start t).slice?_rest] at hsplice
      exact hsplice
    · exact hsplice

theorem correct?_eq (cs : List Correction) (t : Text) : correct? find cs t = some (Correction.applyAll cs t) := by
  induction cs generalizing t with
  | nil => rfl
  | cons c cs ih =>
    rw [correct?, List.foldlM_cons, replaceWith?_eq hfind]
    exact ih (c.apply t)

end Found

end Bytes

namespace Correction

/-- A text has one factorization at a pattern, and corrections in order replace what stands between its texts: those of
whole texts, and those cut out at the leftmost occurrences that do not overlap, whatever finds them. -/
theorem applyAll_by_factorization {find : Text → Text → List Nat}
    (hfind : ∀ mark t, mark ≠ [] → Bytes.Occurrences mark t 0 (find mark t)) :
    (∀ x s, x ≠ [] → ∃! us, IsFactorization x s us) ∧
    ∀ cs s t, (applyAll cs s = t ↔ ReplacesAll cs s t) ∧ (Bytes.correct? find cs s = some t ↔ ReplacesAll cs s t) := by
  refine ⟨fun x s hx => existsUnique_isFactorization hx s, fun cs s t => ⟨applyAll_eq_iff, ?_⟩⟩
  rw [Bytes.correct?_eq hfind, Option.some_inj, applyAll_eq_iff]

/-- A pattern that overlaps itself, with a replacement that has both patterns in it. -/
def overlapping : List Correction := [⟨"aa".toList, "aab".toList⟩, ⟨"ab".toList, "é".toList⟩]

theorem applyAll_by_factorization_overlapping :
    (∀ mark t, mark ≠ [] → Bytes.Occurrences mark t 0 (Bytes.offsets mark t 0)) ∧ "aa".toList ≠ [] ∧
    (∃! us, IsFactorization "aa".toList "éaaa".toList us) ∧
    ReplacesAll overlapping "éaaa".toList "éaéa".toList ∧
    Bytes.correct? (fun mark t => Bytes.offsets mark t 0) overlapping "éaaa".toList = some "éaéa".toList := by
  have hfind : ∀ mark t, mark ≠ [] → Bytes.Occurrences mark t 0 (Bytes.offsets mark t 0) :=
    fun mark t hm => Bytes.occurrences_offsets hm t 0
  obtain ⟨hunique, hall⟩ := applyAll_by_factorization hfind
  have happly : applyAll overlapping "éaaa".toList = "éaéa".toList := by decide +kernel
  have hreplaces := (hall overlapping _ _).1.1 happly
  exact ⟨hfind, by decide, hunique _ _ (by decide), hreplaces, (hall overlapping _ _).2.2 hreplaces⟩

end Correction

end MailTemplate
