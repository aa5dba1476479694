import MailTemplate.Css.Scan
/-!
# Pieces

Whoever reads a piece of a text meets no separator outside strings and brackets, and is outside them again at its end
(`IsPiece`). Pieces that are put together with separators are the pieces of the whole (`splitFrom_append`, `split_join`),
and a text whose end is outside strings and brackets is made of nothing but pieces (`isPiece_of_mem_split`).
-/
namespace MailTemplate.Css

variable {sep : Char} {n : Nest} {s t : Text}

namespace Nest

/-- Where the reader stands after a text. -/
def run (n : Nest) (s : Text) : Nest := s.foldl step n

@[simp]
theorem run_nil (n : Nest) : n.run [] = n := rfl

@[simp]
theorem run_cons (n : Nest) (c : Char) (s : Text) : n.run (c :: s) = (n.step c).run s := rfl

@[simp]
theorem run_append (n : Nest) (s t : Text) : n.run (s ++ t) = (n.run s).run t := List.foldl_append

end Nest

/-- Whether a reader that starts at `n` meets no `sep` outside strings and brackets. -/
def Unparted (sep : Char) (n : Nest) : Text → Prop
  | [] => True
  | c :: s => ¬ (c = sep ∧ n = .top) ∧ Unparted sep (n.step c) s

theorem unparted_append : Unparted sep n (s ++ t) ↔ Unparted sep n s ∧ Unparted sep (n.run s) t := by
  induction s generalizing n with
  | nil => simp [Unparted]
  | cons c s ih => rw [List.cons_append, Unparted, Unparted, ih, Nest.run_cons, and_assoc]

theorem unparted_of_not_mem (h : sep ∉ s) (n : Nest) : Unparted sep n s := by
  induction s generalizing n with
  | nil => exact trivial
  | cons c s ih =>
    obtain ⟨hc, hs⟩ := List.ne_and_not_mem_of_not_mem_cons h
    exact ⟨fun hsep => hc hsep.1.symm, ih hs (n.step c)⟩

/-- A text, read from `n` on, that separators may stand around. -/
structure IsPiece (sep : Char) (n : Nest) (s : Text) : Prop where
  unparted : Unparted sep n s
  closed : n.run s = .top

theorem splitFrom_of_unparted (h : Unparted sep n s) : splitFrom sep n s = [s] := by
  induction s generalizing n with
  | nil => rfl
  | cons c s ih => rw [splitFrom, if_neg h.1, ih h.2]

theorem splitFrom_append (h : IsPiece sep n s) (t : Text) :
    splitFrom sep n (s ++ sep :: t) = s :: splitFrom sep .top t := by
  obtain ⟨hs, hclosed⟩ := h
  induction s generalizing n with
  | nil =>
    obtain rfl : n = .top := hclosed
    rw [List.nil_append, splitFrom, if_pos ⟨rfl, rfl⟩]
  | cons c s ih => rw [List.cons_append, splitFrom, if_neg hs.1, ih hs.2 hclosed]

/-- The first piece goes on from where the reader stands, and all others start outside strings and brackets. -/
theorem exists_splitFrom (hsep : Nest.top.step sep = .top) (h : n.run s = .top) :
    ∃ piece more, splitFrom sep n s = piece :: more ∧ IsPiece sep n piece ∧ ∀ p ∈ more, IsPiece sep .top p := by
  induction s generalizing n with
  | nil => exact ⟨[], [], rfl, ⟨trivial, h⟩, by simp⟩
  | cons c s ih =>
    by_cases hc : c = sep ∧ n = .top
    · obtain ⟨rfl, rfl⟩ := hc
      rw [Nest.run_cons, hsep] at h
      obtain ⟨piece, more, hsplit, hpiece, hmore⟩ := ih h
      refine ⟨[], piece :: more, ?_, ⟨trivial, rfl⟩, List.forall_mem_cons.2 ⟨hpiece, hmore⟩⟩
      rw [splitFrom, if_pos ⟨rfl, rfl⟩, hsplit]
    · obtain ⟨piece, more, hsplit, hpiece, hmore⟩ := ih h
      refine ⟨c :: piece, more, ?_, ⟨⟨hc, hpiece.unparted⟩, hpiece.closed⟩, hmore⟩
      rw [splitFrom, if_neg hc, hsplit]

/-- The first piece goes up to the first separator outside strings and brackets, or to the end if there is none. -/
theorem splitFrom_cases (sep : Char) (n : Nest) (s : Text) : splitFrom sep n s = [s] ∧ Unparted sep n s ∨
    ∃ piece rest, s = piece ++ sep :: rest ∧ splitFrom sep n s = piece :: split sep rest ∧ IsPiece sep n piece := by
  induction s generalizing n with
  | nil => exact .inl ⟨rfl, trivial⟩
  | cons c s ih =>
    by_cases hc : c = sep ∧ n = .top
    · obtain ⟨rfl, rfl⟩ := hc
      exact .inr ⟨[], s, rfl, by rw [splitFrom, if_pos ⟨rfl, rfl⟩, split], trivial, rfl⟩
    · rcases ih (n.step c) with ⟨hsplit, hs⟩ | ⟨piece, rest, rfl, hsplit, hpiece⟩
      · exact .inl ⟨by rw [splitFrom, if_neg hc, hsplit], hc, hs⟩
      · refine .inr ⟨c :: piece, rest, rfl, ?_, ⟨hc, hpiece.unparted⟩, hpiece.closed⟩
        rw [splitFrom, if_neg hc, hsplit]

/-- Texts that separators between them keep apart: all but the last are pieces, and the last has no separator that
counts. -/
inductive Parted (sep : Char) : List Text → Prop
  | last {s : Text} : Unparted sep .top s → Parted sep [s]
  | cons {s : Text} {ss : List Text} : IsPiece sep .top s → Parted sep ss → Parted sep (s :: ss)

theorem Parted.ne_nil {ss : List Text} (h : Parted sep ss) : ss ≠ [] := by
  cases h with
  | last => exact List.cons_ne_nil _ _
  | cons => exact List.cons_ne_nil _ _

theorem Parted.unparted_head {s : Text} {ss : List Text} (h : Parted sep (s :: ss)) : Unparted sep .top s := by
  cases h with
  | last h => exact h
  | cons h => exact h.unparted

theorem Parted.of_forall {ss : List Text} (hne : ss ≠ []) (h : ∀ s ∈ ss, IsPiece sep .top s) : Parted sep ss := by
  induction ss with
  | nil => exact absurd rfl hne
  | cons s ss ih =>
    rw [List.forall_mem_cons] at h
    cases ss with
    | nil => exact .last h.1.unparted
    | cons t ss => exact .cons h.1 (ih (List.cons_ne_nil t ss) h.2)

theorem split_join {ss : List Text} (h : Parted sep ss) : split sep (Text.join [sep] ss) = ss := by
  induction h with
  | last hs => exact splitFrom_of_unparted hs
  | @cons s ss hs hss ih =>
    rw [Text.join_cons _ _ hss.ne_nil, List.append_assoc, List.singleton_append, split, splitFrom_append hs]
    exact congrArg (s :: ·) ih

theorem isPiece_of_mem_split (hsep : Nest.top.step sep = .top) (h : Nest.top.run s = .top) :
    ∀ p ∈ split sep s, IsPiece sep .top p := by
  obtain ⟨piece, more, hsplit, hpiece, hmore⟩ := exists_splitFrom hsep h
  rw [split, hsplit]
  exact List.forall_mem_cons.2 ⟨hpiece, hmore⟩

/-- A text is split piece by piece: up to the first separator outside strings and brackets, and then what follows it. -/
theorem split_induct {P : Text → List Text → Prop} (last : ∀ s, Unparted sep .top s → P s [s])
    (cons : ∀ piece rest, IsPiece sep .top piece → P rest (split sep rest) →
      P (piece ++ sep :: rest) (piece :: split sep rest)) (s : Text) : P s (split sep s) := by
  induction hl : s.length using Nat.strongRecOn generalizing s with
  | _ k ih =>
    rcases splitFrom_cases sep .top s with ⟨hsplit, hs⟩ | ⟨piece, rest, rfl, hsplit, hpiece⟩
    · rw [split, hsplit]
      exact last s hs
    · have hlt : rest.length < k := by
        rw [← hl, List.length_append, List.length_cons]
        omega
      rw [split, hsplit]
      exact cons piece rest hpiece (ih _ hlt rest rfl)

/-- The pieces of a text are what separators keep apart. -/
theorem parted_split (sep : Char) (s : Text) : Parted sep (split sep s) :=
  split_induct (P := fun _ ss => Parted sep ss) (fun _ hs => .last hs) (fun _ _ hpiece hrest => .cons hpiece hrest) s

end MailTemplate.Css
