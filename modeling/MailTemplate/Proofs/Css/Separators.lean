import MailTemplate.Proofs.Bytes.Strings
/-!
# Separators

Splitting finds the one row of texts that makes the text again when it is joined, and that its separators keep apart
(`split_eq_iff`). So a text can be split on both sides of a separator exactly if a reader comes to that separator outside
strings and brackets (`split_append_iff`).
-/
namespace MailTemplate

theorem Text.join_append (sep : Text) {ss ts : List Text} (hss : ss ≠ []) (hts : ts ≠ []) :
    join sep (ss ++ ts) = join sep ss ++ sep ++ join sep ts := by
  induction ss with
  | nil => exact absurd rfl hss
  | cons s ss ih =>
    rw [List.cons_append, join_cons _ _ (List.append_ne_nil_of_right_ne_nil ss hts)]
    by_cases h : ss = []
    · rw [h]
      rfl
    · rw [ih h, join_cons _ _ h]
      simp

namespace Css

variable {sep : Char} {n : Nest} {s t : Text} {ss ts : List Text}

/-! ## Where a reader is -/

/-- Whether a text that is read with `d` brackets open closes all its strings and leaves `e` brackets open. A bracket that
closes nothing is passed over. -/
inductive DepthAfter : Nat → Text → Nat → Prop
  | nil {d : Nat} : DepthAfter d [] d
  | string {d e : Nat} {q : Char} {t s : Text} : Text.isQuote q = true → StringBody q t → DepthAfter d s e →
      DepthAfter d (q :: (t ++ q :: s)) e
  | plain {d e : Nat} {c : Char} {s : Text} : Text.isQuote c = false → c ∉ ['(', '['] → c ∉ [')', ']'] →
      DepthAfter d s e → DepthAfter d (c :: s) e
  | opening {d e : Nat} {c : Char} {s : Text} : c ∈ ['(', '['] → DepthAfter (d + 1) s e → DepthAfter d (c :: s) e
  | closing {d e : Nat} {c : Char} {s : Text} : c ∈ [')', ']'] → DepthAfter (d - 1) s e → DepthAfter d (c :: s) e

variable {q : Char} {d e : Nat}

theorem run_stringBody (hq : Text.isQuote q = true) (ht : StringBody q t) (d : Nat) (s : Text) :
    Nest.run ⟨.outside, d⟩ (q :: (t ++ q :: s)) = Nest.run ⟨.outside, d⟩ s := by
  have hstring := passes_run.string hq ht d s
  rw [List.foldr_fixed] at hstring
  rw [Nest.run_cons, Nest.step_quote hq, hstring]

/-- Whoever comes out of a string has read its closing quote. -/
theorem exists_stringBody (hq : Text.isQuote q = true) (h : Nest.run ⟨.inside q, d⟩ s = ⟨.outside, e⟩) :
    ∃ t rest, StringBody q t ∧ s = t ++ q :: rest := by
  obtain ⟨str, rest, hcut⟩ := exists_stringCut (ne_backslash_of_isQuote hq) s
  induction hcut with
  | missing => cases h
  | closing => exact ⟨[], _, .nil, rfl⟩
  | @plain c _ _ _ hc hne _ ih =>
    rw [Nest.run_cons, Nest.step_inside StringState.noConfusion, StringState.step, if_neg hc, if_neg hne] at h
    obtain ⟨t, rest, ht, rfl⟩ := ih h
    exact ⟨c :: t, rest, .plain hc hne ht, rfl⟩
  | @escaped c _ _ _ _ ih =>
    rw [Nest.run_cons, Nest.step_inside StringState.noConfusion, StringState.step, if_pos rfl, Nest.run_cons,
      Nest.step_inside StringState.noConfusion, StringState.step] at h
    obtain ⟨t, rest, ht, rfl⟩ := ih h
    exact ⟨'\\' :: c :: t, rest, .escaped ht, rfl⟩
  | escaping => cases h

theorem DepthAfter.run_eq (h : DepthAfter d s e) : Nest.run ⟨.outside, d⟩ s = ⟨.outside, e⟩ := by
  induction h with
  | nil => rfl
  | string hq ht _ ih => rw [run_stringBody hq ht, ih]
  | plain hc ho hclose _ ih => rw [Nest.run_cons, Nest.step_plain hc ho hclose, ih]
  | opening ho _ ih => rw [Nest.run_cons, Nest.step_opening ho, ih]
  | closing hclose _ ih => rw [Nest.run_cons, Nest.step_closing hclose, ih]

theorem depthAfter_of_run_eq (h : Nest.run ⟨.outside, d⟩ s = ⟨.outside, e⟩) : DepthAfter d s e := by
  induction hl : s.length using Nat.strong_induction_on generalizing d s with
  | _ k ih =>
    cases s with
    | nil =>
      obtain rfl := (Nest.mk.inj h).2
      exact .nil
    | cons c s =>
      have hs : s.length < k := hl ▸ Nat.lt_succ_self _
      by_cases hq : Text.isQuote c = true
      · -- the whole string is passed at once
        obtain ⟨t, rest, ht, rfl⟩ := exists_stringBody hq (by rwa [Nest.run_cons, Nest.step_quote hq] at h)
        rw [run_stringBody hq ht] at h
        refine .string hq ht (ih rest.length ?_ h rfl)
        rw [List.length_append, List.length_cons] at hs
        omega
      rw [Nest.run_cons] at h
      by_cases ho : c ∈ ['(', '[']
      · rw [Nest.step_opening ho] at h
        exact .opening ho (ih s.length hs h rfl)
      by_cases hclose : c ∈ [')', ']']
      · rw [Nest.step_closing hclose] at h
        exact .closing hclose (ih s.length hs h rfl)
      have hc := Bool.eq_false_iff.2 hq
      rw [Nest.step_plain hc ho hclose] at h
      exact .plain hc ho hclose (ih s.length hs h rfl)

/-- A reader is outside strings and brackets again behind a text that closes its strings and leaves no bracket open. -/
theorem run_top_iff : Nest.top.run s = .top ↔ DepthAfter 0 s 0 := ⟨depthAfter_of_run_eq, DepthAfter.run_eq⟩

/-! ## What separators keep apart -/

/-- A reader meets no separator that counts if it is in a string or in brackets wherever one stands. -/
theorem unparted_iff : Unparted sep n s ↔ ∀ before after, s = before ++ sep :: after → n.run before ≠ .top := by
  induction s generalizing n with
  | nil =>
    refine iff_of_true trivial fun before after h => ?_
    exact absurd h.symm (List.append_ne_nil_of_right_ne_nil before (List.cons_ne_nil sep after))
  | cons c s ih =>
    rw [Unparted, ih]
    constructor
    · rintro ⟨hc, hs⟩ before after h
      cases before with
      | nil =>
        obtain ⟨rfl, -⟩ := List.cons.inj h
        exact fun hn => hc ⟨rfl, hn⟩
      | cons d before =>
        obtain ⟨rfl, hmore⟩ := List.cons.inj h
        exact hs before after hmore
    · intro h
      constructor
      · rintro ⟨rfl, hn⟩
        exact h [] s rfl hn
      · rintro before after rfl
        exact h (c :: before) after rfl

theorem parted_iff :
    Parted sep ss ↔ ss ≠ [] ∧ (∀ p ∈ ss.dropLast, Nest.top.run p = .top) ∧ ∀ p ∈ ss, Unparted sep .top p := by
  constructor
  · intro h
    refine ⟨h.ne_nil, ?_⟩
    induction h with
    | last hs => simpa using hs
    | @cons s ss hs hss ih =>
      rw [List.dropLast_cons_of_ne_nil hss.ne_nil, List.forall_mem_cons, List.forall_mem_cons]
      exact ⟨⟨hs.closed, ih.1⟩, hs.unparted, ih.2⟩
  · rintro ⟨hne, hclosed, hun⟩
    induction ss with
    | nil => exact absurd rfl hne
    | cons s ss ih =>
      rw [List.forall_mem_cons] at hun
      by_cases hss : ss = []
      · rw [hss]
        exact .last hun.1
      · rw [List.dropLast_cons_of_ne_nil hss, List.forall_mem_cons] at hclosed
        exact .cons ⟨hun.1, hclosed.1⟩ (ih hss hclosed.2 hun.2)

theorem Parted.append (hss : ∀ s ∈ ss, IsPiece sep .top s) (hts : Parted sep ts) : Parted sep (ss ++ ts) := by
  induction ss with
  | nil => exact hts
  | cons s ss ih =>
    rw [List.forall_mem_cons] at hss
    exact .cons hss.1 (ih hss.2)

/-! ## Joining what was split -/

theorem join_split (sep : Char) (s : Text) : Text.join [sep] (split sep s) = s := by
  refine split_induct (P := fun s ss => Text.join [sep] ss = s) (fun s _ => rfl) (fun piece rest _ hrest => ?_) s
  rw [Text.join_cons _ _ (parted_split sep rest).ne_nil, hrest, List.append_assoc]
  rfl

/-- The pieces of a text are the one row that separators keep apart and that is the text when it is joined. -/
theorem split_eq_iff : split sep s = ss ↔ Parted sep ss ∧ Text.join [sep] ss = s := by
  constructor
  · rintro rfl
    exact ⟨parted_split sep s, join_split sep s⟩
  · rintro ⟨hparted, rfl⟩
    exact split_join hparted

/-! ## Splitting on both sides of a separator -/

section Closed

variable (hsep : Nest.top.step sep = .top)
include hsep

theorem run_join (h : ∀ s ∈ ss, Nest.top.run s = .top) : Nest.top.run (Text.join [sep] ss) = .top := by
  induction ss with
  | nil => rfl
  | cons s ss ih =>
    rw [List.forall_mem_cons] at h
    by_cases hss : ss = []
    · rw [hss]
      exact h.1
    · rw [Text.join_cons _ _ hss, Nest.run_append, Nest.run_append, h.1, Nest.run_cons, hsep, Nest.run_nil, ih h.2]

theorem split_append_iff (t : Text) : split sep (s ++ sep :: t) = split sep s ++ split sep t ↔ Nest.top.run s = .top := by
  have ht := (parted_split sep t).ne_nil
  constructor
  · intro h
    -- none of the pieces before the separator is the last one
    have hall := (parted_iff.1 (split_eq_iff.1 h).1).2.1
    rw [List.dropLast_append_of_ne_nil ht] at hall
    rw [← join_split sep s]
    exact run_join hsep fun p hp => hall p (List.mem_append_left _ hp)
  · intro h
    refine split_eq_iff.2 ⟨Parted.append (isPiece_of_mem_split hsep h) (parted_split sep t), ?_⟩
    rw [Text.join_append _ (parted_split sep s).ne_nil ht, join_split, join_split, List.append_assoc, List.singleton_append]

end Closed

/-- A list of selectors or a block of declarations is split, by characters and by bytes, into the one row of texts that
makes it again when it is joined with the separator: a reader of any of them but the last is outside strings and brackets
at its end, and in none of them does a separator stand outside of both. Splitting on both sides of a separator comes to
the same exactly if the text before it ends outside strings and brackets. -/
theorem split_between_separators (hsep : sep = ',' ∨ sep = ';') (s : Text) :
    Bytes.split? sep s = some (split sep s) ∧
    (∀ ss, split sep s = ss ↔ ss ≠ [] ∧ Text.join [sep] ss = s ∧ (∀ p ∈ ss.dropLast, DepthAfter 0 p 0) ∧
      ∀ p ∈ ss, ∀ before after, p = before ++ sep :: after → ¬ DepthAfter 0 before 0) ∧
    ∀ t, split sep (s ++ sep :: t) = split sep s ++ split sep t ↔ DepthAfter 0 s 0 := by
  have hbytes : Bytes.split? sep s = some (split sep s) := by
    rcases hsep with rfl | rfl <;> exact Bytes.split?_eq (by decide) (by decide) (by decide) s
  have htop : Nest.top.step sep = .top := by
    rcases hsep with rfl | rfl <;> rfl
  refine ⟨hbytes, fun ss => ?_, fun t => (split_append_iff htop t).trans run_top_iff⟩
  rw [split_eq_iff, parted_iff]
  simp only [unparted_iff, ne_eq, run_top_iff]
  constructor
  · rintro ⟨⟨hne, hclosed, hun⟩, hjoin⟩
    exact ⟨hne, hjoin, hclosed, hun⟩
  · rintro ⟨hne, hjoin, hclosed, hun⟩
    exact ⟨⟨hne, hclosed, hun⟩, hjoin⟩

/-- Separators in brackets and behind a quote that does not end its string, and a bracket that closes nothing. -/
def markedBlock : Text := "background:url(a;b);content:\"\\\";\";]x".toList

/-- Its pieces. -/
def markedPieces : List Text := ["background:url(a;b)".toList, "content:\"\\\";\"".toList, "]x".toList]

theorem split_between_separators_markedBlock : (';' = ',' ∨ ';' = ';') ∧
    Bytes.split? ';' markedBlock = some markedPieces ∧ Text.join [';'] markedPieces = markedBlock ∧
    (∀ p ∈ markedPieces.dropLast, DepthAfter 0 p 0) ∧
    ∀ t, split ';' (markedBlock ++ ';' :: t) = markedPieces ++ split ';' t := by
  obtain ⟨hbytes, hpieces, happend⟩ := split_between_separators (.inr rfl) markedBlock
  have hsplit : split ';' markedBlock = markedPieces := by decide
  obtain ⟨-, hjoin, hclosed, -⟩ := (hpieces markedPieces).1 hsplit
  rw [hsplit] at hbytes happend
  exact ⟨.inr rfl, hbytes, hjoin, hclosed, fun t => (happend t).2 (run_top_iff.1 (by decide))⟩

end Css

end MailTemplate
