import Mathlib.Data.List.Basic
import MailTemplate.Proofs.Css.Splitting
/-!
# Balanced texts

In a balanced text every string is closed, and every bracket outside strings has its partner (`Balanced`). Each reader
of style sheets looks for marks outside strings, and some of them outside brackets too. A reader that passes each kind
of character there is in a balanced text (`Passes`) passes the text (`Passes.run`), and so it finds the mark behind it.
-/
namespace MailTemplate.Css

/-! ## Strings and brackets -/

/-- What stands between a quote and the one that closes it: a backslash takes the next character along. -/
inductive StringBody (q : Char) : Text → Prop
  | nil : StringBody q []
  | plain {c : Char} {s : Text} : c ≠ '\\' → c ≠ q → StringBody q s → StringBody q (c :: s)
  | escaped {c : Char} {s : Text} : StringBody q s → StringBody q ('\\' :: c :: s)

/-- Which characters open a bracket and which close one. Any of these goes with any of those. -/
structure Brackets where
  opening : List Char
  closing : List Char

namespace Brackets

def none : Brackets := ⟨[], []⟩

def round : Brackets := ⟨['('], [')']⟩

def roundOrSquare : Brackets := ⟨['(', '['], [')', ']']⟩

def braces : Brackets := ⟨['\x7b'], ['\x7d']⟩

end Brackets

/-- Texts in which strings are closed, brackets outside strings are balanced, and none of the `marks` is outside strings
and brackets. -/
inductive Balanced (b : Brackets) : List Char → Text → Prop
  | nil {marks : List Char} : Balanced b marks []
  | plain {marks : List Char} {c : Char} {s : Text} : Text.isQuote c = false → c ∉ b.opening → c ∉ b.closing →
      c ∉ marks → Balanced b marks s → Balanced b marks (c :: s)
  | string {marks : List Char} {q : Char} {t s : Text} : Text.isQuote q = true → StringBody q t → Balanced b marks s →
      Balanced b marks (q :: (t ++ q :: s))
  | brackets {marks : List Char} {o c : Char} {t s : Text} : o ∈ b.opening → c ∈ b.closing → Balanced b [] t →
      Balanced b marks s → Balanced b marks (o :: (t ++ c :: s))

variable {b : Brackets} {marks : List Char} {c q : Char} {s t : Text} {d : Nat}

namespace Balanced

theorem append (ht : Balanced b marks t) (hs : Balanced b marks s) : Balanced b marks (t ++ s) := by
  induction ht with
  | nil => exact hs
  | plain hq ho hc hm _ ih => exact .plain hq ho hc hm (ih hs)
  | @string _ q t _ hq ht _ ih =>
    rw [List.cons_append, List.append_assoc]
    exact .string hq ht (ih hs)
  | @brackets _ o c t _ ho hc ht _ _ ih =>
    rw [List.cons_append, List.append_assoc]
    exact .brackets ho hc ht (ih hs)

theorem mono (h : Balanced b marks s) {fewer : List Char} (hm : fewer ⊆ marks) : Balanced b fewer s := by
  induction h with
  | nil => exact .nil
  | plain hq ho hc hcm _ ih => exact .plain hq ho hc (fun h => hcm (hm h)) (ih hm)
  | string hq ht _ ih => exact .string hq ht (ih hm)
  | brackets ho hc ht _ _ ih => exact .brackets ho hc ht (ih hm)

/-- A text without quotes, brackets and marks is balanced. -/
theorem of_forall (h : ∀ c ∈ s, c ∉ '"' :: '\'' :: (b.opening ++ b.closing ++ marks)) : Balanced b marks s := by
  induction s with
  | nil => exact .nil
  | cons c s ih =>
    rw [List.forall_mem_cons] at h
    obtain ⟨hc, hs⟩ := h
    simp only [List.mem_cons, List.mem_append, not_or] at hc
    exact .plain (by simp [Text.isQuote, hc.1, hc.2.1]) hc.2.2.1.1 hc.2.2.1.2 hc.2.2.2 (ih hs)

theorem of_all (h : s.all (· ∉ '"' :: '\'' :: (b.opening ++ b.closing ++ marks)) = true) : Balanced b marks s :=
  of_forall fun c hc => of_decide_eq_true (List.all_eq_true.1 h c hc)

end Balanced

/-! ## First marks -/

/-- How a text with closed strings may begin: no mark is outside its strings, or there is a first one. -/
inductive FirstMark (marks : List Char) : Text → Prop
  | missing {t : Text} : Balanced .none marks t → FirstMark marks t
  | found {u v : Text} {m : Char} : Balanced .none marks u → m ∈ marks → FirstMark marks (u ++ m :: v)

namespace FirstMark

theorem append (ht : Balanced .none marks t) (hs : FirstMark marks s) : FirstMark marks (t ++ s) := by
  cases hs with
  | missing hs => exact .missing (ht.append hs)
  | found hu hm =>
    rw [← List.append_assoc]
    exact .found (ht.append hu) hm

theorem cons (hq : Text.isQuote c = false) (hs : FirstMark marks s) : FirstMark marks (c :: s) := by
  by_cases hm : c ∈ marks
  · exact .found (u := []) .nil hm
  · exact append (.plain hq List.not_mem_nil List.not_mem_nil hm .nil) hs

/-- Brackets do not matter, as long as no quote is among them. -/
theorem of_balanced (hb : (b.opening ++ b.closing).all (!Text.isQuote ·) = true) {stops : List Char}
    (h : Balanced b stops t) (marks : List Char) : FirstMark marks t := by
  have hbracket : ∀ c ∈ b.opening ++ b.closing, Text.isQuote c = false := fun c hc => by
    simpa using List.all_eq_true.1 hb c hc
  induction h with
  | nil => exact .missing .nil
  | plain hq _ _ _ _ ih => exact cons hq ih
  | @string _ q t s hq ht _ ih =>
    have hs := append (.string hq ht .nil) ih
    rwa [List.cons_append, List.append_assoc] at hs
  | @brackets _ o c t s ho hc _ _ iht ihs =>
    have hclose : FirstMark marks (c :: s) := cons (hbracket c (List.mem_append_right _ hc)) ihs
    apply cons (hbracket o (List.mem_append_left _ ho))
    cases iht with
    | missing ht => exact append ht hclose
    | found hu hm =>
      rw [List.append_assoc]
      exact .found hu hm

end FirstMark

/-! ## Readers -/

/-- Whether a reader goes on over all characters that stand in balanced texts, where `put` is what it does with each. It
reads from a depth of brackets and a state with regard to strings on; without brackets the depth says nothing. -/
structure Passes {β : Type} (b : Brackets) (marks : List Char) (read : Nat → StringState → Text → β)
    (put : Char → β → β) : Prop where
  inside : ∀ d st c s, st ≠ .outside → read d st (c :: s) = put c (read d (st.step c) s)
  quote : ∀ d q s, Text.isQuote q = true → read d .outside (q :: s) = put q (read d (.inside q) s)
  plain : ∀ d c s, Text.isQuote c = false → c ∉ b.opening → c ∉ b.closing →
    (d = 0 ∨ b = .none → c ∉ marks) → read d .outside (c :: s) = put c (read d .outside s)
  opening : ∀ d c s, c ∈ b.opening → read d .outside (c :: s) = put c (read (d + 1) .outside s)
  closing : ∀ d c s, c ∈ b.closing → read (d + 1) .outside (c :: s) = put c (read d .outside s)

namespace Passes

variable {β : Type} {read : Nat → StringState → Text → β} {put : Char → β → β}

theorem string (h : Passes b marks read put) (hq : Text.isQuote q = true) (ht : StringBody q t) (d : Nat) (s : Text) :
    read d (.inside q) (t ++ q :: s) = t.foldr put (put q (read d .outside s)) := by
  have hback : q ≠ '\\' := by
    rintro rfl
    exact absurd hq (by decide)
  induction ht with
  | nil =>
    rw [List.nil_append, h.inside _ _ _ _ (by simp), StringState.step, if_neg hback, if_pos rfl]
    rfl
  | plain hc hcq _ ih =>
    rw [List.cons_append, h.inside _ _ _ _ (by simp), StringState.step, if_neg hc, if_neg hcq, ih]
    rfl
  | escaped _ ih =>
    rw [List.cons_append, List.cons_append, h.inside _ _ _ _ (by simp), StringState.step, if_pos rfl,
      h.inside _ _ _ _ (by simp), StringState.step, ih]
    rfl

/-- The reader passes a balanced text. Only where it starts outside brackets do the marks matter. -/
theorem run (h : Passes b marks read put) {stops : List Char} (ht : Balanced b stops t)
    (hd : d = 0 ∨ b = .none → stops = marks) (s : Text) :
    read d .outside (t ++ s) = t.foldr put (read d .outside s) := by
  induction ht generalizing d s with
  | nil => rfl
  | plain hq ho hc hm _ ih =>
    have hmarks : d = 0 ∨ b = .none → _ ∉ marks := fun h => hd h ▸ hm
    rw [List.cons_append, h.plain _ _ _ hq ho hc hmarks, ih hd, List.foldr_cons]
  | string hq ht _ ih =>
    rw [List.cons_append, h.quote _ _ _ hq, List.append_assoc, List.cons_append, h.string hq ht, ih hd, List.foldr_cons,
      List.foldr_append, List.foldr_cons]
  | brackets ho hc _ _ iht ihs =>
    have hin : d + 1 = 0 ∨ b = .none → [] = marks := by
      rintro (hd | rfl)
      · exact absurd hd (Nat.succ_ne_zero d)
      · exact nomatch ho
    rw [List.cons_append, h.opening _ _ _ ho, List.append_assoc, List.cons_append, iht hin, h.closing _ _ _ hc,
      ihs hd, List.foldr_cons, List.foldr_append, List.foldr_cons]

end Passes

/-! ## The readers of style sheets -/

/-- Puts a character before the first of two parts. -/
def consFst {α : Type} (c : Char) (p : Text × α) : Text × α := (c :: p.1, p.2)

theorem foldr_consFst {α : Type} (t : Text) (p : Text × α) : t.foldr consFst p = (t ++ p.1, p.2) := by
  induction t with
  | nil => rfl
  | cons c t ih => rw [List.foldr_cons, ih, consFst, List.cons_append]

theorem foldr_map_consFst {α : Type} (t : Text) (x : Option (Text × α)) :
    t.foldr (fun c r => r.map (consFst c)) x = x.map fun p => (t ++ p.1, p.2) := by
  induction t with
  | nil => exact Option.map_id'.symm
  | cons c t ih =>
    rw [List.foldr_cons, ih, Option.map_map]
    rfl

theorem StringState.step_quote (hq : Text.isQuote q = true) : StringState.step .outside q = .inside q := if_pos hq

theorem StringState.step_plain (hc : Text.isQuote c = false) : StringState.step .outside c = .outside :=
  if_neg (by simp [hc])

theorem passes_cutOutside (hc : Text.isQuote c = false) :
    Passes .none [c] (fun _ st s => cutOutside? c st s) fun c r => r.map (consFst c) where
  inside _ _ _ _ hst := by
    rw [cutOutside?, if_neg fun h => hst h.2]
    rfl
  quote _ q _ hq := by
    have hqc : q ≠ c := by
      rintro rfl
      rw [hq] at hc
      cases hc
    rw [cutOutside?, if_neg fun h => hqc h.1, StringState.step_quote hq]
    rfl
  plain _ x _ hx _ _ hmark := by
    rw [cutOutside?, if_neg fun h => hmark (.inr rfl) (List.mem_singleton.2 h.1), StringState.step_plain hx]
    rfl
  opening _ _ _ h := nomatch h
  closing _ _ _ h := nomatch h

/-- Behind a text with closed strings and no mark outside of them, the next mark is found. -/
theorem cutOutside?_append (hc : Text.isQuote c = false) (ht : Balanced .none [c] t) (s : Text) :
    cutOutside? c .outside (t ++ c :: s) = some (t, s) := by
  rw [(passes_cutOutside hc).run (d := 0) ht fun _ => rfl, cutOutside?, if_pos ⟨rfl, rfl⟩, foldr_map_consFst,
    Option.map_some, List.append_nil]

theorem passes_cutAtRule : Passes .none [';', '\x7b'] (fun _ st s => cutAtRule st s) consFst := by
  have hpass : ∀ st c s, ¬ (c = ';' ∧ st = .outside) → ¬ (c = '\x7b' ∧ st = .outside) →
      cutAtRule st (c :: s) = consFst c (cutAtRule (st.step c) s) := by
    intro st c s hc hb
    rw [cutAtRule, if_neg hc, if_neg hb]
    rfl
  refine ⟨fun _ st c s hst => ?_, fun _ q s hq => ?_, fun _ c s hc _ _ hmark => ?_, nofun, nofun⟩
  · exact hpass st c s (fun h => hst h.2) fun h => hst h.2
  · rw [← StringState.step_quote hq]
    apply hpass
    · rintro ⟨rfl, -⟩
      exact absurd hq (by decide)
    · rintro ⟨rfl, -⟩
      exact absurd hq (by decide)
  · have hmark := hmark (.inr rfl)
    simp only [List.mem_cons, List.not_mem_nil, or_false, not_or] at hmark
    rw [hpass _ _ _ (fun h => hmark.1 h.1) fun h => hmark.2 h.1, StringState.step_plain hc]

/-- An at-rule goes on over a text with closed strings and no mark outside of them. -/
theorem cutAtRule_append (ht : Balanced .none [';', '\x7b'] t) (s : Text) :
    cutAtRule .outside (t ++ s) = (t ++ (cutAtRule .outside s).1, (cutAtRule .outside s).2) := by
  rw [passes_cutAtRule.run (d := 0) ht fun _ => rfl, foldr_consFst]

theorem passes_cutBlock : Passes .braces [] cutBlock consFst := by
  have hpass : ∀ d st c s, ¬ (c = '\x7d' ∧ st = .outside ∧ d = 0) →
      cutBlock d st (c :: s) = consFst c (cutBlock (braceDepth d st c) (st.step c) s) := by
    intro d st c s hc
    rw [cutBlock, if_neg hc]
    rfl
  refine ⟨fun d st c s hst => ?_, fun d q s hq => ?_, fun d c s hc ho hclose _ => ?_, fun d c s ho => ?_,
    fun d c s hclose => ?_⟩
  · rw [hpass _ _ _ _ fun h => hst h.2.1, braceDepth, if_neg hst]
  · have hq' : q ≠ '\x7b' ∧ q ≠ '\x7d' := by
      constructor <;> (rintro rfl; exact absurd hq (by decide))
    rw [hpass _ _ _ _ fun h => hq'.2 h.1, braceDepth, if_pos rfl, if_neg hq'.1, if_neg hq'.2, StringState.step_quote hq]
  · have ho : c ≠ '\x7b' := fun h => ho (List.mem_singleton.2 h)
    have hclose : c ≠ '\x7d' := fun h => hclose (List.mem_singleton.2 h)
    rw [hpass _ _ _ _ fun h => hclose h.1, braceDepth, if_pos rfl, if_neg ho, if_neg hclose, StringState.step_plain hc]
  · obtain rfl := List.mem_singleton.1 ho
    rw [hpass _ _ _ _ (by simp)]
    rfl
  · obtain rfl := List.mem_singleton.1 hclose
    rw [hpass _ _ _ _ (by simp)]
    rfl

/-- A block ends with the first brace behind a text with closed strings and balanced braces. -/
theorem cutBlock_append (ht : Balanced .braces [] t) (s : Text) :
    cutBlock 0 .outside (t ++ '\x7d' :: s) = (t, some s) := by
  rw [passes_cutBlock.run ht fun _ => rfl, cutBlock, if_pos ⟨rfl, rfl, rfl⟩, foldr_consFst, List.append_nil]

namespace Nest

theorem step_inside {st : StringState} (hst : st ≠ .outside) (d : Nat) (c : Char) : step ⟨st, d⟩ c = ⟨st.step c, d⟩ := by
  rw [step, if_neg hst]

theorem step_quote (hq : Text.isQuote q = true) (d : Nat) : step ⟨.outside, d⟩ q = ⟨.inside q, d⟩ := by
  rw [Text.isQuote, Bool.or_eq_true, beq_iff_eq, beq_iff_eq] at hq
  rcases hq with rfl | rfl <;> rfl

theorem step_plain (hc : Text.isQuote c = false) (ho : c ∉ ['(', '[']) (hclose : c ∉ [')', ']']) (d : Nat) :
    step ⟨.outside, d⟩ c = ⟨.outside, d⟩ := by
  rw [List.mem_pair] at ho hclose
  rw [step, StringState.step_plain hc, if_pos rfl, if_neg ho, if_neg hclose]

theorem step_opening (ho : c ∈ ['(', '[']) (d : Nat) : step ⟨.outside, d⟩ c = ⟨.outside, d + 1⟩ := by
  rw [List.mem_pair] at ho
  rcases ho with rfl | rfl <;> rfl

theorem step_closing (hclose : c ∈ [')', ']']) (d : Nat) : step ⟨.outside, d⟩ c = ⟨.outside, d - 1⟩ := by
  rw [List.mem_pair] at hclose
  rcases hclose with rfl | rfl <;> rfl

end Nest

theorem passes_run : Passes .roundOrSquare [] (fun d st s => Nest.run ⟨st, d⟩ s) fun _ n => n where
  inside d st c s hst := by rw [Nest.run_cons, Nest.step_inside hst]
  quote d q s hq := by rw [Nest.run_cons, Nest.step_quote hq]
  plain d c s hc ho hclose _ := by rw [Nest.run_cons, Nest.step_plain hc ho hclose]
  opening d c s ho := by rw [Nest.run_cons, Nest.step_opening ho]
  closing d c s hclose := by rw [Nest.run_cons, Nest.step_closing hclose, Nat.add_sub_cancel]

theorem isPiece_cons_iff {sep : Char} {n : Nest} :
    IsPiece sep n (c :: s) ↔ ¬ (c = sep ∧ n = .top) ∧ IsPiece sep (n.step c) s := by
  constructor
  · rintro ⟨⟨hc, hs⟩, hclosed⟩
    exact ⟨hc, hs, hclosed⟩
  · rintro ⟨hc, hs, hclosed⟩
    exact ⟨⟨hc, hs⟩, hclosed⟩

theorem passes_isPiece : Passes .roundOrSquare [','] (fun d st s => IsPiece ',' ⟨st, d⟩ s) fun _ p => p := by
  have hpass : ∀ {d st c s} {n : Nest}, ¬ (c = ',' ∧ st = .outside ∧ d = 0) → Nest.step ⟨st, d⟩ c = n →
      IsPiece ',' ⟨st, d⟩ (c :: s) = IsPiece ',' n s := by
    rintro d st c s _ hc rfl
    refine propext (isPiece_cons_iff.trans (and_iff_right ?_))
    rintro ⟨rfl, htop⟩
    exact hc ⟨rfl, Nest.mk.inj htop⟩
  refine ⟨fun d st c s hst => ?_, fun d q s hq => ?_, fun d c s hc ho hclose hmark => ?_, fun d c s ho => ?_,
    fun d c s hclose => ?_⟩
  · exact hpass (fun h => hst h.2.1) (Nest.step_inside hst d c)
  · refine hpass ?_ (Nest.step_quote hq d)
    rintro ⟨rfl, -⟩
    exact absurd hq (by decide)
  · refine hpass ?_ (Nest.step_plain hc ho hclose d)
    rintro ⟨rfl, -, hd⟩
    exact hmark (.inl hd) (List.mem_singleton.2 rfl)
  · refine hpass ?_ (Nest.step_opening ho d)
    rintro ⟨rfl, -⟩
    exact absurd ho (by decide)
  · refine hpass ?_ (Nest.step_closing hclose (d + 1))
    rintro ⟨rfl, -⟩
    exact absurd hclose (by decide)

/-- A text with closed strings, balanced brackets and no comma outside of both is a piece between commas. -/
theorem isPiece_of_balanced (hs : Balanced .roundOrSquare [','] s) : IsPiece ',' .top s := by
  have hrun := passes_isPiece.run (d := 0) hs (fun _ => rfl) []
  rw [List.append_nil, List.foldr_fixed] at hrun
  exact hrun.mpr ⟨trivial, rfl⟩

end MailTemplate.Css
