import MailTemplate.Proofs.Css.Items
/-!
# Comments

A sheet is made of strings, comments and other characters, in one way only (`MadeOf.exists_of`, `MadeOf.unique`).
Comments are taken out without regard to strings. That leaves all but the comments as long as no string holds the mark
that opens one; from the first such mark on, text is lost up to the next closing mark (`stripComments_of_madeOf`,
`stripComments_pieces`).
-/
namespace MailTemplate.Css

variable {q c : Char} {s t t' rest rest' : Text}

/-! ## Strings -/

/-- Whoever reads `s` behind the quote `q` reads `t` as the rest of a string, its closing quote with it, and goes on at
`rest`. A string that is not closed goes to the end. -/
inductive StringCut (q : Char) : Text → Text → Text → Prop
  | missing : StringCut q [] [] []
  | closing {s : Text} : q ≠ '\\' → StringCut q (q :: s) [q] s
  | plain {c : Char} {s t rest : Text} : c ≠ '\\' → c ≠ q → StringCut q s t rest → StringCut q (c :: s) (c :: t) rest
  | escaped {c : Char} {s t rest : Text} : StringCut q s t rest → StringCut q ('\\' :: c :: s) ('\\' :: c :: t) rest
  /-- A backslash at the end has nothing to take along. -/
  | escaping : StringCut q ['\\'] ['\\'] []

namespace StringCut

theorem eq_append (h : StringCut q s t rest) : s = t ++ rest := by
  induction h with
  | missing => rfl
  | closing => rfl
  | plain _ _ _ ih => rw [ih, List.cons_append]
  | escaped _ ih => rw [ih, List.cons_append, List.cons_append]
  | escaping => rfl

/-- A string that leaves something behind it ends with its quote. -/
theorem eq_concat (h : StringCut q s t rest) (hrest : rest ≠ []) : ∃ u, t = u ++ [q] := by
  induction h with
  | missing => exact absurd rfl hrest
  | closing => exact ⟨[], rfl⟩
  | @plain c _ _ _ _ _ _ ih =>
    obtain ⟨u, rfl⟩ := ih hrest
    exact ⟨c :: u, rfl⟩
  | @escaped c _ _ _ _ ih =>
    obtain ⟨u, rfl⟩ := ih hrest
    exact ⟨'\\' :: c :: u, rfl⟩
  | escaping => exact absurd rfl hrest

theorem unique (h : StringCut q s t rest) (h' : StringCut q s t' rest') : t' = t ∧ rest' = rest := by
  induction h generalizing t' with
  | missing => cases h'; exact ⟨rfl, rfl⟩
  | closing hq =>
    cases h' with
    | closing => exact ⟨rfl, rfl⟩
    | plain _ hne => exact absurd rfl hne
    | escaped => exact absurd rfl hq
    | escaping => exact absurd rfl hq
  | plain hc hne _ ih =>
    cases h' with
    | closing => exact absurd rfl hne
    | plain _ _ h' => simpa using ih h'
    | escaped => exact absurd rfl hc
    | escaping => exact absurd rfl hc
  | escaped _ ih =>
    cases h' with
    | closing hq => exact absurd rfl hq
    | plain hc => exact absurd rfl hc
    | escaped h' => simpa using ih h'
  | escaping =>
    cases h' with
    | closing hq => exact absurd rfl hq
    | plain hc => exact absurd rfl hc
    | escaping => exact ⟨rfl, rfl⟩

end StringCut

theorem exists_stringCut (hq : q ≠ '\\') : ∀ s : Text, ∃ t rest, StringCut q s t rest
  | [] => ⟨[], [], .missing⟩
  | c :: s => by
    by_cases hc : c = '\\'
    · subst hc
      cases s with
      | nil => exact ⟨_, _, .escaping⟩
      | cons c s =>
        obtain ⟨t, rest, h⟩ := exists_stringCut hq s
        exact ⟨_, _, .escaped h⟩
    · by_cases hne : c = q
      · subst hne
        exact ⟨_, _, .closing hc⟩
      · obtain ⟨t, rest, h⟩ := exists_stringCut hq s
        exact ⟨_, _, .plain hc hne h⟩

/-! ## Pieces -/

/-- What a sheet is made of before anything in it is read as a rule. Strings have their quotes and comments their marks
with them. -/
inductive Piece where
  | string (t : Text)
  | comment (t : Text)
  | other (c : Char)
  deriving DecidableEq

namespace Piece

def text : Piece → Text
  | string t => t
  | comment t => t
  | other c => [c]

/-- What is left of the piece where comments are taken out. -/
def kept : Piece → Text
  | string t => t
  | comment _ => []
  | other c => [c]

end Piece

/-- The text, read from left to right, is these pieces one after the other. -/
inductive MadeOf : Text → List Piece → Prop
  | nil : MadeOf [] []
  | string {q : Char} {s t rest : Text} {ps : List Piece} : Text.isQuote q = true → StringCut q s t rest →
      MadeOf rest ps → MadeOf (q :: s) (.string (q :: t) :: ps)
  | comment {t rest : Text} {ps : List Piece} : ¬ "*/".toList <:+: t → MadeOf rest ps →
      MadeOf ("/*".toList ++ (t ++ "*/".toList ++ rest)) (.comment ("/*".toList ++ (t ++ "*/".toList)) :: ps)
  | openComment {t : Text} : ¬ "*/".toList <:+: t → MadeOf ("/*".toList ++ t) [.comment ("/*".toList ++ t)]
  | other {c : Char} {s : Text} {ps : List Piece} : Text.isQuote c = false → ¬ "/*".toList <+: c :: s →
      MadeOf s ps → MadeOf (c :: s) (.other c :: ps)

theorem cut?_commentEnd (h : ¬ "*/".toList <:+: t) (rest : Text) :
    Text.cut? "*/".toList (t ++ "*/".toList ++ rest) = some (t, rest) :=
  Text.cut?_mark (show "*/".toList = ['*'] ++ ['/'] from rfl) (by decide) h rest

theorem ne_backslash_of_isQuote (hq : Text.isQuote q = true) : q ≠ '\\' := by
  rintro rfl
  exact absurd hq (by decide)

namespace MadeOf

variable {ps qs : List Piece}

theorem text_eq (h : MadeOf s ps) : ps.flatMap Piece.text = s := by
  induction h with
  | nil => rfl
  | string _ hcut _ ih => rw [List.flatMap_cons, ih, Piece.text, hcut.eq_append, List.cons_append]
  | comment _ _ ih => rw [List.flatMap_cons, ih, Piece.text, List.append_assoc]
  | openComment => rw [List.flatMap_singleton, Piece.text]
  | other _ _ _ ih => rw [List.flatMap_cons, ih, Piece.text, List.singleton_append]

/-- Every text is made of pieces. -/
theorem exists_of (s : Text) : ∃ ps, MadeOf s ps := by
  induction hl : s.length using Nat.strong_induction_on generalizing s with
  | _ n ih =>
    cases s with
    | nil => exact ⟨[], .nil⟩
    | cons c s =>
      cases hq : Text.isQuote c with
      | true =>
        obtain ⟨t, rest, hcut⟩ := exists_stringCut (ne_backslash_of_isQuote hq) s
        have hlength := congrArg List.length hcut.eq_append
        simp only [List.length_append, List.length_cons] at hlength hl
        obtain ⟨ps, hps⟩ := ih rest.length (by omega) rest rfl
        exact ⟨_, .string hq hcut hps⟩
      | false =>
        by_cases hm : "/*".toList <+: c :: s
        · obtain ⟨s', hs⟩ := hm
          rw [← hs]
          cases hcut : Text.cut? "*/".toList s' with
          | none => exact ⟨_, .openComment (Text.cut?_eq_none_iff.1 hcut)⟩
          | some parts =>
            obtain ⟨t, rest⟩ := parts
            have hlt := Text.length_lt_of_cut? (by decide) hcut
            have hlength := congrArg List.length hs
            simp only [List.length_append, List.length_cons] at hlength hl
            obtain ⟨ps, hps⟩ := ih rest.length (by omega) rest rfl
            rw [Text.eq_append_of_cut? hcut]
            exact ⟨_, .comment (Text.not_infix_of_cut? (by decide) hcut) hps⟩
        · obtain ⟨ps, hps⟩ := ih s.length (by rw [← hl]; exact Nat.lt_succ_self _) s rfl
          exact ⟨_, .other hq hm hps⟩

/-- What a text that begins with a comment is made of. -/
theorem of_mark (h : MadeOf ("/*".toList ++ s) ps) :
    match Text.cut? "*/".toList s with
    | none => ps = [.comment ("/*".toList ++ s)]
    | some (t, rest) => ∃ qs, ps = .comment ("/*".toList ++ (t ++ "*/".toList)) :: qs ∧ MadeOf rest qs := by
  generalize hx : "/*".toList ++ s = x at h
  cases h with
  | nil => cases hx
  | string hq =>
    obtain ⟨rfl, -⟩ := List.cons.inj hx
    exact absurd hq (by decide)
  | comment ht hrest =>
    obtain rfl := List.append_cancel_left hx
    rw [cut?_commentEnd ht]
    exact ⟨_, rfl, hrest⟩
  | openComment ht =>
    obtain rfl := List.append_cancel_left hx
    rw [Text.cut?_eq_none_iff.2 ht]
  | other _ hm => exact absurd ⟨s, hx⟩ hm

/-- A text is made of pieces in one way. -/
theorem unique (h : MadeOf s ps) (h' : MadeOf s qs) : qs = ps := by
  induction h generalizing qs with
  | nil =>
    cases h'
    rfl
  | string hq hcut _ ih =>
    cases h' with
    | string _ hcut' hrest =>
      obtain ⟨rfl, rfl⟩ := hcut.unique hcut'
      rw [ih hrest]
    | comment => exact absurd hq (by decide)
    | openComment => exact absurd hq (by decide)
    | other hq' =>
      rw [hq] at hq'
      cases hq'
  | comment ht _ ih =>
    have hmark := of_mark h'
    rw [cut?_commentEnd ht] at hmark
    obtain ⟨rest, rfl, hrest⟩ := hmark
    rw [ih hrest]
  | openComment ht =>
    have hmark := of_mark h'
    rwa [Text.cut?_eq_none_iff.2 ht] at hmark
  | other hq hm _ ih =>
    cases h' with
    | string hq' =>
      rw [hq'] at hq
      cases hq
    | comment => exact absurd (List.prefix_append _ _) hm
    | openComment => exact absurd (List.prefix_append _ _) hm
    | other _ _ hrest => rw [ih hrest]

end MadeOf

/-! ## What is taken out -/

/-- What is left of a text that begins within a comment. -/
def stripOpenComment (s : Text) : Text :=
  match Text.cut? "*/".toList s with
  | none => []
  | some (_, rest) => stripComments rest

theorem stripComments_of_cut? {before : Text} (h : Text.cut? "/*".toList s = some (before, rest)) :
    stripComments s = before ++ stripOpenComment rest := by
  rw [stripComments]
  split
  · next hnone =>
    rw [h] at hnone
    cases hnone
  · next hsome =>
    rw [h] at hsome
    cases hsome
    rw [stripOpenComment]
    split
    · next hend => rw [hend]
    · next hend => rw [hend]

theorem stripComments_nil : stripComments [] = [] := stripComments_eq_self (by decide)

theorem stripComments_append_mark {u : Text} (hu : ¬ "/*".toList <:+: u) (s : Text) :
    stripComments (u ++ "/*".toList ++ s) = u ++ stripOpenComment s :=
  stripComments_of_cut? (Text.cut?_mark (show "/*".toList = ['/'] ++ ['*'] from rfl) (by decide) hu s)

/-- What no comment begins in, not even with its last character, is kept. -/
theorem stripComments_append {u : Text} (h : Text.cut? "/*".toList (u ++ s) =
    (Text.cut? "/*".toList s).map fun (before, rest) => (u ++ before, rest)) :
    stripComments (u ++ s) = u ++ stripComments s := by
  cases hcut : Text.cut? "/*".toList s with
  | none =>
    rw [hcut, Option.map_none] at h
    rw [stripComments_eq_self (Text.cut?_eq_none_iff.1 h), stripComments_eq_self (Text.cut?_eq_none_iff.1 hcut)]
  | some parts =>
    rw [hcut, Option.map_some] at h
    rw [stripComments_of_cut? h, stripComments_of_cut? hcut, List.append_assoc]

/-- Strings of these pieces hold no mark that opens a comment. -/
def HoldNoMark (ps : List Piece) : Prop := ∀ t, Piece.string t ∈ ps → ¬ "/*".toList <:+: t

variable {p : Piece} {ps before after : List Piece}

/-- A piece is kept or taken out, and what follows it is stripped on its own. -/
theorem stripComments_of_madeOf_cons (h : MadeOf s (p :: ps)) (hp : ∀ t, p = .string t → ¬ "/*".toList <:+: t) :
    ∃ rest, MadeOf rest ps ∧ stripComments s = p.kept ++ stripComments rest := by
  cases h with
  | @string q s t rest _ hq hcut hrest =>
    refine ⟨rest, hrest, ?_⟩
    have hmark := hp _ rfl
    rw [hcut.eq_append, ← List.cons_append, Piece.kept]
    by_cases hnil : rest = []
    · rw [hnil, List.append_nil, stripComments_nil, List.append_nil, stripComments_eq_self hmark]
    · -- the quote at the end of the string keeps a comment from beginning there
      obtain ⟨u, rfl⟩ := hcut.eq_concat hnil
      have hquote : q ∉ "/*".toList := by
        intro hmem
        exact Text.not_mem_of_all_not (by decide) hq hmem
      have hu : Text.cut? "/*".toList (q :: u) = none := Text.cut?_eq_none_iff.2 fun hi =>
        hmark (hi.trans (List.prefix_append (q :: u) [q]).isInfix)
      apply stripComments_append
      rw [← List.cons_append, List.append_assoc, List.singleton_append, Text.cut?_append_of_none hu hquote]
      simp
  | @comment t rest _ ht hrest =>
    refine ⟨rest, hrest, ?_⟩
    have hopen := stripComments_append_mark (u := []) (by decide) (t ++ "*/".toList ++ rest)
    rw [stripOpenComment, cut?_commentEnd ht] at hopen
    exact hopen
  | @openComment t ht =>
    refine ⟨[], .nil, ?_⟩
    have hopen := stripComments_append_mark (u := []) (by decide) t
    rw [stripOpenComment, Text.cut?_eq_none_iff.2 ht] at hopen
    rw [stripComments_nil]
    exact hopen
  | @other c s _ _ hm hrest =>
    refine ⟨s, hrest, ?_⟩
    apply stripComments_append (u := [c])
    rw [List.singleton_append, Text.cut?, Text.after?_eq_none_iff.2 hm]
    rfl

/-- As long as no string holds an opening mark, the pieces are kept and the comments are taken out. -/
theorem stripComments_of_madeOf (h : MadeOf s (before ++ after)) (hb : HoldNoMark before) :
    ∃ rest, MadeOf rest after ∧ stripComments s = before.flatMap Piece.kept ++ stripComments rest := by
  induction before generalizing s with
  | nil => exact ⟨s, h, rfl⟩
  | cons p before ih =>
    obtain ⟨rest, hrest, hstrip⟩ := stripComments_of_madeOf_cons h fun t ht => hb t (by simp [ht])
    obtain ⟨rest', hrest', hstrip'⟩ := ih hrest fun t ht => hb t (List.mem_cons_of_mem p ht)
    exact ⟨rest', hrest', by rw [hstrip, hstrip', List.flatMap_cons, List.append_assoc]⟩

/-- A sheet is stripped of its comments and of nothing else, if no string in it holds an opening mark. The first string
that holds one is kept up to that mark only, and text is lost from there up to the next closing mark, or to the end. -/
theorem stripComments_pieces (s : Text) : ∃ ps, (∀ qs, MadeOf s qs ↔ qs = ps) ∧
    (HoldNoMark ps → stripComments s = ps.flatMap Piece.kept) ∧
    ∀ before u v after, ps = before ++ .string (u ++ "/*".toList ++ v) :: after → HoldNoMark before →
      ¬ "/*".toList <:+: u →
      stripComments s = before.flatMap Piece.kept ++ (u ++ stripOpenComment (v ++ after.flatMap Piece.text)) := by
  obtain ⟨ps, hps⟩ := MadeOf.exists_of s
  refine ⟨ps, fun qs => ⟨hps.unique, fun h => h ▸ hps⟩, fun hclean => ?_, ?_⟩
  · rw [← List.append_nil ps] at hps
    obtain ⟨rest, hrest, hstrip⟩ := stripComments_of_madeOf hps hclean
    cases hrest
    rw [hstrip, stripComments_nil, List.append_nil]
  · rintro before u v after rfl hclean hu
    obtain ⟨rest, hrest, hstrip⟩ := stripComments_of_madeOf hps hclean
    have htext : u ++ "/*".toList ++ (v ++ after.flatMap Piece.text) = rest := by
      rw [← hrest.text_eq, List.flatMap_cons, Piece.text, List.append_assoc (u ++ "/*".toList)]
    rw [hstrip, ← htext, stripComments_append_mark hu]

theorem MadeOf.plain_append (ht : t.all (fun c => !Text.isQuote c && c != '/') = true) (h : MadeOf s ps) :
    MadeOf (t ++ s) (t.map .other ++ ps) := by
  induction t with
  | nil => exact h
  | cons c t ih =>
    simp only [List.all_cons, Bool.and_eq_true, Bool.not_eq_true', bne_iff_ne] at ht
    obtain ⟨⟨hq, hslash⟩, ht⟩ := ht
    exact .other hq (fun hm => hslash (List.cons_prefix_cons.1 hm).1.symm) (ih ht)

/-- An opening mark within a string opens a comment, and what is behind it is lost. -/
theorem not_forall_stripComments_madeOf :
    ¬ ∀ s ps, MadeOf s ps → stripComments s = ps.flatMap Piece.kept := by
  intro hall
  have hstring : StringCut '"' "/*\"\x7db\x7bmargin:0\x7d".toList "/*\"".toList "\x7db\x7bmargin:0\x7d".toList :=
    .plain (by decide) (by decide) (.plain (by decide) (by decide) (.closing (by decide)))
  have hrest : MadeOf "\x7db\x7bmargin:0\x7d".toList ("\x7db\x7bmargin:0\x7d".toList.map .other) := by
    have hplain := MadeOf.nil.plain_append (show "\x7db\x7bmargin:0\x7d".toList.all _ = true by decide)
    rwa [List.append_nil, List.append_nil] at hplain
  have hsheet : MadeOf ("p\x7bcontent:".toList ++ '"' :: "/*\"\x7db\x7bmargin:0\x7d".toList)
      ("p\x7bcontent:".toList.map .other ++ .string ('"' :: "/*\"".toList) ::
        "\x7db\x7bmargin:0\x7d".toList.map .other) :=
    (MadeOf.string (by decide) hstring hrest).plain_append (by decide)
  have hstrip := hall _ _ hsheet
  revert hstrip
  decide +kernel

end MailTemplate.Css
