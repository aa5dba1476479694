import MailTemplate.Proofs.Correcting.Replacing
import MailTemplate.Proofs.Markup.Entities
/-!
# Spaces that are escaped twice

A template says `&amp;nbsp;` where the page is to say `&nbsp;`. Reading takes the first escape off, writing does not put
it back, and the last of the corrections does (`restored_escapeText_decode`): the characters between entities neither
lose a pattern nor gain one by the way.
-/
namespace MailTemplate

open Entity

/-! ## What is decoded and escaped -/

/-- Characters that no entity stands for. -/
def IsPlain (c : Char) : Prop := ∀ p ∈ predefined, p.2 ≠ c

instance : DecidablePred IsPlain := fun c => inferInstanceAs (Decidable (∀ p ∈ predefined, p.2 ≠ c))

/-- Decoding brings no plain text to the front. -/
theorem prefix_of_prefix_decode {u s : Text} (hu : ∀ c ∈ u, IsPlain c) (h : u <+: decode s) : u <+: s := by
  induction u generalizing s with
  | nil => exact List.nil_prefix
  | cons x u ih =>
    cases s with
    | nil =>
      rw [decode_nil] at h
      exact h
    | cons c s =>
      cases ha : at? (c :: s) with
      | some r =>
        obtain ⟨y, rest⟩ := r
        rw [decode_of_at? ha] at h
        obtain ⟨rfl, -⟩ := List.cons_prefix_cons.1 h
        obtain ⟨name, hn, -⟩ := at?_eq_some_iff.1 ha
        exact absurd rfl (hu x List.mem_cons_self _ hn)
      | none =>
        rw [decode_cons ha] at h
        obtain ⟨rfl, hmore⟩ := List.cons_prefix_cons.1 h
        exact List.cons_prefix_cons.2 ⟨rfl, ih (fun c hc => hu c (List.mem_cons_of_mem x hc)) hmore⟩

theorem prefix_escapeText {u s : Text} (hu : '<' ∉ u) (h : u <+: s) : u <+: escapeText s := by
  obtain ⟨w, rfl⟩ := h
  rw [escapeText_append, escapeText_of_not_mem hu]
  exact List.prefix_append _ _

theorem isPlain_ne_lt {u : Text} (hu : ∀ c ∈ u, IsPlain c) : '<' ∉ u := fun h => by
  have hlt : ¬ IsPlain '<' := by decide
  exact hlt (hu '<' h)

theorem isPlain_ne_amp {u : Text} (hu : ∀ c ∈ u, IsPlain c) : '&' ∉ u := fun h => by
  have hamp : ¬ IsPlain '&' := by decide
  exact hamp (hu '&' h)

theorem prefix_escapeText_of_decode {u s : Text} (hu : ∀ c ∈ u, IsPlain c) (h : u <+: escapeText (decode s)) :
    u <+: escapeText s :=
  prefix_escapeText (isPlain_ne_lt hu) (prefix_of_prefix_decode hu (prefix_of_prefix_escapeText (isPlain_ne_amp hu) h))

/-- What does not begin in the one text is in the other. -/
theorem infix_of_infix_append {x : Char} {p a b : Text} (hx : x ∉ a) (h : x :: p <:+: a ++ b) : x :: p <:+: b := by
  induction a with
  | nil => exact h
  | cons c a ih =>
    rw [List.mem_cons, not_or] at hx
    rw [List.cons_append, List.infix_cons_iff] at h
    rcases h with h | h
    · exact absurd (List.cons_prefix_cons.1 h).1 hx.1
    · exact ih hx.2 h

theorem escapeText_cons_eq (c : Char) (s : Text) : escapeText (c :: s) = escapeText [c] ++ escapeText s :=
  escapeText_append [c] s

theorem eq_of_mem_escapeText_singleton {x c : Char} (hx : x ∉ "&lt;".toList) (h : x ∈ escapeText [c]) : x = c := by
  by_cases hc : c = '<'
  · rw [hc] at h
    exact absurd h hx
  · rw [escapeText_cons hc] at h
    exact List.mem_singleton.1 h

/-- Decoding brings in no plain text, not even where `<` is escaped. -/
theorem infix_escapeText_of_decode {x : Char} {p t : Text} (hp : ∀ c ∈ x :: p, IsPlain c) (hx : x ∉ "&lt;".toList)
    (h : x :: p <:+: escapeText (decode t)) : x :: p <:+: escapeText t := by
  have hplain : IsPlain x := hp x List.mem_cons_self
  fun_induction decode t with
  | case1 => exact h
  | case2 c s y rest ha ih =>
    obtain ⟨name, hn, he⟩ := at?_eq_some_iff.1 ha
    have hy : x ∉ escapeText [y] := fun hm => hplain _ hn (eq_of_mem_escapeText_singleton hx hm).symm
    rw [escapeText_cons_eq] at h
    rw [he, escapeText_append]
    exact (ih (infix_of_infix_append hy h)).trans (List.suffix_append _ _).isInfix
  | case3 c s ha ih =>
    by_cases hc : c = '<'
    · have hlt : x ∉ escapeText [c] := by
        rw [hc]
        exact hx
      rw [escapeText_cons_eq] at h ⊢
      exact (ih (infix_of_infix_append hlt h)).trans (List.suffix_append _ _).isInfix
    · rw [escapeText_cons hc, List.infix_cons_iff] at h ⊢
      refine h.imp (fun hprefix => ?_) ih
      obtain ⟨rfl, hmore⟩ := List.cons_prefix_cons.1 hprefix
      exact List.cons_prefix_cons.2
        ⟨rfl, prefix_escapeText_of_decode (fun c hc => hp c (List.mem_cons_of_mem x hc)) hmore⟩

/-! ## Putting the escape back -/

/-- Text in which entities are only the first part of a space that is escaped twice. -/
def EscapesOnlySpaces (t : Text) : Prop :=
  ∀ before name after, name ∈ names → t = before ++ name ++ after →
    name = "&amp;".toList ∧ "nbsp;".toList <+: after

theorem EscapesOnlySpaces.of_append {s t : Text} (h : EscapesOnlySpaces (s ++ t)) : EscapesOnlySpaces t := by
  intro before name after hn he
  exact h (s ++ before) name after hn (by rw [he]; simp)

theorem escapesOnlySpaces_iff {t : Text} : EscapesOnlySpaces t ↔
    ∀ s ∈ t.tails, ∀ name ∈ names, name <+: s → name = "&amp;".toList ∧ "nbsp;".toList <+: s.drop name.length := by
  constructor
  · rintro h s hs name hn ⟨after, rfl⟩
    obtain ⟨before, rfl⟩ := (List.mem_tails _ _).1 hs
    rw [List.drop_left]
    exact h before name after hn (List.append_assoc _ _ _).symm
  · rintro h before name after hn rfl
    have hs : name ++ after ∈ (before ++ name ++ after).tails := by
      rw [List.append_assoc, List.mem_tails]
      exact List.suffix_append _ _
    have hname := h (name ++ after) hs name hn (List.prefix_append _ _)
    rwa [List.drop_left] at hname

instance (t : Text) : Decidable (EscapesOnlySpaces t) := decidable_of_iff _ escapesOnlySpaces_iff.symm

namespace Correction

/-- Puts back the escape that reading took off. -/
def space : Correction := ⟨"&nbsp;".toList, "&amp;nbsp;".toList⟩

theorem apply_append_of_head {c : Correction} {z : Char} {p : Text} (hc : c.pattern = z :: p) {u : Text} (hu : z ∉ u)
    (s : Text) : c.apply (u ++ s) = u ++ c.apply s := by
  induction u with
  | nil => rfl
  | cons x u ih =>
    rw [List.mem_cons, not_or] at hu
    have hp : ¬ c.pattern <+: x :: (u ++ s) := by
      rw [hc]
      intro h
      exact hu.1 (List.cons_prefix_cons.1 h).1
    rw [List.cons_append, apply_cons hp, ih hu.2, List.cons_append]

theorem space_apply_append {u : Text} (hu : '&' ∉ u) (s : Text) : space.apply (u ++ s) = u ++ space.apply s :=
  apply_append_of_head (p := "nbsp;".toList) (by decide) hu s

theorem space_pattern : space.pattern = '&' :: "nbsp;".toList := by decide

theorem space_replacement : space.replacement = "&amp;".toList ++ "nbsp;".toList := by decide

/-- An escaped `<` is not the beginning of a space. -/
theorem space_apply_lt (s : Text) : space.apply ("&lt;".toList ++ s) = "&lt;".toList ++ space.apply s := by
  have hp : ¬ space.pattern <+: '&' :: ("lt;".toList ++ s) := by
    rw [space_pattern]
    intro h
    have hnl := (List.cons_prefix_cons.1 h).2
    simp at hnl
  have hl : '&' ∉ "lt;".toList := by decide
  have he : "&lt;".toList = '&' :: "lt;".toList := by decide
  rw [he, List.cons_append, apply_cons hp, space_apply_append hl, List.cons_append]

theorem space_apply_escapeText_decode {t : Text} (hs : EscapesOnlySpaces t) (h : ¬ space.pattern <:+: escapeText t) :
    space.apply (escapeText (decode t)) = escapeText t := by
  have hplain : ∀ c ∈ "nbsp;".toList, IsPlain c := by simp [IsPlain, predefined]
  have hamp : '&' ∉ "nbsp;".toList := isPlain_ne_amp hplain
  have hlt : '<' ∉ "nbsp;".toList := isPlain_ne_lt hplain
  fun_induction decode t with
  | case1 => exact apply_nil space
  | case2 c s y rest ha ih =>
    obtain ⟨name, hn, he⟩ := at?_eq_some_iff.1 ha
    rw [he] at hs h ⊢
    -- the entity is the first part of a space
    obtain ⟨rfl, r, rfl⟩ := hs [] name rest (List.mem_map_of_mem hn) rfl
    have hy : y = '&' := by
      have hall : ∀ p ∈ predefined, p.1 = "&amp;".toList → p.2 = '&' := by decide
      exact hall _ hn rfl
    have hdecode : decode ("nbsp;".toList ++ r) = "nbsp;".toList ++ decode r := by
      rw [decode_append (not_straddles_of_not_mem hamp), decode_of_not_mem hamp]
    have hr : space.apply (escapeText (decode r)) = escapeText r := by
      rw [escapeText_append] at h
      have hrest := ih hs.of_append fun hi => h (hi.trans (List.suffix_append _ _).isInfix)
      rw [hdecode, escapeText_append, escapeText_append, escapeText_of_not_mem hlt, space_apply_append hamp] at hrest
      exact List.append_cancel_left hrest
    have hamp' : '<' ∉ "&amp;".toList := by decide
    calc space.apply (escapeText (y :: decode ("nbsp;".toList ++ r)))
        = space.apply (space.pattern ++ escapeText (decode r)) := by
          rw [hy, hdecode, escapeText_cons (by decide), escapeText_append, escapeText_of_not_mem hlt, space_pattern,
            List.cons_append]
      _ = space.replacement ++ space.apply (escapeText (decode r)) := apply_pattern_append (by decide) _
      _ = escapeText ("&amp;".toList ++ ("nbsp;".toList ++ r)) := by
          rw [hr, space_replacement, escapeText_append, escapeText_append, escapeText_of_not_mem hamp',
            escapeText_of_not_mem hlt, List.append_assoc]
  | case3 c s ha ih =>
    have hsuffix : escapeText s <:+: escapeText (c :: s) := by
      rw [escapeText_cons_eq]
      exact (List.suffix_append _ _).isInfix
    have hrest := ih (EscapesOnlySpaces.of_append (s := [c]) hs) fun hi => h (hi.trans hsuffix)
    by_cases hc : c = '<'
    · rw [hc, escapeText_cons_lt, escapeText_cons_lt, space_apply_lt, hrest]
    · have hp : ¬ space.pattern <+: c :: escapeText (decode s) := by
        intro hprefix
        rw [space_pattern] at h hprefix
        obtain ⟨rfl, hmore⟩ := List.cons_prefix_cons.1 hprefix
        rw [escapeText_cons hc] at h
        exact h (List.cons_prefix_cons.2 ⟨rfl, prefix_escapeText_of_decode hplain hmore⟩).isInfix
      rw [escapeText_cons hc, escapeText_cons hc, apply_cons hp, hrest]

/-- The corrections of names. -/
def names : List Correction := jelly.take 4

theorem jelly_eq : jelly = names ++ [space] := by decide

/-- No pattern of a name has a character that an entity stands for, nor begins where `<` is escaped. -/
theorem exists_pattern_of_mem_names {c : Correction} (h : c ∈ names) :
    ∃ x p, c.pattern = x :: p ∧ (∀ y ∈ x :: p, IsPlain y) ∧ x ∉ "&lt;".toList := by
  have hall : ∀ c ∈ names, c.pattern ≠ [] ∧ (∀ y ∈ c.pattern, IsPlain y) ∧
      ∀ x ∈ c.pattern.head?, x ∉ "&lt;".toList := by simp [names, jelly, IsPlain, predefined]
  obtain ⟨hne, hplain, hx⟩ := hall c h
  obtain ⟨x, p, hp⟩ := List.exists_cons_of_ne_nil hne
  rw [hp] at hplain hx
  exact ⟨x, p, hp, hplain, hx x rfl⟩

/-- Character data that is read and written comes back when it is corrected. -/
theorem applyAll_escapeText_decode {t : Text} (hs : EscapesOnlySpaces t)
    (h : ∀ c ∈ jelly, ¬ c.pattern <:+: escapeText t) : applyAll jelly (escapeText (decode t)) = escapeText t := by
  rw [jelly_eq] at h ⊢
  have hnames : applyAll names (escapeText (decode t)) = escapeText (decode t) := by
    refine applyAll_eq_self fun c hc hi => ?_
    obtain ⟨x, p, hp, hplain, hx⟩ := exists_pattern_of_mem_names hc
    have hnot := h c (List.mem_append_left _ hc)
    rw [hp] at hi hnot
    exact hnot (infix_escapeText_of_decode hplain hx hi)
  rw [applyAll, List.foldl_append]
  change space.apply (applyAll names _) = _
  rw [hnames]
  exact space_apply_escapeText_decode hs (h space (by simp))

end Correction

end MailTemplate
