import MailTemplate.Markup.Entity
import MailTemplate.Markup.Printer
import MailTemplate.Proofs.Text.Cutting
import MailTemplate.Proofs.Text.Trimming
/-!
# Entities in running text

Decoding can be done piece by piece wherever no entity lies across the cut (`decode_append`), and it undoes the escaping
of character data up to what it would have done to the text itself (`decode_escapeText`).
-/
namespace MailTemplate

namespace Entity

/-- The predefined entities as they are written. -/
def names : List Text := predefined.map Prod.fst

/-! ## What an entity is -/

theorem at?_name {name : Text} {c : Char} (h : (name, c) ∈ predefined) (rest : Text) :
    at? (name ++ rest) = some (c, rest) := by
  simp only [predefined, List.mem_cons, Prod.mk.injEq, List.not_mem_nil, or_false] at h
  rcases h with ⟨rfl, rfl⟩ | ⟨rfl, rfl⟩ | ⟨rfl, rfl⟩ | ⟨rfl, rfl⟩ | ⟨rfl, rfl⟩ <;>
    simp [at?, predefined, Text.after?]

theorem at?_eq_some_iff {s rest : Text} {c : Char} :
    at? s = some (c, rest) ↔ ∃ name, (name, c) ∈ predefined ∧ s = name ++ rest := by
  constructor
  · intro h
    obtain ⟨⟨name, c'⟩, hn, he⟩ := List.exists_of_findSome?_eq_some h
    obtain ⟨rest', hr, hp⟩ := Option.map_eq_some_iff.1 he
    obtain ⟨rfl, rfl⟩ := by simpa using hp
    exact ⟨name, hn, Text.after?_eq_some_iff.1 hr⟩
  · rintro ⟨name, hn, rfl⟩
    exact at?_name hn rest

theorem at?_eq_none_iff {s : Text} : at? s = none ↔ ∀ name ∈ names, ¬ name <+: s := by
  rw [Option.eq_none_iff_forall_ne_some]
  constructor
  · rintro h name hn ⟨rest, rfl⟩
    obtain ⟨⟨name, c⟩, hc, rfl⟩ := List.mem_map.1 hn
    exact h (c, rest) (at?_name hc rest)
  · rintro h ⟨c, rest⟩ he
    obtain ⟨name, hn, rfl⟩ := at?_eq_some_iff.1 he
    exact h name (List.mem_map_of_mem hn) (List.prefix_append name rest)

theorem at?_append {a rest : Text} {c : Char} (h : at? a = some (c, rest)) (b : Text) :
    at? (a ++ b) = some (c, rest ++ b) := by
  obtain ⟨name, hn, rfl⟩ := at?_eq_some_iff.1 h
  rw [List.append_assoc]
  exact at?_name hn _

/-- An entity begins with `&`, which stands nowhere else in it. -/
theorem exists_of_mem_names {name : Text} (h : name ∈ names) : ∃ more, name = '&' :: more ∧ more ≠ [] ∧ '&' ∉ more := by
  simp only [names, predefined, List.map_cons, List.map_nil, List.mem_cons, List.not_mem_nil, or_false] at h
  rcases h with rfl | rfl | rfl | rfl | rfl <;> exact ⟨_, rfl, by decide, by decide⟩

theorem not_mem_of_mem_names {name : Text} (h : name ∈ names) : '<' ∉ name := by
  revert name
  decide

/-! ## Decoding step by step -/

theorem decode_nil : decode [] = [] := by rw [decode]

theorem decode_of_at? {s rest : Text} {c : Char} (h : at? s = some (c, rest)) : decode s = c :: decode rest := by
  cases s with
  | nil =>
    have := length_lt_of_at? h
    simp at this
  | cons a s =>
    rw [decode]
    split
    · next h' =>
      obtain ⟨rfl, rfl⟩ := by simpa [h] using h'
      rfl
    · next h' => simp [h] at h'

theorem decode_cons {c : Char} {s : Text} (h : at? (c :: s) = none) : decode (c :: s) = c :: decode s := by
  rw [decode]
  split
  · next h' => simp [h] at h'
  · rfl

theorem decode_name {name : Text} {c : Char} (h : (name, c) ∈ predefined) (rest : Text) :
    decode (name ++ rest) = c :: decode rest := decode_of_at? (at?_name h rest)

theorem decode_eq_nil_iff {s : Text} : decode s = [] ↔ s = [] := by
  fun_cases decode s with
  | case1 => exact iff_of_true rfl rfl
  | case2 => simp
  | case3 => simp

/-! ## Decoding in pieces -/

/-- An entity lies across the cut between two texts. -/
def Straddles (a b : Text) : Prop :=
  ∃ name ∈ names, ∃ u v, name = u ++ v ∧ u ≠ [] ∧ v ≠ [] ∧ u <:+ a ∧ v <+: b

theorem Straddles.cons {a b : Text} (h : Straddles a b) (c : Char) : Straddles (c :: a) b := by
  obtain ⟨name, hn, u, v, he, hu, hv, ha, hb⟩ := h
  exact ⟨name, hn, u, v, he, hu, hv, ha.trans (List.suffix_cons c a), hb⟩

theorem Straddles.of_suffix {a a' b : Text} (h : Straddles a b) (ha : a <:+ a') : Straddles a' b := by
  obtain ⟨name, hn, u, v, he, hu, hv, hua, hb⟩ := h
  exact ⟨name, hn, u, v, he, hu, hv, hua.trans ha, hb⟩

theorem at?_append_of_none {a b : Text} (ha : a ≠ []) (hn : at? a = none) (hs : ¬ Straddles a b) :
    at? (a ++ b) = none := by
  rw [at?_eq_none_iff] at hn ⊢
  intro name hname hp
  rcases List.prefix_or_prefix_of_prefix hp (List.prefix_append a b) with h | ⟨v, rfl⟩
  · exact hn name hname h
  · by_cases hv : v = []
    · exact hn _ hname (by simp [hv])
    · exact hs ⟨_, hname, a, v, rfl, ha, hv, List.suffix_refl a, (List.prefix_append_right_inj a).1 hp⟩

theorem decode_append {a b : Text} (hs : ¬ Straddles a b) : decode (a ++ b) = decode a ++ decode b := by
  fun_induction decode a with
  | case1 => rfl
  | case2 c s d rest h ih =>
    obtain ⟨name, -, hname⟩ := at?_eq_some_iff.1 h
    have hrest : ¬ Straddles rest b := fun hr => hs (hr.of_suffix ⟨name, hname.symm⟩)
    rw [decode_of_at? (at?_append h b), ih hrest, List.cons_append]
  | case3 c s h ih =>
    have hnone := at?_append_of_none (List.cons_ne_nil c s) h hs
    rw [List.cons_append] at hnone ⊢
    rw [decode_cons hnone, ih fun hr => hs (hr.cons c), List.cons_append]

theorem not_straddles_of_not_mem {a b : Text} (h : '&' ∉ a) : ¬ Straddles a b := by
  rintro ⟨name, hn, u, v, rfl, hu, -, ha, -⟩
  obtain ⟨c, u, rfl⟩ := List.exists_cons_of_ne_nil hu
  obtain ⟨more, he, -⟩ := exists_of_mem_names hn
  obtain ⟨rfl, -⟩ := List.cons.inj he
  exact h (ha.subset List.mem_cons_self)

/-- Characters that stand in an entity after its `&`. -/
def isInner (c : Char) : Bool := names.any fun name => name.tail.contains c

theorem not_straddles_of_head {a b : Text} (h : ∀ c, b.head? = some c → isInner c = false) : ¬ Straddles a b := by
  rintro ⟨name, hn, u, v, rfl, hu, hv, -, hb⟩
  obtain ⟨c, v, rfl⟩ := List.exists_cons_of_ne_nil hv
  obtain ⟨x, u, rfl⟩ := List.exists_cons_of_ne_nil hu
  obtain ⟨y, rfl⟩ := hb
  have hin : isInner c = true := List.any_eq_true.2 ⟨_, hn, by simp⟩
  rw [h c rfl] at hin
  exact Bool.false_ne_true hin

/-- A text without entities is decoded to itself. -/
theorem decode_eq_self {s : Text} (h : ∀ name ∈ names, ¬ name <:+: s) : decode s = s := by
  induction s with
  | nil => exact decode_nil
  | cons c s ih =>
    have hn : at? (c :: s) = none := at?_eq_none_iff.2 fun name hname hp => h name hname hp.isInfix
    rw [decode_cons hn, ih fun name hname hi => h name hname (hi.trans (List.suffix_cons c s).isInfix)]

theorem decode_of_not_mem {s : Text} (h : '&' ∉ s) : decode s = s := by
  refine decode_eq_self fun name hn hi => ?_
  obtain ⟨more, rfl, -⟩ := exists_of_mem_names hn
  exact h (hi.subset List.mem_cons_self)

/-! ## White space around entities -/

theorem isInner_of_isWhiteSpace {c : Char} (h : Text.isWhiteSpace c = true) : isInner c = false := by
  rw [Bool.eq_false_iff]
  intro hi
  obtain ⟨name, hn, hc⟩ := List.any_eq_true.1 hi
  have hall : ∀ name ∈ names, name.tail.all (fun c => !Text.isWhiteSpace c) = true := by decide
  have := List.all_eq_true.1 (hall name hn) c (by simpa using hc)
  rw [h] at this
  cases this

theorem decode_of_allWhite {w : Text} (h : w.AllWhite) : decode w = w :=
  decode_of_not_mem fun hc => absurd (h _ hc) (by decide)

theorem decode_allWhite_append {w : Text} (h : w.AllWhite) (t : Text) : decode (w ++ t) = w ++ decode t := by
  rw [decode_append (not_straddles_of_not_mem fun hc => absurd (h _ hc) (by decide)), decode_of_allWhite h]

theorem decode_append_allWhite (t : Text) {w : Text} (h : w.AllWhite) : decode (t ++ w) = decode t ++ w := by
  have hs : ¬ Straddles t w := not_straddles_of_head fun c hc => isInner_of_isWhiteSpace (h c (List.mem_of_mem_head? hc))
  rw [decode_append hs, decode_of_allWhite h]

/-- White space around a text does not count once the text is decoded and trimmed. -/
theorem trim_decode_append (t : Text) {w w' : Text} (h : w.AllWhite) (h' : w'.AllWhite) :
    Text.trim (decode (w ++ t ++ w')) = Text.trim (decode t) := by
  rw [decode_append_allWhite _ h', decode_allWhite_append h, Text.trim_append _ h h']

theorem trim_decode_trim (t : Text) : Text.trim (decode (Text.trim t)) = Text.trim (decode t) := by
  obtain ⟨w, w', ht, hw, hw'⟩ := Text.exists_trim t
  conv_rhs => rw [ht]
  rw [trim_decode_append _ hw hw']

end Entity

/-! ## Escaped character data -/

open Entity

theorem escapeText_cons_lt (s : Text) : escapeText ('<' :: s) = "&lt;".toList ++ escapeText s := rfl

theorem escapeText_cons {c : Char} (h : c ≠ '<') (s : Text) : escapeText (c :: s) = c :: escapeText s := by
  simp [escapeText, h]

@[simp]
theorem escapeText_append (s t : Text) : escapeText (s ++ t) = escapeText s ++ escapeText t := List.flatMap_append

theorem escapeText_of_not_mem {s : Text} (h : '<' ∉ s) : escapeText s = s := by
  induction s with
  | nil => rfl
  | cons c s ih =>
    rw [List.mem_cons, not_or] at h
    rw [escapeText_cons (Ne.symm h.1), ih h.2]

theorem not_mem_escapeText (t : Text) : '<' ∉ escapeText t := by
  intro h
  obtain ⟨c, -, hc⟩ := List.mem_flatMap.1 h
  split at hc
  · exact absurd hc (by decide)
  · next hne => exact hne (List.mem_singleton.1 hc).symm

theorem escapeText_eq_nil_iff {t : Text} : escapeText t = [] ↔ t = [] := by
  cases t with
  | nil => simp [escapeText]
  | cons c t =>
    by_cases h : c = '<'
    · simp [h, escapeText_cons_lt]
    · simp [escapeText_cons h]

/-- Escaping changes nothing before the next `&` that it writes. -/
theorem prefix_of_prefix_escapeText {u s : Text} (hu : '&' ∉ u) (h : u <+: escapeText s) : u <+: s := by
  induction u generalizing s with
  | nil => exact List.nil_prefix
  | cons x u ih =>
    rw [List.mem_cons, not_or] at hu
    cases s with
    | nil => exact h
    | cons c s =>
      by_cases hc : c = '<'
      · rw [hc, escapeText_cons_lt] at h
        exact absurd (List.cons_prefix_cons.1 h).1.symm hu.1
      · rw [escapeText_cons hc] at h
        obtain ⟨rfl, hmore⟩ := List.cons_prefix_cons.1 h
        exact List.cons_prefix_cons.2 ⟨rfl, ih hu.2 hmore⟩

theorem Entity.at?_escapeText_of_none {c : Char} {s : Text} (h : at? (c :: s) = none) :
    at? (c :: escapeText s) = none := by
  rw [at?_eq_none_iff] at h ⊢
  intro name hname hp
  obtain ⟨more, rfl, -, hm⟩ := exists_of_mem_names hname
  obtain ⟨rfl, hmore⟩ := List.cons_prefix_cons.1 hp
  exact h _ hname (List.cons_prefix_cons.2 ⟨rfl, prefix_of_prefix_escapeText hm hmore⟩)

theorem Entity.decode_escapeText (t : Text) : decode (escapeText t) = decode t := by
  fun_induction decode t with
  | case1 => exact decode_nil
  | case2 c s d rest h ih =>
    obtain ⟨name, hn, he⟩ := at?_eq_some_iff.1 h
    rw [he, escapeText_append, escapeText_of_not_mem (not_mem_of_mem_names (List.mem_map_of_mem hn)), decode_name hn, ih]
  | case3 c s h ih =>
    by_cases hc : c = '<'
    · have hlt : ("&lt;".toList, '<') ∈ predefined := by decide
      rw [hc, escapeText_cons_lt, decode_name hlt, ih]
    · rw [escapeText_cons hc, decode_cons (at?_escapeText_of_none h), ih]

end MailTemplate
