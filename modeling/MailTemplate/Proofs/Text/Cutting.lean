import Mathlib
import MailTemplate.Text.Basic
/-!
# Where a text is cut

`cut?` stops at the first mark: nothing before the cut holds the mark (`not_infix_of_cut?`), text that follows changes
nothing (`cut?_append`), and a mark whose last character is nowhere else in it ends whatever does not hold it
(`cut?_mark`).
-/
namespace MailTemplate.Text

theorem after?_append (mark rest : Text) : after? mark (mark ++ rest) = some rest := after?_eq_some_iff.2 rfl

theorem after?_eq_none_iff {mark s : Text} : after? mark s = none ↔ ¬ mark <+: s := by
  rw [Option.eq_none_iff_forall_ne_some]
  constructor
  · rintro h ⟨rest, rfl⟩
    exact h rest (after?_append mark rest)
  · intro h rest hr
    exact h ⟨rest, (after?_eq_some_iff.1 hr).symm⟩

theorem after?_append_right {mark s rest : Text} (h : after? mark s = some rest) (q : Text) :
    after? mark (s ++ q) = some (rest ++ q) := by
  rw [after?_eq_some_iff] at h ⊢
  rw [h, List.append_assoc]

/-- A text at least as long as the mark says all there is to say about beginning with it. -/
theorem after?_append_of_none {mark s : Text} (h : after? mark s = none) (hl : mark.length ≤ s.length) (q : Text) :
    after? mark (s ++ q) = none := by
  rw [after?_eq_none_iff] at h ⊢
  intro hp
  exact h (List.prefix_of_prefix_length_le hp (List.prefix_append s q) hl)

/-- A character that a mark has not in it keeps the mark from going on. -/
theorem not_prefix_append {mark t : Text} {z : Char} (h : ¬ mark <+: t) (hz : z ∉ mark) (rest : Text) :
    ¬ mark <+: t ++ z :: rest := by
  intro hp
  rcases List.prefix_or_prefix_of_prefix hp (List.prefix_append t (z :: rest)) with h' | ⟨u, rfl⟩
  · exact h h'
  · cases u with
    | nil => exact h (by simp)
    | cons x u =>
      obtain ⟨rfl, -⟩ := List.cons_prefix_cons.1 ((List.prefix_append_right_inj t).1 hp)
      exact hz (by simp)

/-- Where a text is cut at a character, whatever does not have the character lies on one of the two sides. -/
theorem infix_cases_of_not_mem {a b before key after : Text} {z : Char} (hz : z ∉ key)
    (h : a ++ z :: b = before ++ (key ++ after)) :
    (∃ after', a = before ++ (key ++ after') ∧ after = after' ++ z :: b) ∨
      ∃ before', b = before' ++ (key ++ after) := by
  rcases List.append_eq_append_iff.1 h with ⟨w, hw, hb⟩ | ⟨w, hw, hk⟩
  · cases w with
    | nil =>
      cases key with
      | nil => exact .inl ⟨[], by simpa using hw.symm, by simpa using hb.symm⟩
      | cons k key =>
        obtain ⟨rfl, -⟩ := List.cons.inj hb
        exact absurd List.mem_cons_self hz
    | cons y w =>
      obtain ⟨-, rfl⟩ := List.cons.inj hb
      exact .inr ⟨w, rfl⟩
  · rcases List.append_eq_append_iff.1 hk with ⟨v, hv, hafter⟩ | ⟨v, hv, hafter⟩
    · exact .inl ⟨v, by rw [hw, hv], hafter⟩
    · cases v with
      | nil => exact .inl ⟨[], by simpa [hw] using hv.symm, by simpa using hafter.symm⟩
      | cons y v =>
        obtain ⟨rfl, -⟩ := List.cons.inj hafter
        exact absurd (by rw [hv]; simp) hz

theorem infix_append_cons_iff {mark a b : Text} {z : Char} (hz : z ∉ mark) :
    mark <:+: a ++ z :: b ↔ mark <:+: a ∨ mark <:+: b := by
  constructor
  · rintro ⟨before, after, he⟩
    rw [List.append_assoc] at he
    rcases infix_cases_of_not_mem hz he.symm with ⟨after', ha, -⟩ | ⟨before', hb⟩
    · exact .inl ⟨before, after', by rw [ha, List.append_assoc]⟩
    · exact .inr ⟨before', after, by rw [hb, List.append_assoc]⟩
  · rintro (h | h)
    · exact h.trans (List.prefix_append a (z :: b)).isInfix
    · exact h.trans ((List.suffix_cons z b).trans (List.suffix_append a (z :: b))).isInfix

/-! ## The first mark -/

theorem length_of_cut? {mark s before rest : Text} (h : cut? mark s = some (before, rest)) :
    s.length = before.length + mark.length + rest.length := by
  rw [eq_append_of_cut? h, List.length_append, List.length_append]

theorem cut?_append {mark s before rest : Text} (h : cut? mark s = some (before, rest)) (q : Text) :
    cut? mark (s ++ q) = some (before, rest ++ q) := by
  induction s generalizing before with
  | nil =>
    unfold cut? at h ⊢
    cases ha : after? mark [] with
    | none => simp [ha] at h
    | some r =>
      rw [ha] at h
      obtain ⟨rfl, rfl⟩ := by simpa using h
      rw [after?_append_right ha]
  | cons c s ih =>
    rw [cut?] at h
    rw [List.cons_append, cut?]
    cases ha : after? mark (c :: s) with
    | some r =>
      rw [ha] at h
      obtain ⟨rfl, rfl⟩ := by simpa using h
      rw [← List.cons_append, after?_append_right ha]
    | none =>
      rw [ha] at h
      obtain ⟨⟨b, r⟩, hc, he⟩ := Option.map_eq_some_iff.1 h
      obtain ⟨rfl, rfl⟩ := by simpa using he
      have hl : mark.length ≤ (c :: s).length := by
        rw [List.length_cons, length_of_cut? hc]; omega
      rw [← List.cons_append, after?_append_of_none ha hl]
      simp [ih hc]

/-- The mark comes first behind a text if nothing but the end of both together is the mark. -/
theorem cut?_eq_some_iff {mark s before rest : Text} : cut? mark s = some (before, rest) ↔
    s = before ++ mark ++ rest ∧ ∀ u v, before ++ mark = u ++ mark ++ v → v = [] := by
  constructor
  · intro h
    refine ⟨eq_append_of_cut? h, ?_⟩
    fun_induction cut? mark s generalizing before with
    | case1 s rest' ha =>
      obtain ⟨rfl, rfl⟩ := by simpa using h
      intro u v huv
      have hlength := congrArg List.length huv
      simp only [List.nil_append, List.length_append] at hlength
      exact List.length_eq_zero_iff.1 (by omega)
    | case2 => cases h
    | case3 c s ha ih =>
      obtain ⟨⟨b, r⟩, hc, he⟩ := Option.map_eq_some_iff.1 h
      obtain ⟨rfl, rfl⟩ := by simpa using he
      intro u v huv
      cases u with
      | nil =>
        -- the mark would stand at the front
        refine absurd ⟨v ++ r, ?_⟩ (after?_eq_none_iff.1 ha)
        rw [eq_append_of_cut? hc, ← List.append_assoc, ← List.cons_append, ← List.cons_append]
        exact congrArg (· ++ r) huv.symm
      | cons x u =>
        obtain ⟨rfl, hmore⟩ := List.cons.inj huv
        exact ih hc u v hmore
  · rintro ⟨rfl, honly⟩
    induction before with
    | nil =>
      unfold cut?
      rw [List.nil_append, after?_append]
    | cons c before ih =>
      have hp : ¬ mark <+: c :: (before ++ mark ++ rest) := by
        intro hp
        have hwhole : mark <+: c :: before ++ mark :=
          List.prefix_of_prefix_length_le hp (List.prefix_append (c :: before ++ mark) rest) (by simp; omega)
        obtain ⟨v, hv⟩ := hwhole
        obtain rfl := honly [] v hv.symm
        have hlength := congrArg List.length hv
        simp at hlength
        omega
      have hbefore := ih fun u v huv => honly (c :: u) v (congrArg (c :: ·) huv)
      rw [List.cons_append, List.cons_append, cut?, after?_eq_none_iff.2 hp, hbefore]
      rfl

theorem not_infix_of_cut? {mark s before rest : Text} (hm : mark ≠ []) (h : cut? mark s = some (before, rest)) :
    ¬ mark <:+: before := by
  rintro ⟨u, v, rfl⟩
  have hend := (cut?_eq_some_iff.1 h).2 u (v ++ mark) (List.append_assoc _ _ _)
  exact hm (List.append_eq_nil_iff.1 hend).2

theorem not_mem_of_cut? {z : Char} {s before rest : Text} (h : cut? [z] s = some (before, rest)) : z ∉ before := by
  intro hz
  obtain ⟨a, b, rfl⟩ := List.append_of_mem hz
  exact not_infix_of_cut? (List.cons_ne_nil z []) h ⟨a, b, by simp⟩

theorem cut?_eq_none_iff {mark s : Text} : cut? mark s = none ↔ ¬ mark <:+: s := by
  fun_induction cut? mark s with
  | case1 s rest ha =>
    obtain rfl := after?_eq_some_iff.1 ha
    exact iff_of_false (by simp) fun h => h (List.prefix_append mark rest).isInfix
  | case2 ha =>
    refine iff_of_true rfl fun h => ?_
    rw [List.infix_nil.1 h] at ha
    cases ha
  | case3 c s ha ih =>
    rw [Option.map_eq_none_iff, ih, List.infix_cons_iff, not_or]
    exact (and_iff_right (after?_eq_none_iff.1 ha)).symm

/-- A character that is not in the mark can be passed over. -/
theorem cut?_append_of_none {mark a : Text} {z : Char} (h : cut? mark a = none) (hz : z ∉ mark) (b : Text) :
    cut? mark (a ++ z :: b) = (cut? mark b).map fun (before, rest) => (a ++ z :: before, rest) := by
  rw [cut?_eq_none_iff] at h
  induction a with
  | nil =>
    have hp : ¬ mark <+: z :: b := not_prefix_append (fun hp => h hp.isInfix) hz b
    rw [List.nil_append, cut?, after?_eq_none_iff.2 hp]
    rfl
  | cons c a ih =>
    have hp : ¬ mark <+: c :: a ++ z :: b := not_prefix_append (fun hp => h hp.isInfix) hz b
    rw [List.cons_append] at hp ⊢
    rw [cut?, after?_eq_none_iff.2 hp, ih fun hi => h (hi.trans (List.suffix_cons c a).isInfix), Option.map_map]
    rfl

/-- What does not hold a mark cannot grow into one with the beginning of that mark, if its last character is unlike the
others. -/
theorem not_prefix_append_mark {init : Text} {z : Char} (hz : z ∉ init) {t : Text} (ht : t ≠ [])
    (hn : ¬ init ++ [z] <+: t) (rest : Text) : ¬ init ++ [z] <+: t ++ (init ++ [z]) ++ rest := by
  intro h
  by_cases hl : (init ++ [z]).length ≤ t.length
  · rw [List.append_assoc] at h
    exact hn (List.prefix_of_prefix_length_le h (List.prefix_append _ _) hl)
  · -- the last character of the mark falls on an earlier one of the mark after `t`
    have hp := List.length_pos_iff.2 ht
    have hl' : t.length ≤ init.length := by simpa using hl
    obtain ⟨u, hu⟩ := h
    have hlast : (init ++ ([z] ++ u))[init.length]? = (t ++ (init ++ ([z] ++ rest)))[init.length]? := by
      simpa using congrArg (·[init.length]?) hu
    rw [List.getElem?_append_right (le_refl _), List.getElem?_append_right hl'] at hlast
    have hinit : (init ++ ([z] ++ rest))[init.length - t.length]? = init[init.length - t.length]? :=
      List.getElem?_append_left (by omega)
    exact hz (List.mem_of_getElem? (by simpa using hinit.symm.trans hlast.symm))

/-- A mark ends what does not hold it. -/
theorem cut?_mark {mark init : Text} {z : Char} (hm : mark = init ++ [z]) (hz : z ∉ init) {t : Text}
    (hn : ¬ mark <:+: t) (rest : Text) : cut? mark (t ++ mark ++ rest) = some (t, rest) := by
  subst hm
  induction t with
  | nil =>
    unfold cut?
    rw [List.nil_append, after?_append]
  | cons c t ih =>
    have hp := not_prefix_append_mark hz (List.cons_ne_nil c t) (fun h => hn h.isInfix) rest
    have ht := ih fun h => hn (h.trans (List.suffix_cons c t).isInfix)
    rw [List.cons_append, List.cons_append] at hp ⊢
    rw [cut?, after?_eq_none_iff.2 hp, ht]
    rfl

theorem cut?_singleton {z : Char} {t : Text} (hn : z ∉ t) (rest : Text) : cut? [z] (t ++ z :: rest) = some (t, rest) := by
  have hi : ¬ [z] <:+: t := fun h => hn (h.subset (List.mem_singleton_self z))
  simpa using cut?_mark (List.nil_append [z]).symm List.not_mem_nil hi rest

/-! ## Runs of characters -/

/-- What a class of characters leaves out is nowhere among its characters. -/
theorem not_mem_of_all_not {l : Text} {p : Char → Bool} {c : Char} (hl : l.all (!p ·) = true) (h : p c = true) :
    c ∉ l := by
  intro hc
  have hnot := List.all_eq_true.1 hl c hc
  rw [h] at hnot
  cases hnot

/-- `dropWhile` stops where the run is over. -/
theorem dropWhile_append_stop {p : Char → Bool} {t s : Text} (ht : ∀ c ∈ t, p c = true)
    (hs : ∀ c, s.head? = some c → p c = false) : (t ++ s).dropWhile p = s := by
  rw [List.dropWhile_append_of_pos ht]
  cases s with
  | nil => rfl
  | cons c s => rw [List.dropWhile_cons_of_neg (by simp [hs c rfl])]

theorem takeWhile_append_stop {p : Char → Bool} {t s : Text} (ht : ∀ c ∈ t, p c = true)
    (hs : ∀ c, s.head? = some c → p c = false) : (t ++ s).takeWhile p = t := by
  rw [List.takeWhile_append_of_pos ht]
  cases s with
  | nil => simp
  | cons c s => rw [List.takeWhile_cons_of_neg (by simp [hs c rfl]), List.append_nil]

end MailTemplate.Text
