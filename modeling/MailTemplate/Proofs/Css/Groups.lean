import MailTemplate.Proofs.Css.SelectorPieces
/-!
# Groups of selectors

A group is cut at its commas before its selectors are read. The cut knows strings and brackets, but not that a backslash
stands before a character of a name, nor that it stands before none in a string of an attribute test. Where the cut finds
each selector, a group is read as its selectors are on their own, and nowhere else; so it is where no backslash stands
before a comma, a quote or a bracket (`parseGroup_join`), but not always (`not_forall_parseGroup_join`).
-/
namespace MailTemplate.Css

variable {s t : Text}

/-! ## What is read is found again -/

theorem readCompound_error (htype : readType s = .ok (none, s)) (hcondition : readCondition? s = none) :
    readCompound s = .error (.unexpected s) := by
  unfold readCompound
  rw [htype]
  dsimp only
  rw [readConditions_of_none hcondition]
  exact if_pos rfl

theorem parse_of_allWhite (h : s.AllWhite) : Selector.parse s = .error ⟨[], .unexpected []⟩ := by
  unfold Selector.parse
  rw [Text.trim_eq_nil_iff.2 h]
  dsimp only
  rw [readCompound_error rfl rfl]
  rfl

/-- No selector that is read begins with a comma. -/
theorem trim_ne_comma {x : Selector} (h : Selector.parse s = .ok x) : Text.trim s ≠ ',' :: t := by
  intro htrim
  obtain ⟨c, u, more, hc, -⟩ := parse_eq_ok_iff.1 h
  rw [htrim, readCompound_error rfl rfl] at hc
  cases hc

theorem not_allWhite_of_parse {x : Selector} (h : Selector.parse s = .ok x) : ¬ s.AllWhite := by
  intro hs
  rw [parse_of_allWhite hs] at h
  cases h

theorem trim_eq_of_parse_eq {x : Selector} (h : Selector.parse s = .ok x) (he : Selector.parse t = Selector.parse s) :
    Text.trim t = Text.trim s := by
  rw [h] at he
  rw [← (selectorWritten_of_parse he).2, ← (selectorWritten_of_parse h).2]

/-- Whether a text is over, or a comma comes first in it. -/
def StartsComma (s : Text) : Prop := s = [] ∨ ∃ t, s = ',' :: t

/-- Where a text goes on after the same beginning, up to a comma each time, what is trimmed to the same is the same. -/
theorem eq_of_trim_eq {p rest tail : Text} (h : p ++ rest = s ++ tail) (hrest : StartsComma rest)
    (htail : StartsComma tail) (htrim : Text.trim p = Text.trim s) : p = s := by
  have hcomma : Text.isWhiteSpace ',' = false := by decide
  -- what one of the two has beyond the other would start with a comma
  have hstart : ∀ {m t : Text}, StartsComma (m ++ t) → m = [] ∨ ∃ m', m = ',' :: m' := by
    rintro (_ | ⟨c, m⟩) t hm
    · exact .inl rfl
    · rcases hm with hnil | ⟨u, hu⟩
      · cases hnil
      · obtain ⟨rfl, -⟩ := List.cons.inj hu
        exact .inr ⟨m, rfl⟩
  rcases List.append_eq_append_iff.1 h with ⟨m, rfl, rfl⟩ | ⟨m, rfl, rfl⟩
  · rcases hstart hrest with rfl | ⟨m, rfl⟩
    · rw [List.append_nil]
    · exact absurd htrim.symm (Text.trim_append_cons_ne hcomma p m)
  · rcases hstart htail with rfl | ⟨m, rfl⟩
    · rw [List.append_nil]
    · exact absurd htrim (Text.trim_append_cons_ne hcomma s m)

/-- What a comma ends after the beginning of a selector that is read is not white space only. -/
theorem not_allWhite_of_append {x : Selector} {p rest tail : Text} (hx : Selector.parse s = .ok x)
    (h : p ++ rest = s ++ tail) (hrest : StartsComma rest) : ¬ p.AllWhite := by
  intro hp
  rcases List.append_eq_append_iff.1 h with ⟨m, rfl, rfl⟩ | ⟨m, rfl, rfl⟩
  · rcases hrest with hnil | ⟨u, hu⟩
    · rw [(List.append_eq_nil_iff.1 hnil).1, List.append_nil] at hx
      exact not_allWhite_of_parse hx hp
    · cases m with
      | nil =>
        rw [List.append_nil] at hx
        exact not_allWhite_of_parse hx hp
      | cons c m =>
        obtain ⟨rfl, -⟩ := List.cons.inj hu
        obtain ⟨v, w, htrim, -⟩ := Text.exists_trim_cons (by decide : Text.isWhiteSpace ',' = false) m
        refine trim_ne_comma hx (t := v) ?_
        rw [← htrim]
        exact Text.strip_append_left _ hp
  · exact not_allWhite_of_parse hx fun c hc => hp c (List.mem_append_left m hc)

/-- Where a group is read as `s` and what comes after it, its first piece is `s`. -/
theorem eq_of_map_parse {x : Selector} {p rest tail : Text} {more : List Text}
    {results : List (Except Refused Selector)}
    (hx : Selector.parse s = .ok x) (h : p ++ rest = s ++ tail) (hrest : StartsComma rest) (htail : StartsComma tail)
    (hread : ((p :: more).filter fun piece => !(Text.trim piece).isEmpty).map Selector.parse =
      Selector.parse s :: results) :
    p = s ∧ (more.filter fun piece => !(Text.trim piece).isEmpty).map Selector.parse = results := by
  have hnonblank : (!(Text.trim p).isEmpty) = true := by
    rw [Bool.not_eq_true', Bool.eq_false_iff, ne_eq, List.isEmpty_iff, Text.trim_eq_nil_iff]
    exact not_allWhite_of_append hx h hrest
  rw [List.filter_cons_of_pos (p := fun piece => !(Text.trim piece).isEmpty) hnonblank, List.map_cons] at hread
  obtain ⟨hparse, hmore⟩ := List.cons.inj hread
  exact ⟨eq_of_trim_eq h hrest htail (trim_eq_of_parse_eq hx hparse), hmore⟩

/-- What comes after the first of some texts begins with a comma, and goes on with the others. -/
theorem exists_join_cons (s : Text) (ss : List Text) : ∃ tail, Text.join [','] (s :: ss) = s ++ tail ∧ StartsComma tail ∧
    ∀ rest, tail = ',' :: rest → ss ≠ [] ∧ rest = Text.join [','] ss := by
  cases ss with
  | nil => exact ⟨[], (List.append_nil s).symm, .inl rfl, by simp⟩
  | cons t ss =>
    refine ⟨',' :: Text.join [','] (t :: ss), ?_, .inr ⟨_, rfl⟩, ?_⟩
    · rw [Text.join_cons _ _ (List.cons_ne_nil t ss), List.append_assoc, List.singleton_append]
    · rintro _ ⟨⟩
      exact ⟨List.cons_ne_nil t ss, rfl⟩

/-- Where a group is read as its selectors are, the cut finds them one after the other. -/
theorem parted_of_parseGroup {ss : List Text} (hne : ss ≠ []) (h : ∀ s ∈ ss, ∃ x, Selector.parse s = .ok x)
    (hgroup : Selector.parseGroup (Text.join [','] ss) = ss.map Selector.parse) : Parted ',' ss := by
  induction ss with
  | nil => exact absurd rfl hne
  | cons s ss ih =>
    rw [List.forall_mem_cons] at h
    obtain ⟨⟨x, hx⟩, hss⟩ := h
    obtain ⟨tail, htext, htail, hmore⟩ := exists_join_cons s ss
    rw [Selector.parseGroup, List.map_cons, split] at hgroup
    rcases splitFrom_cases ',' .top (Text.join [','] (s :: ss)) with ⟨hsplit, hun⟩ | ⟨p, rest, hp, hsplit, hpiece⟩
    · -- without a cut the group is the first selector alone
      rw [hsplit] at hgroup
      rw [htext] at hgroup hun
      obtain ⟨hs, hnil⟩ := eq_of_map_parse hx (List.append_nil _) (.inl rfl) htail hgroup
      rw [List.filter_nil, List.map_nil, eq_comm, List.map_eq_nil_iff] at hnil
      rw [hs] at hun
      rw [hnil]
      exact .last hun
    · rw [hsplit] at hgroup
      obtain ⟨rfl, hrest⟩ := eq_of_map_parse hx (hp.symm.trans htext) (.inr ⟨rest, rfl⟩) htail hgroup
      obtain ⟨hne', rfl⟩ := hmore rest (List.append_cancel_left (htext.symm.trans hp))
      exact .cons hpiece (ih hne' hss hrest)

theorem parseGroup_of_parted {ss : List Text} (h : ∀ s ∈ ss, ∃ x, Selector.parse s = .ok x) (hparted : Parted ',' ss) :
    Selector.parseGroup (Text.join [','] ss) = ss.map Selector.parse := by
  rw [Selector.parseGroup, split_join hparted, List.filter_eq_self.2]
  intro s hs
  obtain ⟨x, hx⟩ := h s hs
  rw [Bool.not_eq_true', Bool.eq_false_iff, ne_eq, List.isEmpty_iff, Text.trim_eq_nil_iff]
  exact not_allWhite_of_parse hx

/-- Where each selector of a group is read on its own, the group is read as they are exactly if the cut finds them all.
It does if no backslash stands before a comma, a quote or a bracket. -/
theorem parseGroup_join {ss : List Text} (hne : ss ≠ []) (h : ∀ s ∈ ss, ∃ x, Selector.parse s = .ok x) :
    (Selector.parseGroup (Text.join [','] ss) = ss.map Selector.parse ↔ Parted ',' ss) ∧
      ((∀ s ∈ ss, EscapesNoMark s) → Selector.parseGroup (Text.join [','] ss) = ss.map Selector.parse) := by
  refine ⟨⟨parted_of_parseGroup hne h, parseGroup_of_parted h⟩, fun hs => ?_⟩
  apply parseGroup_of_parted h
  apply Parted.of_forall hne
  intro s hmem
  obtain ⟨x, hx⟩ := h s hmem
  exact isPiece_of_escapesNoMark hx (hs s hmem)

/-- Selectors with a comma and a bracket in a string, and with an escape. -/
def titledLinks : List Text := ["a[title=\"x,y]\"]".toList, " j\\:if > b ".toList]

theorem parseGroup_join_titledLinks : titledLinks ≠ [] ∧ (∀ s ∈ titledLinks, ∃ x, Selector.parse s = .ok x) ∧
    (∀ s ∈ titledLinks, EscapesNoMark s) ∧ Parted ',' titledLinks ∧
    Selector.parseGroup (Text.join [','] titledLinks) = titledLinks.map Selector.parse := by
  have hne : titledLinks ≠ [] := List.cons_ne_nil _ _
  have hread : ∀ s ∈ titledLinks, ∃ x, Selector.parse s = .ok x := by
    refine List.forall_mem_cons.2 ⟨⟨.ofParts "a[title=\"x,y]\"]".toList ⟨some "a".toList,
      [.compare "title".toList .equal "x,y]".toList]⟩ [], by decide +kernel⟩, List.forall_mem_singleton.2
        ⟨.ofParts "j\\:if > b".toList ⟨some "j:if".toList, []⟩ [(.child, ⟨some "b".toList, []⟩)], by decide +kernel⟩⟩
  have hescapes : ∀ s ∈ titledLinks, EscapesNoMark s :=
    List.forall_mem_cons.2 ⟨by decide, List.forall_mem_singleton.2 (by decide)⟩
  have hgroup := (parseGroup_join hne hread).2 hescapes
  exact ⟨hne, hread, hescapes, (parseGroup_join hne hread).1.1 hgroup, hgroup⟩

/-- A quote behind a backslash belongs to a name, but keeps the commas after it from being found. -/
theorem not_forall_parseGroup_join : ¬ ∀ ss : List Text, ss ≠ [] → (∀ s ∈ ss, ∃ x, Selector.parse s = .ok x) →
    Selector.parseGroup (Text.join [','] ss) = ss.map Selector.parse := by
  intro hall
  have hread : ∀ s ∈ ["a\\\"b".toList, "i".toList], ∃ x, Selector.parse s = .ok x :=
    List.forall_mem_cons.2 ⟨⟨.ofParts "a\\\"b".toList ⟨some "a\"b".toList, []⟩ [], by decide +kernel⟩,
      List.forall_mem_singleton.2 ⟨.ofParts "i".toList ⟨some "i".toList, []⟩ [], by decide +kernel⟩⟩
  have hgroup := hall _ (List.cons_ne_nil _ _) hread
  have hlength := congrArg List.length hgroup
  revert hlength
  decide +kernel

end MailTemplate.Css
