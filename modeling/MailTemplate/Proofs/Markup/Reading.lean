import MailTemplate.Markup.Parser
import MailTemplate.Proofs.Markup.Grammar
import MailTemplate.Proofs.Markup.Spelling
/-!
# Reading on

What has been read of a template counts for the rest only by the elements it leaves open and their content:
`Nesting.readOn` reads the rest from there, and a template is read by reading on from nothing (`parse_eq_readOn`). A text
that can be read to its end is done with when more follows (`readOn_append`).
-/
namespace MailTemplate

variable {d : Dialect} {n : Nesting} {s rest q : Text} {t : Token}

namespace Token

theorem readAll_nil (d : Dialect) : readAll d [] = ⟨[], none⟩ := by rw [readAll]

theorem readAll_of_error {c : Char} {f : FaultAt} (h : read d c s = .error f) : readAll d (c :: s) = ⟨[], some f⟩ := by
  rw [readAll]
  split
  · next h' => simp_all
  · next h' => simp_all

theorem readAll_of_read {c : Char} (h : read d c s = .ok (t, rest)) :
    readAll d (c :: s) = ⟨t :: (readAll d rest).tokens, (readAll d rest).fault?⟩ := by
  rw [readAll]
  split
  · next h' => simp_all
  · next h' =>
    rw [h] at h'
    simp only [Except.ok.injEq, Prod.mk.injEq] at h'
    obtain ⟨rfl, rfl⟩ := h'
    rfl

theorem readAll_of_reading (h : Reading d s t rest) :
    readAll d s = ⟨t :: (readAll d rest).tokens, (readAll d rest).fault?⟩ := by
  obtain ⟨c, s, rfl, hr⟩ := read_of_reading h
  exact readAll_of_read hr

/-- A text is empty, or it begins with no token, or what follows its first token is shorter. -/
theorem read_induct {P : Text → Prop} (nil : P []) (error : ∀ c s f, read d c s = .error f → P (c :: s))
    (token : ∀ c s t rest, read d c s = .ok (t, rest) → P rest → P (c :: s)) (s : Text) : P s := by
  induction hl : s.length using Nat.strong_induction_on generalizing s with
  | _ k ih =>
    cases s with
    | nil => exact nil
    | cons c s =>
      cases hr : read d c s with
      | error f => exact error c s f hr
      | ok r =>
        obtain ⟨t, rest⟩ := r
        have hlt : rest.length < k := by
          have := length_le_of_read hr
          rw [← hl, List.length_cons]
          omega
        exact token c s t rest hr (ih _ hlt rest rfl)

/-- Texts that can be read to their end are made up of tokens. -/
theorem readAll_induct {P : Text → Prop} (hnil : P [])
    (hcons : ∀ s t rest, Reading d s t rest → (readAll d rest).fault? = none → P rest → P s) (s : Text)
    (h : (readAll d s).fault? = none) : P s := by
  induction s using read_induct (d := d) with
  | nil => exact hnil
  | error c s f hr =>
    rw [readAll_of_error hr] at h
    cases h
  | token c s t rest hr ih =>
    rw [readAll_of_read hr] at h
    exact hcons _ t rest (reading_of_read hr) h (ih h)

/-- A text that can be read to its end is read alike before other tokens. -/
theorem readAll_append (h : (readAll d s).fault? = none) (hq : q.Breaks) :
    readAll d (s ++ q) = ⟨(readAll d s).tokens ++ (readAll d q).tokens, (readAll d q).fault?⟩ := by
  refine readAll_induct (P := fun s => readAll d (s ++ q) = ⟨(readAll d s).tokens ++ (readAll d q).tokens,
    (readAll d q).fault?⟩) ?_ ?_ s h
  · rw [readAll_nil]
    rfl
  · intro s t rest hr _ ih
    rw [readAll_of_reading hr, readAll_of_reading (hr.append hq), ih]
    rfl

end Token

namespace Nesting

/-- Reads the rest of a template, after what has been put together so far. -/
def readOn (d : Dialect) (n : Nesting) (s : Text) : Except Fault Forest :=
  match (Token.readAll d s).fault? with
  | some f => .error f.fault
  | none => .ok (n.steps d (Token.readAll d s).tokens).finish

theorem readOn_nil (d : Dialect) (n : Nesting) : n.readOn d [] = .ok n.finish := by
  rw [readOn, Token.readAll_nil]
  rfl

theorem readOn_of_reading (h : Token.Reading d s t rest) : n.readOn d s = (n.step d t).readOn d rest := by
  rw [readOn, readOn, Token.readAll_of_reading h]
  rfl

theorem readOn_append (h : (Token.readAll d s).fault? = none) (hq : q.Breaks) :
    n.readOn d (s ++ q) = (n.steps d (Token.readAll d s).tokens).readOn d q := by
  rw [readOn, readOn, Token.readAll_append h hq, steps, List.foldl_append]
  rfl

/-- An end tag as it is printed closes what is open of its name. -/
theorem readOn_endTag {name : Text} (hn : IsElementName name) :
    n.readOn d ("</".toList ++ name ++ ">".toList ++ s) = (n.closeNamed d (d.keep name)).readOn d s := by
  obtain ⟨c, more, rfl, hc, hmore⟩ := hn
  have hin : Tag.IsInside ('/' :: c :: more) :=
    ((Tag.Passed.singleton (by decide) (by decide)).append (.of_elementName ⟨c, more, rfl, hc, hmore⟩)).end? []
  have hr : Token.Reading d ('<' :: ('/' :: c :: more ++ '>' :: s)) _ s := .endTag ⟨hin, c, more, rfl, hc⟩
  have hname : Tag.name (c :: more) = c :: more :=
    List.takeWhile_eq_self_iff.2 (IsElementName.isNameChar ⟨c, more, rfl, hc, hmore⟩)
  have hx : "</".toList ++ c :: more ++ ">".toList ++ s = '<' :: ('/' :: c :: more ++ '>' :: s) := by simp
  rw [hx, readOn_of_reading hr, List.drop_one, List.tail_cons, hname]
  rfl

end Nesting

/-! ## Whole templates -/

/-- Reading a template is reading on from nothing; a fault is reported with its place. -/
theorem Forest.parse_eq_readOn (d : Dialect) (s : Text) :
    (Forest.parse d s).mapError ParseError.fault = Nesting.empty.readOn d s := by
  rw [Forest.parse, Nesting.readOn]
  cases (Token.readAll d s).fault? <;> rfl

theorem Forest.parse_eq_ok_iff {f : Forest} : Forest.parse d s = .ok f ↔ Nesting.empty.readOn d s = .ok f := by
  rw [← Forest.parse_eq_readOn]
  cases Forest.parse d s <;> simp [Except.mapError]

theorem Forest.parse_of_readAll {ts : List Token} (hf : (Token.readAll d s).fault? = none)
    (ht : (Token.readAll d s).tokens = ts) : Forest.parse d s = .ok (Forest.ofTokens d ts) := by
  rw [Forest.parse, hf, ht]

theorem Forest.eq_ofTokens_of_parse {f : Forest} (h : Forest.parse d s = .ok f) :
    Forest.ofTokens d (Token.readAll d s).tokens = f := by
  unfold Forest.parse at h
  dsimp only at h
  split at h
  · cases h
  · exact Except.ok.inj h

theorem Forest.fault?_of_parse {f : Forest} (h : Forest.parse d s = .ok f) : (Token.readAll d s).fault? = none := by
  unfold Forest.parse at h
  dsimp only at h
  split at h
  · cases h
  · next hf => exact hf

end MailTemplate
