import MailTemplate.Proofs.Markup.Names
import MailTemplate.Proofs.Text.Cutting
import MailTemplate.Proofs.Text.Trimming
/-!
# How a start tag can be spelled

A start tag is a name and its attributes, each after blanks, bare or with a value between quotes or without them. Where
the tag ends, what it is called, whether it closes itself and which attributes it has are read off by four scanners:
on every spelling they agree on what was spelled (`end?_spelling`, `name_spelling`, `closesItself_spelling`,
`attributes_spelling`; together `scanners_agree`).
-/
namespace MailTemplate

/-- A text of blanks only, or no text. -/
def Text.AllBlank (t : Text) : Prop := ∀ c ∈ t, isBlank c = true

theorem Text.allBlank_nil : AllBlank [] := by
  rintro c ⟨⟩

theorem Text.allBlank_space : AllBlank [' '] := by
  intro c hc
  rw [List.mem_singleton.1 hc]
  decide

namespace Tag

/-- An attribute as it is written where `next` follows. -/
inductive AttributeSpelling (next : Text) : Attribute → Text → Prop
  | bare {name : Text} : IsAttributeName name → AttributeSpelling next ⟨name, none⟩ name
  | quoted {name before after v : Text} {q : Char} : IsAttributeName name → before.AllBlank → after.AllBlank →
      Text.isQuote q = true → q ∉ v →
      AttributeSpelling next ⟨name, some v⟩ (name ++ (before ++ '=' :: (after ++ q :: (v ++ [q]))))
  | unquoted {name before after v : Text} {c : Char} : IsAttributeName name → before.AllBlank → after.AllBlank →
      (∀ x ∈ v ++ [c], Text.isBlank x = false ∧ x ≠ '>' ∧ Text.isQuote x = false) → c ≠ '/' → next.head? ≠ some '/' →
      AttributeSpelling next ⟨name, some (v ++ [c])⟩ (name ++ (before ++ '=' :: (after ++ (v ++ [c]))))

/-- What stands in a start tag after its name. -/
inductive Spelling (closes : Bool) : List Attribute → Text → Prop
  | nil {blanks : Text} : blanks.AllBlank → Spelling closes [] (blanks ++ if closes then ['/'] else [])
  | cons {blanks t u : Text} {a : Attribute} {as : List Attribute} : blanks ≠ [] → blanks.AllBlank →
      AttributeSpelling u a t → Spelling closes as u → Spelling closes (a :: as) (blanks ++ (t ++ u))

/-! ## Characters -/

theorem isAttributeNameChar_of_isBlank {c : Char} (h : Text.isBlank c = true) : isAttributeNameChar c = false := by
  simp [isAttributeNameChar, h]

theorem isNameChar_of_isBlank {c : Char} (h : Text.isBlank c = true) : isNameChar c = false := by
  simp only [Text.isBlank, Bool.or_eq_true, beq_iff_eq] at h
  rcases h with (((rfl | rfl) | rfl) | rfl) | rfl <;> decide

theorem isQuote_of_isBlank {c : Char} (h : Text.isBlank c = true) : Text.isQuote c = false := by
  simp only [Text.isBlank, Bool.or_eq_true, beq_iff_eq] at h
  rcases h with (((rfl | rfl) | rfl) | rfl) | rfl <;> decide

theorem isBlank_of_isQuote {c : Char} (h : Text.isQuote c = true) : Text.isBlank c = false := by
  simp only [Text.isQuote, Bool.or_eq_true, beq_iff_eq] at h
  rcases h with rfl | rfl <;> decide

theorem ne_of_isBlank {c x : Char} (h : Text.isBlank c = true) (hx : Text.isBlank x = false) : c ≠ x := by
  rintro rfl
  simp [h] at hx

theorem ne_of_isAttributeNameChar {c x : Char} (h : isAttributeNameChar c = true) (hx : isAttributeNameChar x = false) :
    c ≠ x := by
  rintro rfl
  simp [h] at hx

theorem isQuote_of_isAttributeNameChar {c : Char} (h : isAttributeNameChar c = true) : Text.isQuote c = false := by
  have h₁ := ne_of_isAttributeNameChar h (x := '"') (by decide)
  have h₂ := ne_of_isAttributeNameChar h (x := '\'') (by decide)
  simp [Text.isQuote, h₁, h₂]

theorem isQuote_of_isNameChar {c : Char} (h : isNameChar c = true) : Text.isQuote c = false := by
  rw [Bool.eq_false_iff]
  intro hq
  simp only [Text.isQuote, Bool.or_eq_true, beq_iff_eq] at hq
  rcases hq with rfl | rfl <;> exact absurd h (by decide)

/-! ## The end of a tag -/

/-- A text that the search for the end of a tag passes over: it has no end mark outside quotes and closes its quotes. -/
def Passed (t : Text) : Prop := ∀ s, endFrom? none (t ++ s) = (endFrom? none s).map fun p => (t ++ p.1, p.2)

theorem Passed.nil : Passed [] := by
  intro s
  simp

theorem Passed.append {t u : Text} (ht : Passed t) (hu : Passed u) : Passed (t ++ u) := by
  intro s
  rw [List.append_assoc, ht, hu]
  cases endFrom? none s <;> simp

theorem Passed.of_plain {t : Text} (h : ∀ c ∈ t, c ≠ '>' ∧ Text.isQuote c = false) : Passed t := by
  induction t with
  | nil => exact .nil
  | cons c t ih =>
    intro s
    obtain ⟨hgt, hq⟩ := h c List.mem_cons_self
    rw [List.cons_append, endFrom?, if_neg fun he => hgt he.1, quoteAfter, hq, if_neg Bool.false_ne_true,
      ih fun x hx => h x (List.mem_cons_of_mem c hx)]
    cases endFrom? none s <;> rfl

theorem endFrom?_quote {q : Char} {v : Text} (hv : q ∉ v) (s : Text) :
    endFrom? (some q) (v ++ q :: s) = (endFrom? none s).map fun p => (v ++ q :: p.1, p.2) := by
  induction v with
  | nil => rw [List.nil_append, endFrom?, if_neg (by simp), quoteAfter, if_pos rfl]; rfl
  | cons c v ih =>
    rw [List.mem_cons, not_or] at hv
    rw [List.cons_append, endFrom?, if_neg (by simp), quoteAfter, if_neg (Ne.symm hv.1), ih hv.2]
    cases endFrom? none s <;> rfl

theorem Passed.quoted {q : Char} {v : Text} (hq : Text.isQuote q = true) (hv : q ∉ v) : Passed (q :: (v ++ [q])) := by
  intro s
  have hgt : q ≠ '>' := by
    rintro rfl
    exact absurd hq (by decide)
  have he := endFrom?_quote hv s
  rw [List.cons_append, List.append_assoc, List.singleton_append, endFrom?, if_neg fun h => hgt h.1, quoteAfter,
    if_pos hq, he]
  cases endFrom? none s <;> simp

theorem Passed.end? {t : Text} (h : Passed t) (rest : Text) : Tag.end? (t ++ '>' :: rest) = some (t, rest) := by
  rw [Tag.end?, h, endFrom?, if_pos ⟨rfl, rfl⟩]
  simp

theorem Passed.of_allBlank {t : Text} (h : t.AllBlank) : Passed t :=
  .of_plain fun c hc => ⟨ne_of_isBlank (h c hc) (by decide), isQuote_of_isBlank (h c hc)⟩

theorem Passed.of_attributeName {name : Text} (h : IsAttributeName name) : Passed name :=
  .of_plain fun c hc => ⟨ne_of_isAttributeNameChar (h.2 c hc) (by decide), isQuote_of_isAttributeNameChar (h.2 c hc)⟩

theorem Passed.of_elementName {name : Text} (h : IsElementName name) : Passed name := by
  refine .of_plain fun c hc => ⟨?_, isQuote_of_isNameChar (h.isNameChar c hc)⟩
  rintro rfl
  exact absurd (h.isNameChar _ hc) (by decide)

theorem Passed.singleton {c : Char} (hgt : c ≠ '>') (hq : Text.isQuote c = false) : Passed [c] :=
  .of_plain fun x hx => by rw [List.mem_singleton.1 hx]; exact ⟨hgt, hq⟩

theorem Passed.of_eq : Passed ['='] := .singleton (by decide) (by decide)

theorem AttributeSpelling.passed {next t : Text} {a : Attribute} (h : AttributeSpelling next a t) : Passed t := by
  cases h with
  | bare hn => exact .of_attributeName hn
  | quoted hn hb ha hq hv =>
    exact (Passed.of_attributeName hn).append
      ((Passed.of_allBlank hb).append (Passed.of_eq.append ((Passed.of_allBlank ha).append (.quoted hq hv))))
  | unquoted hn hb ha hv _ _ =>
    exact (Passed.of_attributeName hn).append
      ((Passed.of_allBlank hb).append
        (Passed.of_eq.append ((Passed.of_allBlank ha).append (.of_plain fun c hc => (hv c hc).2))))

theorem Spelling.passed {closes : Bool} {as : List Attribute} {u : Text} (h : Spelling closes as u) : Passed u := by
  induction h with
  | nil hb =>
    refine (Passed.of_allBlank hb).append ?_
    split
    · exact .singleton (by decide) (by decide)
    · exact .nil
  | cons _ hb ha _ ih => exact (Passed.of_allBlank hb).append (ha.passed.append ih)

theorem end?_spelling {closes : Bool} {name u : Text} {as : List Attribute} (hn : IsElementName name)
    (h : Spelling closes as u) (rest : Text) : end? (name ++ u ++ '>' :: rest) = some (name ++ u, rest) :=
  ((Passed.of_elementName hn).append h.passed).end? rest

/-! ## The name -/

/-- What follows a name in a tag begins with a blank, a slash or the end mark. -/
theorem Spelling.head_eq {closes : Bool} {as : List Attribute} {u : Text} (h : Spelling closes as u) (rest : Text)
    {c : Char} (hc : (u ++ '>' :: rest).head? = some c) : Text.isBlank c = true ∨ c = '/' ∨ c = '>' := by
  cases h with
  | @nil blanks hb =>
    cases blanks with
    | nil =>
      cases closes with
      | true => exact .inr (.inl (by simpa using hc.symm))
      | false => exact .inr (.inr (by simpa using hc.symm))
    | cons b blanks =>
      obtain rfl : b = c := by simpa using hc
      exact .inl (hb b List.mem_cons_self)
  | @cons blanks _ _ _ _ hne hb _ _ =>
    obtain ⟨b, blanks, rfl⟩ := List.exists_cons_of_ne_nil hne
    obtain rfl : b = c := by simpa using hc
    exact .inl (hb b List.mem_cons_self)

theorem name_spelling {closes : Bool} {name u : Text} {as : List Attribute} (hn : IsElementName name)
    (h : Spelling closes as u) : Tag.name (name ++ u) = name := by
  refine Text.takeWhile_append_stop hn.isNameChar fun c hc => ?_
  have hhead : (u ++ ['>']).head? = some c := by rw [List.head?_append, hc]; rfl
  rcases h.head_eq [] hhead with hb | rfl | rfl
  · exact isNameChar_of_isBlank hb
  · decide
  · decide

/-! ## The closing mark -/

/-- A text whose last character is neither a blank nor a slash. -/
def EndsSolid (t : Text) : Prop := ∃ init c, t = init ++ [c] ∧ Text.isBlank c = false ∧ c ≠ '/'

theorem EndsSolid.append {t : Text} (h : EndsSolid t) (s : Text) : EndsSolid (s ++ t) := by
  obtain ⟨init, c, rfl, hc⟩ := h
  exact ⟨s ++ init, c, by rw [List.append_assoc], hc⟩

theorem EndsSolid.of_all {t : Text} (hne : t ≠ []) (h : ∀ c ∈ t, Text.isBlank c = false ∧ c ≠ '/') : EndsSolid t :=
  ⟨t.dropLast, t.getLast hne, (List.dropLast_append_getLast hne).symm, h _ (List.getLast_mem hne)⟩

theorem EndsSolid.of_elementName {name : Text} (h : IsElementName name) : EndsSolid name := by
  refine .of_all h.ne_nil fun c hc => ?_
  have hn := h.isNameChar c hc
  constructor
  · rw [Bool.eq_false_iff]
    intro hb
    rw [isNameChar_of_isBlank hb] at hn
    exact Bool.false_ne_true hn
  · rintro rfl
    exact absurd hn (by decide)

theorem AttributeSpelling.endsSolid {next t : Text} {a : Attribute} (h : AttributeSpelling next a t) : EndsSolid t := by
  cases h with
  | bare hn =>
    refine .of_all hn.1 fun c hc => ⟨?_, ne_of_isAttributeNameChar (hn.2 c hc) (by decide)⟩
    rw [Bool.eq_false_iff]
    intro hb
    have := hn.2 c hc
    rw [isAttributeNameChar_of_isBlank hb] at this
    exact Bool.false_ne_true this
  | @quoted name before after v q _ _ _ hq _ =>
    have hs : q ≠ '/' := by
      rintro rfl
      exact absurd hq (by decide)
    exact ⟨name ++ (before ++ '=' :: (after ++ q :: v)), q, by simp, isBlank_of_isQuote hq, hs⟩
  | @unquoted name before after v c _ _ _ hv hc _ =>
    exact ⟨name ++ (before ++ '=' :: (after ++ v)), c, by simp, (hv c (by simp)).1, hc⟩

theorem closesItself_append {closes : Bool} {as : List Attribute} {u : Text} (h : Spelling closes as u) {t : Text}
    (ht : EndsSolid t) : closesItself (t ++ u) = closes := by
  induction h generalizing t with
  | @nil blanks hb =>
    cases closes with
    | true =>
      rw [closesItself, if_pos rfl, ← List.append_assoc, Text.dropEnd_concat _ (by decide), List.getLast?_append]
      rfl
    | false =>
      obtain ⟨init, c, rfl, hc, hs⟩ := ht
      rw [closesItself, if_neg Bool.false_ne_true, List.append_nil, Text.dropEnd_append _ hb, Text.dropEnd_concat _ hc]
      simp [hs]
  | @cons blanks t' u a as _ _ ha _ ih =>
    -- the mark is looked for after the last attribute, so each one goes to what stands before it
    rw [← List.append_assoc, ← List.append_assoc]
    exact ih (ha.endsSolid.append _)

theorem closesItself_spelling {closes : Bool} {name u : Text} {as : List Attribute} (hn : IsElementName name)
    (h : Spelling closes as u) : closesItself (name ++ u) = closes :=
  closesItself_append h (.of_elementName hn)

/-! ## The attributes -/

theorem readAttributes_end (s : Text) : readAttributes ('>' :: s) = [] := by rw [readAttributes, if_pos rfl]

theorem readAttributes_skip {c : Char} (hc : isAttributeNameChar c = false) (hgt : c ≠ '>') (s : Text) :
    readAttributes (c :: s) = readAttributes s := by
  rw [readAttributes, if_neg hgt, if_neg (by simp [hc])]

theorem readAttributes_blanks {t : Text} (ht : t.AllBlank) (s : Text) : readAttributes (t ++ s) = readAttributes s := by
  induction t with
  | nil => rfl
  | cons c t ih =>
    have hc := ht c List.mem_cons_self
    rw [List.cons_append, readAttributes_skip (isAttributeNameChar_of_isBlank hc) (ne_of_isBlank hc (by decide)),
      ih fun x hx => ht x (List.mem_cons_of_mem c hx)]

theorem readAttributes_dropWhile (s : Text) : readAttributes (s.dropWhile Text.isBlank) = readAttributes s := by
  conv_rhs => rw [← List.takeWhile_append_dropWhile (p := Text.isBlank) (l := s)]
  exact (readAttributes_blanks (fun c hc => List.mem_takeWhile_imp hc) _).symm

section Name

variable {name : Text} (hn : IsAttributeName name)
include hn

theorem readAttributes_bare {s : Text} (hs : ∀ c, s.head? = some c → isAttributeNameChar c = false)
    (he : (s.dropWhile Text.isBlank).head? ≠ some '=') :
    readAttributes (name ++ s) = ⟨name, none⟩ :: readAttributes s := by
  obtain ⟨c, more, rfl⟩ := List.exists_cons_of_ne_nil hn.1
  have hc := hn.2 c List.mem_cons_self
  have hmore : ∀ x ∈ more, isAttributeNameChar x = true := fun x hx => hn.2 x (List.mem_cons_of_mem c hx)
  rw [List.cons_append, readAttributes, if_neg (ne_of_isAttributeNameChar hc (by decide)), if_pos hc]
  simp only [Text.dropWhile_append_stop hmore hs, Text.takeWhile_append_stop hmore hs]
  rw [if_neg he, readAttributes_dropWhile]

theorem readAttributes_value {before : Text} (hb : before.AllBlank) (s : Text) :
    readAttributes (name ++ (before ++ '=' :: s)) = ⟨name, some (readValue s).1⟩ :: readAttributes (readValue s).2 := by
  obtain ⟨c, more, rfl⟩ := List.exists_cons_of_ne_nil hn.1
  have hc := hn.2 c List.mem_cons_self
  have hmore : ∀ x ∈ more, isAttributeNameChar x = true := fun x hx => hn.2 x (List.mem_cons_of_mem c hx)
  have hstop : ∀ x, (before ++ '=' :: s).head? = some x → isAttributeNameChar x = false := by
    intro x hx
    cases before with
    | nil =>
      obtain rfl : '=' = x := by simpa using hx
      decide
    | cons b before =>
      obtain rfl : b = x := by simpa using hx
      exact isAttributeNameChar_of_isBlank (hb b List.mem_cons_self)
  have hblank : (before ++ '=' :: s).dropWhile Text.isBlank = '=' :: s :=
    Text.dropWhile_append_stop hb (by rintro x ⟨⟩; decide)
  rw [List.cons_append, readAttributes, if_neg (ne_of_isAttributeNameChar hc (by decide)), if_pos hc]
  simp only [Text.dropWhile_append_stop hmore hstop, Text.takeWhile_append_stop hmore hstop, hblank]
  rfl

end Name

theorem readValue_quoted {q : Char} {after v : Text} (ha : after.AllBlank) (hq : Text.isQuote q = true) (hv : q ∉ v)
    (s : Text) : readValue (after ++ q :: (v ++ q :: s)) = (v, s) := by
  have hb : (after ++ q :: (v ++ q :: s)).dropWhile Text.isBlank = q :: (v ++ q :: s) :=
    Text.dropWhile_append_stop ha (by rintro x ⟨⟩; exact isBlank_of_isQuote hq)
  have hgt : q ≠ '>' := by
    rintro rfl
    exact absurd hq (by decide)
  have hne : ∀ c ∈ v, (c != q) = true := fun c hc => by
    rw [bne_iff_ne]
    rintro rfl
    exact hv hc
  have hstop : ∀ c, (q :: s).head? = some c → (c != q) = false := by
    rintro c ⟨⟩
    simp
  rw [readValue, hb]
  simp only [if_neg hgt, if_pos hq, Text.takeWhile_append_stop hne hstop, Text.dropWhile_append_stop hne hstop,
    List.drop_one, List.tail_cons]

theorem readValue_unquoted {after v s : Text} (ha : after.AllBlank) (hne : v ≠ [])
    (hv : ∀ x ∈ v, Text.isBlank x = false ∧ x ≠ '>' ∧ Text.isQuote x = false)
    (hs : ∀ c, s.head? = some c → Text.isBlank c = true ∨ c = '>') : readValue (after ++ (v ++ s)) = (v, s) := by
  obtain ⟨c, more, rfl⟩ := List.exists_cons_of_ne_nil hne
  obtain ⟨hblank, hgt, hquote⟩ := hv c List.mem_cons_self
  have hb : (after ++ (c :: more ++ s)).dropWhile Text.isBlank = c :: more ++ s :=
    Text.dropWhile_append_stop ha (by rintro x ⟨⟩; exact hblank)
  have hin : ∀ x ∈ c :: more, (!Text.isBlank x && x != '>') = true := fun x hx => by
    simp [(hv x hx).1, (hv x hx).2.1]
  have hstop : ∀ x, s.head? = some x → (!Text.isBlank x && x != '>') = false := by
    intro x hx
    rcases hs x hx with h | rfl
    · simp [h]
    · decide
  rw [readValue, hb, List.cons_append]
  simp only [if_neg hgt, hquote, if_neg Bool.false_ne_true, ← List.cons_append, Text.takeWhile_append_stop hin hstop,
    Text.dropWhile_append_stop hin hstop]

/-- What follows a bare attribute does not read as its value. -/
theorem Spelling.head_dropWhile_ne {closes : Bool} {as : List Attribute} {u : Text} (h : Spelling closes as u)
    (rest : Text) : ((u ++ '>' :: rest).dropWhile Text.isBlank).head? ≠ some '=' := by
  cases h with
  | nil hb =>
    rw [List.append_assoc, Text.dropWhile_append_stop hb]
    · cases closes <;> simp
    · cases closes <;> (rintro c ⟨⟩; decide)
  | @cons blanks t u a as _ hb ha _ =>
    -- the name of the next attribute comes first
    obtain ⟨c, more, ht, hc⟩ : ∃ c more, t = c :: more ∧ isAttributeNameChar c = true := by
      cases ha with
      | bare hn | quoted hn | unquoted hn =>
        obtain ⟨c, more, rfl⟩ := List.exists_cons_of_ne_nil hn.1
        exact ⟨c, _, rfl, hn.2 c List.mem_cons_self⟩
    have hstop : ∀ x, (t ++ u ++ '>' :: rest).head? = some x → Text.isBlank x = false := by
      intro x hx
      obtain rfl : c = x := by simpa [ht] using hx
      rw [Bool.eq_false_iff]
      intro hb
      rw [isAttributeNameChar_of_isBlank hb] at hc
      exact Bool.false_ne_true hc
    rw [List.append_assoc, Text.dropWhile_append_stop hb hstop, ht]
    simpa using ne_of_isAttributeNameChar hc (by decide)

theorem readAttributes_spelling {closes : Bool} {as : List Attribute} {u : Text} (h : Spelling closes as u) :
    readAttributes (u ++ ['>']) = as := by
  induction h with
  | nil hb =>
    rw [List.append_assoc, readAttributes_blanks hb]
    cases closes with
    | true => rw [if_pos rfl, List.singleton_append, readAttributes_skip (by decide) (by decide), readAttributes_end]
    | false => rw [if_neg Bool.false_ne_true, List.nil_append, readAttributes_end]
  | @cons blanks t u a as _ hb ha hu ih =>
    rw [List.append_assoc, readAttributes_blanks hb, List.append_assoc]
    cases ha with
    | bare hn =>
      have hstop : ∀ c, (u ++ ['>']).head? = some c → isAttributeNameChar c = false := by
        intro c hc
        rcases hu.head_eq [] hc with h | rfl | rfl
        · exact isAttributeNameChar_of_isBlank h
        · decide
        · decide
      rw [readAttributes_bare hn hstop (hu.head_dropWhile_ne []), ih]
    | @quoted name before after v q hn hbefore hafter hq hv =>
      have hval := readValue_quoted hafter hq hv (u ++ ['>'])
      simp only [List.append_assoc, List.cons_append, List.nil_append]
      rw [readAttributes_value hn hbefore, hval, ih]
    | @unquoted name before after v c hn hbefore hafter hv hc hnext =>
      have hstop : ∀ x, (u ++ ['>']).head? = some x → Text.isBlank x = true ∨ x = '>' := by
        intro x hx
        rcases hu.head_eq [] hx with h | rfl | rfl
        · exact .inl h
        · -- the slash of the closing mark would be read as the end of the value
          refine absurd ?_ hnext
          cases u with
          | nil => simp at hx
          | cons y u => simpa using hx
        · exact .inr rfl
      have hval := readValue_unquoted hafter (by simp) hv hstop
      simp only [List.append_assoc, List.cons_append] at hval ⊢
      rw [readAttributes_value hn hbefore, hval, ih]

theorem attributes_spelling {closes : Bool} {name u : Text} {as : List Attribute} (hn : IsElementName name)
    (h : Spelling closes as u) : attributes (name ++ u) = as := by
  have hstop : ∀ c, (u ++ ['>']).head? = some c → isNameChar c = false := by
    intro c hc
    rcases h.head_eq [] hc with hb | rfl | rfl
    · exact isNameChar_of_isBlank hb
    · decide
    · decide
  rw [attributes, List.append_assoc, Text.dropWhile_append_stop hn.isNameChar hstop, readAttributes_spelling h]

/-! ## All scanners -/

theorem Spelling.exists_eq_concat {as : List Attribute} {u : Text} (h : Spelling true as u) : ∃ x, u = x ++ ['/'] := by
  induction h with
  | @nil blanks _ => exact ⟨blanks, rfl⟩
  | @cons blanks t _ _ _ _ _ _ _ ih =>
    obtain ⟨x, rfl⟩ := ih
    exact ⟨blanks ++ (t ++ x), by simp⟩

theorem closesItself_concat (x : Text) : closesItself (x ++ ['/']) = true := by
  rw [closesItself, Text.dropEnd_concat x (by decide), List.getLast?_concat]
  rfl

/-- How a tag ends that has a slash just before its end mark. -/
theorem closingMark_suffix_iff {t : Text} : "/>".toList <:+ '<' :: (t ++ ['>']) ↔ ∃ x, t = x ++ ['/'] := by
  constructor
  · rintro ⟨p, hp⟩
    have hlast : p ++ ['/'] = '<' :: t := by
      refine List.append_cancel_right (?_ : _ ++ ['>'] = _ ++ ['>'])
      rw [List.append_assoc, List.cons_append]
      exact hp
    cases p with
    | nil => exact absurd (List.cons.inj hlast).1 (by decide)
    | cons c x => exact ⟨x, (List.cons.inj hlast).2.symm⟩
  · rintro ⟨x, rfl⟩
    exact ⟨'<' :: x, by simp⟩

/-- Whatever follows it, a spelled start tag ends with its last character, has the name and the attributes that were
spelled, in order, is no end tag, and closes itself exactly if a slash stands just before its end mark. -/
theorem scanners_agree {closes : Bool} {name u : Text} {as : List Attribute} (hn : IsElementName name)
    (h : Spelling closes as u) :
    (∀ rest, end? (name ++ u ++ '>' :: rest) = some (name ++ u, rest)) ∧
      Tag.name (name ++ u) = name ∧ (name ++ u).head? ≠ some '/' ∧
      (closesItself (name ++ u) = true ↔ "/>".toList <:+ '<' :: (name ++ u ++ ['>'])) ∧
      attributes (name ++ u) = as := by
  refine ⟨end?_spelling hn h, name_spelling hn h, ?_, ?_, attributes_spelling hn h⟩
  · obtain ⟨c, more, rfl, hc, -⟩ := hn
    rintro ⟨⟩
    exact absurd hc (by decide)
  · rw [closingMark_suffix_iff]
    constructor
    · intro hcloses
      rw [closesItself_spelling hn h] at hcloses
      subst hcloses
      obtain ⟨x, rfl⟩ := h.exists_eq_concat
      exact ⟨name ++ x, by simp⟩
    · rintro ⟨x, hx⟩
      rw [hx]
      exact closesItself_concat x

/-- Attributes spelled in each of the ways there are. -/
def cellAttributes : List Attribute :=
  [⟨"title".toList, some "it's > 1 /".toList⟩, ⟨"test".toList, some "a=\"b\"".toList⟩, ⟨"href".toList, some "/x=1/2".toList⟩,
    ⟨"nowrap".toList, none⟩]

/-- The text of a start tag with these attributes, from behind its name to its end mark. -/
def cellSpelling : Text :=
  [' '] ++ ("title".toList ++ ([] ++ '=' :: ([' '] ++ '"' :: ("it's > 1 /".toList ++ ['"']))) ++
    (['\n'] ++ ("test".toList ++ (['\t'] ++ '=' :: ([] ++ '\'' :: ("a=\"b\"".toList ++ ['\'']))) ++
      ([' '] ++ ("href".toList ++ ([] ++ '=' :: ([] ++ ("/x=1/".toList ++ ['2']))) ++
        ([' '] ++ ("nowrap".toList ++ ([] ++ ['/']))))))))

theorem spelling_cell : Spelling true cellAttributes cellSpelling := by
  have hblank : ∀ {t : Text}, t.all Text.isBlank = true → t.AllBlank := fun ht => List.all_eq_true.1 ht
  have hname : ∀ {t : Text}, (!t.isEmpty && t.all isAttributeNameChar) = true → IsAttributeName t := by
    intro t ht
    simp only [Bool.and_eq_true, Bool.not_eq_true', List.isEmpty_eq_false_iff, List.all_eq_true] at ht
    exact ht
  have hvalue : ∀ {t : Text}, t.all (fun x => !Text.isBlank x && x != '>' && !Text.isQuote x) = true →
      ∀ x ∈ t, Text.isBlank x = false ∧ x ≠ '>' ∧ Text.isQuote x = false := by
    intro t ht x hx
    simpa [and_assoc] using List.all_eq_true.1 ht x hx
  refine .cons (by decide) (hblank rfl) (.quoted (hname rfl) (hblank rfl) (hblank rfl) rfl (by decide)) ?_
  refine .cons (by decide) (hblank rfl) (.quoted (hname rfl) (hblank rfl) (hblank rfl) rfl (by decide)) ?_
  refine .cons (by decide) (hblank rfl) (.unquoted (v := "/x=1/".toList) (c := '2') (hname rfl) (hblank rfl) (hblank rfl)
    (hvalue rfl) (by decide) (by decide)) ?_
  exact .cons (by decide) (hblank rfl) (.bare (hname rfl)) (.nil (hblank rfl))

theorem scanners_agree_cell : IsElementName "td".toList ∧ Spelling true cellAttributes cellSpelling ∧
    (∀ rest, end? ("td".toList ++ cellSpelling ++ '>' :: rest) = some ("td".toList ++ cellSpelling, rest)) ∧
    Tag.name ("td".toList ++ cellSpelling) = "td".toList ∧ ("td".toList ++ cellSpelling).head? ≠ some '/' ∧
    (closesItself ("td".toList ++ cellSpelling) = true ↔
      "/>".toList <:+ '<' :: ("td".toList ++ cellSpelling ++ ['>'])) ∧
    attributes ("td".toList ++ cellSpelling) = cellAttributes := by
  have hname : IsElementName "td".toList := ⟨'t', ['d'], rfl, by decide, List.forall_mem_singleton.2 (by decide)⟩
  exact ⟨hname, spelling_cell, scanners_agree hname spelling_cell⟩

end Tag

end MailTemplate
