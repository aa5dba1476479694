import MailTemplate.Proofs.Markup.Reading
import MailTemplate.Proofs.Text.Bytes
/-!
# Faults

`Token.Stuck` says, without a scanner, where no token can be read: a construct is left open, or an element that holds
raw text has no end tag (`Token.read_eq_error_iff`). A template is refused exactly if it is stuck after a text that can
be read, and the line and column that are reported are those of one byte only (`Forest.parse_eq_error_iff`).
-/
namespace MailTemplate

/-! ## Places -/

namespace Position

/-- The place just after some bytes. -/
def afterBytes (bs : List UInt8) : Position where
  line := bs.count Text.lineFeed + 1
  column := (bs.reverse.takeWhile (· != Text.lineFeed)).length + 1

/-- The place of the byte of a text that `p` others stand before. -/
def ofOffset (src : Text) (p : Nat) : Position := afterBytes (src.bytes.take p)

/-- Lines and columns that are counted in bytes are those of the text. -/
theorem afterBytes_bytes (t : Text) : afterBytes t.bytes = after t := by
  induction t using List.reverseRecOn with
  | nil => rfl
  | append_singleton t c ih =>
    rw [after, afterBytes, mk.injEq] at ih ⊢
    obtain ⟨hline, hcolumn⟩ := ih
    rw [Text.bytes_append, Text.bytes_cons, Text.bytes_nil, List.append_nil, List.reverse_append, List.reverse_concat]
    by_cases hc : c = '\n'
    · subst hc
      constructor
      · rw [List.count_append, List.count_append, Nat.add_right_comm, hline]
        exact Nat.add_right_comm _ _ _
      · rfl
    · have hfeed : ∀ b ∈ String.utf8EncodeChar c, (b != Text.lineFeed) = true := by
        intro b hb
        rw [bne_iff_ne]
        rintro rfl
        exact hc ((Text.mem_utf8EncodeChar_iff c).1 hb)
      have hcount : (String.utf8EncodeChar c).count Text.lineFeed = 0 :=
        List.count_eq_zero.2 ((Text.mem_utf8EncodeChar_iff c).not.2 hc)
      constructor
      · rw [List.count_append, List.count_append, hcount, List.count_singleton, if_neg (by simp [hc])]
        exact hline
      · rw [List.takeWhile_append_of_pos fun b hb => hfeed b (List.mem_reverse.1 hb),
          List.takeWhile_cons_of_pos (by simp [hc]), List.length_append, List.length_reverse,
          String.length_utf8EncodeChar, Text.byteSize]
        omega

theorem ofOffset_byteSize (before rest : Text) : ofOffset (before ++ rest) (Text.byteSize before) = after before := by
  rw [ofOffset, Text.bytes_append, ← Text.length_bytes, List.take_left, afterBytes_bytes]

/-- More bytes are further on: they reach another line, or another column of this one. -/
theorem afterBytes_append_ne (bs : List UInt8) {more : List UInt8} (hne : more ≠ []) :
    afterBytes (bs ++ more) ≠ afterBytes bs := by
  intro h
  rw [afterBytes, afterBytes, mk.injEq, List.count_append] at h
  obtain ⟨hline, hcolumn⟩ := h
  have hcount : more.count Text.lineFeed = 0 := by omega
  have hfeed : ∀ b ∈ more.reverse, (b != Text.lineFeed) = true := by
    intro b hb
    rw [bne_iff_ne]
    rintro rfl
    exact List.count_eq_zero.1 hcount (List.mem_reverse.1 hb)
  rw [List.reverse_append, List.takeWhile_append_of_pos hfeed, List.length_append, List.length_reverse] at hcolumn
  have := List.length_pos_iff.2 hne
  omega

/-- No two bytes of a text have the same place. -/
theorem ofOffset_injOn {src : Text} {p q : Nat} (hp : p ≤ Text.byteSize src) (hq : q ≤ Text.byteSize src)
    (h : ofOffset src p = ofOffset src q) : p = q := by
  wlog hle : p ≤ q generalizing p q
  · exact (this hq hp h.symm (Nat.le_of_not_le hle)).symm
  have htake : src.bytes.take q = src.bytes.take p ++ (src.bytes.drop p).take (q - p) := by
    rw [← List.take_add, Nat.add_sub_cancel' hle]
  by_contra hne
  rw [ofOffset, ofOffset, htake] at h
  refine afterBytes_append_ne _ ?_ h.symm
  rw [← List.length_pos_iff, List.length_take, List.length_drop, Text.length_bytes]
  omega

theorem ofOffset_eq_after_iff {before rest : Text} {p : Nat} (hp : p ≤ Text.byteSize (before ++ rest)) :
    ofOffset (before ++ rest) p = after before ↔ p = Text.byteSize before := by
  constructor
  · intro h
    exact ofOffset_injOn hp (Text.byteSize_le_append _ _) (h.trans (ofOffset_byteSize before rest).symm)
  · rintro rfl
    exact ofOffset_byteSize before rest

/-- A place is told from all others by the one byte that has it. -/
theorem after_eq_iff {before rest : Text} {place : Position} : after before = place ↔
    ∀ p ≤ Text.byteSize (before ++ rest), ofOffset (before ++ rest) p = place ↔ p = Text.byteSize before := by
  constructor
  · rintro rfl p hp
    exact ofOffset_eq_after_iff hp
  · intro h
    rw [← ofOffset_byteSize before rest]
    exact (h _ (Text.byteSize_le_append _ _)).2 rfl

end Position

/-! ## Messages -/

theorem Construct.describe_injective {c k : Construct} (h : c.describe = k.describe) : c = k := by
  cases c <;> cases k <;> first | rfl | exact absurd h (by decide)

/-- What is wrong can be told from the message. -/
theorem Fault.describe_injective {f g : Fault} (h : f.describe = g.describe) : f = g := by
  have htext := congrArg String.toList h
  cases f with
  | unterminated c =>
    cases g with
    | unterminated k =>
      simp only [Fault.describe, String.toList_append, List.append_cancel_left_eq, String.toList_inj] at htext
      rw [Construct.describe_injective htext]
    | unclosed name => simp [Fault.describe] at htext
  | unclosed name =>
    cases g with
    | unterminated k => simp [Fault.describe] at htext
    | unclosed name' =>
      simp only [Fault.describe, String.toList_append, String.toList_ofList, List.append_cancel_right_eq,
        List.append_cancel_left_eq] at htext
      rw [htext]

/-- What a fault is reported as: its place is the one where the rest begins, and its message is its own. -/
theorem FaultAt.error_eq_iff {f : FaultAt} {before : Text} {e : ParseError} : f.error (before ++ f.rest) = e ↔
    (∀ p ≤ Text.byteSize (before ++ f.rest),
      Position.ofOffset (before ++ f.rest) p = e.position ↔ p = Text.byteSize before) ∧
    e.fault.describe = f.fault.describe := by
  rw [← Position.after_eq_iff, FaultAt.error, List.length_append, Nat.add_sub_cancel, List.take_left]
  constructor
  · rintro rfl
    exact ⟨rfl, rfl⟩
  · rintro ⟨hplace, hmessage⟩
    rw [hplace, ← Fault.describe_injective hmessage]

/-! ## Constructs without an end -/

namespace Tag

/-- Whether every `>` of a text stands between quotes. -/
def HasNoEnd (s : Text) : Prop := ∀ inside rest, s = inside ++ '>' :: rest → inside.foldl quoteAfter none ≠ none

theorem endFrom?_eq_none_iff {quote : Option Char} {s : Text} : endFrom? quote s = none ↔
    ∀ inside rest, s = inside ++ '>' :: rest → inside.foldl quoteAfter quote ≠ none := by
  induction s generalizing quote with
  | nil => simp [endFrom?]
  | cons c s ih =>
    rw [endFrom?]
    by_cases hc : c = '>' ∧ quote = none
    · rw [if_pos hc]
      obtain ⟨rfl, rfl⟩ := hc
      exact iff_of_false (by simp) fun h => h [] s rfl rfl
    · rw [if_neg hc, Option.map_eq_none_iff, ih]
      constructor
      · intro h inside rest hs
        cases inside with
        | nil =>
          obtain ⟨rfl, -⟩ := List.cons.inj hs
          exact fun hquote => hc ⟨rfl, hquote⟩
        | cons x inside =>
          obtain ⟨rfl, hs'⟩ := List.cons.inj hs
          exact h inside rest hs'
      · intro h inside rest hs
        exact h (c :: inside) rest (by rw [hs, List.cons_append])

theorem end?_eq_none_iff {s : Text} : end? s = none ↔ HasNoEnd s := endFrom?_eq_none_iff

end Tag

/-- Texts that begin with a construct which has no end in them. -/
inductive Construct.LeftOpen : Construct → Text → Prop
  | comment {s : Text} : ¬ "-->".toList <:+: s → LeftOpen .comment ('<' :: ("!--".toList ++ s))
  | cdata {s : Text} : ¬ "]]>".toList <:+: s → LeftOpen .cdata ('<' :: ("![CDATA[".toList ++ s))
  | declaration {s : Text} : ¬ "--".toList <+: s → ¬ "[CDATA[".toList <+: s → Tag.HasNoEnd s →
      LeftOpen .declaration ('<' :: '!' :: s)
  | instruction {s : Text} : ¬ "?>".toList <:+: s → LeftOpen .instruction ('<' :: ("?".toList ++ s))
  | tag {s : Text} : Tag.opens s = true → Tag.HasNoEnd s → LeftOpen .tag ('<' :: s)

namespace Token

/-- Whether no end tag for `name` in a text has its end mark there. -/
def LacksEndTag (name s : Text) : Prop :=
  ∀ before name' c more, s = before ++ ("</".toList ++ (name' ++ c :: more)) → Text.sameLetters name' name = true →
    Tag.isNameChar c = false → '>' ∉ c :: more

theorem rawText?_eq_none_iff {name s : Text} : rawText? name s = none ↔ LacksEndTag name s := by
  induction s with
  | nil => simp [rawText?, LacksEndTag]
  | cons c s ih =>
    rw [rawText?]
    by_cases hat : atEndTag name (c :: s) = true
    · rw [if_pos hat, Option.map_eq_none_iff]
      obtain ⟨name', x, more, hs, hsame, hx⟩ := atEndTag_iff.1 hat
      obtain ⟨rfl, rfl⟩ : c = '<' ∧ s = '/' :: (name' ++ x :: more) := List.cons.inj hs
      have hl : name.length = name'.length := (Text.length_eq_of_sameLetters hsame).symm
      rw [List.drop_succ_cons, hl, List.drop_left, Text.cut?_eq_none_iff, List.singleton_infix_iff]
      refine ⟨fun hgt before n y m hbefore hn _ hmem => hgt ?_, fun h => h [] name' x more rfl hsame hx⟩
      -- what follows a later end tag follows this one too
      have hm : y :: m <:+ '<' :: '/' :: (name' ++ x :: more) := by
        rw [hbefore, ← List.append_assoc, ← List.append_assoc]
        exact List.suffix_append _ _
      have hm' : x :: more <:+ '<' :: '/' :: (name' ++ x :: more) := ⟨"</".toList ++ name', by simp⟩
      refine (List.suffix_of_suffix_length_le hm hm' ?_).subset hmem
      have hlength := congrArg List.length hbefore
      have hn := Text.length_eq_of_sameLetters hn
      have hmark : "</".toList.length = 2 := rfl
      simp only [List.length_append, List.length_cons, hmark] at hlength ⊢
      omega
    · rw [if_neg hat, Option.map_eq_none_iff, ih]
      constructor
      · intro h before n y m hs hn hy
        cases before with
        | nil => exact absurd (atEndTag_iff.2 ⟨n, y, m, hs, hn, hy⟩) hat
        | cons b before => exact h before n y m (List.cons.inj hs).2 hn hy
      · intro h before n y m hs hn hy
        exact h (c :: before) n y m (by rw [hs, List.cons_append]) hn hy

/-! ## Where no token can be read -/

/-- Texts that begin with no token, and the fault that is found. -/
inductive Stuck (d : Dialect) : Text → FaultAt → Prop
  | unterminated {c : Construct} {s : Text} : c.LeftOpen s → Stuck d s ⟨.unterminated c, s⟩
  | unclosed {inside rest : Text} : Tag.IsStart inside → holdsRawText (Tag.name inside) = true →
      (elementOf d inside).isVoid = false → LacksEndTag (Tag.name inside) rest →
      Stuck d ('<' :: (inside ++ '>' :: rest)) ⟨.unclosed (Tag.name inside), rest⟩

variable {d : Dialect} {c : Char} {s rest : Text} {t : Token} {f : FaultAt}

theorem readLeaf_eq_error_iff {leaf : Text → Leaf} {k : Construct} {cut : Option (Text × Text)} :
    readLeaf leaf k s cut = .error f ↔ cut = none ∧ f = ⟨.unterminated k, s⟩ := by
  cases cut with
  | none => simp [readLeaf, eq_comm]
  | some parts => simp [readLeaf]

theorem stuck_of_readTag (h : readTag d s = .error f) (ho : Tag.opens s = true) : Stuck d ('<' :: s) f := by
  unfold readTag at h
  split at h
  · next hend =>
    obtain rfl := Except.error.inj h
    exact .unterminated (.tag ho (Tag.end?_eq_none_iff.1 hend))
  · next inside rest hend =>
    obtain ⟨hin, rfl⟩ := Tag.end?_eq_some_iff.1 hend
    rcases isEnd_or_isStart hin ho with ⟨hh, -⟩ | ⟨hh, hstart⟩
    · rw [if_pos hh] at h
      cases h
    · rw [if_neg hh] at h
      dsimp only at h
      split at h
      · next hraw =>
        rw [Bool.and_eq_true, Bool.not_eq_true'] at hraw
        split at h
        · next hnone =>
          obtain rfl := Except.error.inj h
          exact .unclosed hstart hraw.1 hraw.2 (rawText?_eq_none_iff.1 hnone)
        · cases h
      · cases h

theorem stuck_of_read (h : read d c s = .error f) : Stuck d (c :: s) f := by
  have ho := opening_inv c s
  unfold read at h
  split at h
  · next hop =>
    simp only [hop] at ho
    obtain ⟨rfl, rfl⟩ := ho
    obtain ⟨hcut, rfl⟩ := readLeaf_eq_error_iff.1 h
    exact .unterminated (.comment (Text.cut?_eq_none_iff.1 hcut))
  · next hop =>
    simp only [hop] at ho
    obtain ⟨rfl, rfl⟩ := ho
    obtain ⟨hcut, rfl⟩ := readLeaf_eq_error_iff.1 h
    exact .unterminated (.cdata (Text.cut?_eq_none_iff.1 hcut))
  · next hop =>
    simp only [hop] at ho
    obtain ⟨rfl, rfl, hc, hd⟩ := ho
    obtain ⟨hend, rfl⟩ := readLeaf_eq_error_iff.1 h
    exact .unterminated (.declaration hc hd (Tag.end?_eq_none_iff.1 hend))
  · next hop =>
    simp only [hop] at ho
    obtain ⟨rfl, rfl⟩ := ho
    obtain ⟨hcut, rfl⟩ := readLeaf_eq_error_iff.1 h
    exact .unterminated (.instruction (Text.cut?_eq_none_iff.1 hcut))
  · next hop =>
    simp only [hop] at ho
    obtain ⟨rfl, rfl, hopens⟩ := ho
    exact stuck_of_readTag h hopens
  · split at h <;> cases h

theorem read_of_leftOpen {k : Construct} (h : k.LeftOpen s) :
    ∃ s', s = '<' :: s' ∧ read d '<' s' = .error ⟨.unterminated k, s⟩ := by
  cases h with
  | comment hn =>
    refine ⟨_, rfl, ?_⟩
    rw [read, opening_comment]
    exact readLeaf_eq_error_iff.2 ⟨Text.cut?_eq_none_iff.2 hn, rfl⟩
  | cdata hn =>
    refine ⟨_, rfl, ?_⟩
    rw [read, opening_cdata]
    exact readLeaf_eq_error_iff.2 ⟨Text.cut?_eq_none_iff.2 hn, rfl⟩
  | declaration hc hd hn =>
    refine ⟨_, rfl, ?_⟩
    rw [read, opening_declaration hc hd]
    exact readLeaf_eq_error_iff.2 ⟨Tag.end?_eq_none_iff.2 hn, rfl⟩
  | instruction hn =>
    refine ⟨_, rfl, ?_⟩
    rw [read, opening_instruction]
    exact readLeaf_eq_error_iff.2 ⟨Text.cut?_eq_none_iff.2 hn, rfl⟩
  | tag ho hn =>
    refine ⟨_, rfl, ?_⟩
    rw [read, opening_tag ho]
    simp only [readTag, Tag.end?_eq_none_iff.2 hn]

theorem read_of_stuck (h : Stuck d s f) : ∃ s', s = '<' :: s' ∧ read d '<' s' = .error f := by
  cases h with
  | unterminated h => exact read_of_leftOpen h
  | unclosed hstart hraw hvoid hn =>
    refine ⟨_, rfl, ?_⟩
    rw [read, opening_tag (opens_of_isStart hstart _)]
    simp only [readTag, hstart.1.end?, if_neg hstart.head?_ne, hraw, hvoid, rawText?_eq_none_iff.2 hn, Bool.not_false,
      Bool.and_self, if_true]

/-- Reading a token fails exactly where a text begins with none, and with that fault. -/
theorem read_eq_error_iff : read d c s = .error f ↔ Stuck d (c :: s) f := by
  refine ⟨stuck_of_read, fun h => ?_⟩
  obtain ⟨s', hs, hr⟩ := read_of_stuck h
  obtain ⟨rfl, rfl⟩ := List.cons.inj hs
  exact hr

theorem Stuck.breaks (h : Stuck d s f) : s.Breaks := by
  obtain ⟨s', rfl, -⟩ := read_of_stuck h
  exact .cons s'

theorem readAll_of_stuck (h : Stuck d s f) : readAll d s = ⟨[], some f⟩ := by
  obtain ⟨s', rfl, hr⟩ := read_of_stuck h
  exact readAll_of_error hr

/-- A text that cannot be read can be read up to where it is stuck. -/
theorem exists_stuck_of_fault (h : (readAll d s).fault? = some f) :
    ∃ before rest, s = before ++ rest ∧ (readAll d before).fault? = none ∧ Stuck d rest f := by
  induction s using read_induct (d := d) with
  | nil =>
    rw [readAll_nil] at h
    cases h
  | error c s g hr =>
    rw [readAll_of_error hr] at h
    obtain rfl := Option.some.inj h
    exact ⟨[], c :: s, rfl, by rw [readAll_nil], stuck_of_read hr⟩
  | token c s t rest hr ih =>
    rw [readAll_of_read hr] at h
    obtain ⟨before, stuck, rfl, hbefore, hstuck⟩ := ih h
    -- the token is read alike where the text is cut before the place where it is stuck
    obtain ⟨token, hs, htoken⟩ := (reading_of_read hr).exists_token
    refine ⟨token ++ before, stuck, by rw [hs, List.append_assoc], ?_, hstuck⟩
    rw [readAll_of_reading (htoken before stuck rfl), hbefore]

/-- A fault is found exactly where a text is stuck that can be read up to there. -/
theorem fault?_eq_some_iff : (readAll d s).fault? = some f ↔
    ∃ before rest, s = before ++ rest ∧ (readAll d before).fault? = none ∧ Stuck d rest f := by
  refine ⟨exists_stuck_of_fault, ?_⟩
  rintro ⟨before, rest, rfl, hbefore, hstuck⟩
  rw [readAll_append hbefore hstuck.breaks, readAll_of_stuck hstuck]

end Token

/-! ## Templates that cannot be read -/

namespace Forest

variable {d : Dialect} {src : Text}

theorem exists_parse_eq_ok_iff : (∃ f, parse d src = .ok f) ↔ (Token.readAll d src).fault? = none := by
  constructor
  · rintro ⟨f, hf⟩
    exact fault?_of_parse hf
  · intro h
    exact ⟨_, parse_of_readAll h rfl⟩

theorem parse_eq_error_iff_fault {e : ParseError} :
    parse d src = .error e ↔ ∃ f, (Token.readAll d src).fault? = some f ∧ f.error src = e := by
  rw [parse]
  cases (Token.readAll d src).fault? <;> simp

/-- Whether a start tag for `name` ends just before `rest`, after a text that can be read, and nothing in `rest` ends the
raw text of its element. -/
def IsUnclosed (d : Dialect) (name before rest : Text) : Prop :=
  ∃ head inside, before = head ++ '<' :: (inside ++ ['>']) ∧ (∃ f, parse d head = .ok f) ∧ Tag.IsStart inside ∧
    Tag.name inside = name ∧ holdsRawText name = true ∧ (Token.elementOf d inside).isVoid = false ∧
    Token.LacksEndTag name rest

/-- A template is refused if and only if a construct in it is left open after a text that can be read, or an element that
holds raw text is not closed. The place that goes with the message is that of one byte only: the first one of what is
left open, or the one after the start tag. -/
theorem parse_eq_error_iff {e : ParseError} : parse d src = .error e ↔ ∃ before rest, src = before ++ rest ∧
    (∀ p ≤ Text.byteSize src, Position.ofOffset src p = e.position ↔ p = Text.byteSize before) ∧
    ((∃ name, e.fault.describe = "unclosed <" ++ String.ofList name ++ "> element" ∧ IsUnclosed d name before rest) ∨
      ∃ c : Construct, e.fault.describe = "unterminated " ++ c.describe ∧ c.LeftOpen rest ∧
        ∃ f, parse d before = .ok f) := by
  rw [parse_eq_error_iff_fault]
  constructor
  · rintro ⟨f, hf, he⟩
    obtain ⟨before, stuck, rfl, hbefore, hstuck⟩ := Token.fault?_eq_some_iff.1 hf
    rw [← exists_parse_eq_ok_iff] at hbefore
    cases hstuck with
    | @unterminated c _ hopen =>
      obtain ⟨hplace, hmessage⟩ := FaultAt.error_eq_iff.1 he
      exact ⟨before, stuck, rfl, hplace, .inr ⟨c, hmessage, hopen, hbefore⟩⟩
    | @unclosed inside rest hstart hraw hvoid hlacks =>
      -- the place is just after the start tag
      have hsrc : before ++ '<' :: (inside ++ '>' :: rest) = (before ++ '<' :: (inside ++ ['>'])) ++ rest := by simp
      rw [hsrc] at he ⊢
      obtain ⟨hplace, hmessage⟩ := FaultAt.error_eq_iff.1 he
      exact ⟨_, rest, rfl, hplace,
        .inl ⟨Tag.name inside, hmessage, before, inside, rfl, hbefore, hstart, rfl, hraw, hvoid, hlacks⟩⟩
  · rintro ⟨before, rest, rfl, hplace, hwrong⟩
    rcases hwrong with ⟨name, hmessage, head, inside, rfl, hhead, hstart, rfl, hraw, hvoid, hlacks⟩ |
      ⟨c, hmessage, hopen, hbefore⟩
    · refine ⟨⟨.unclosed (Tag.name inside), rest⟩, ?_, FaultAt.error_eq_iff.2 ⟨hplace, hmessage⟩⟩
      rw [List.append_assoc, List.cons_append, List.append_assoc, List.singleton_append, Token.fault?_eq_some_iff]
      exact ⟨head, _, rfl, exists_parse_eq_ok_iff.1 hhead, .unclosed hstart hraw hvoid hlacks⟩
    · refine ⟨⟨.unterminated c, rest⟩, ?_, FaultAt.error_eq_iff.2 ⟨hplace, hmessage⟩⟩
      exact Token.fault?_eq_some_iff.2 ⟨before, rest, rfl, exists_parse_eq_ok_iff.1 hbefore, .unterminated hopen⟩

end Forest

end MailTemplate
