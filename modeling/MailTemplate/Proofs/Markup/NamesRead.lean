import MailTemplate.Proofs.Markup.NamePlaces
import MailTemplate.Proofs.Markup.Reading
/-!
# What stands where names stand

The characters of a template that `Token.inName` says are in names spell, one after another, the names of its tokens
(`pick_inName`): no character of a name is left out, and none is counted in that is not part of one. Letters are compared
without their case, since an element keeps its name once for both of its tags.
-/
namespace MailTemplate

/-! ## Characters at places -/

namespace Places

/-- The characters of a text at the places. -/
def pick (p : Places) : Text → Text
  | [] => []
  | c :: s => if p 0 then c :: pick (p.drop 1) s else pick (p.drop 1) s

theorem drop_drop (m n : Nat) (p : Places) : drop m (drop n p) = drop (n + m) p := by
  funext i
  simp [drop, Nat.add_assoc]

@[simp]
theorem drop_zero (p : Places) : drop 0 p = p := by
  funext i
  simp [drop]

theorem pick_append (p : Places) (s t : Text) : pick p (s ++ t) = pick p s ++ pick (p.drop s.length) t := by
  induction s generalizing p with
  | nil => rw [List.length_nil, drop_zero, List.nil_append, pick, List.nil_append]
  | cons c s ih =>
    simp only [List.cons_append, pick, ih, drop_drop, List.length_cons, Nat.add_comm 1]
    split <;> rfl

theorem pick_congr {p q : Places} {s : Text} (h : ∀ i < s.length, p i = q i) : pick p s = pick q s := by
  induction s generalizing p q with
  | nil => rfl
  | cons c s ih =>
    have hs : pick (p.drop 1) s = pick (q.drop 1) s := ih fun i hi => h (1 + i) (by simp; omega)
    rw [pick, pick, hs, h 0 (by simp)]

@[simp]
theorem pick_none (s : Text) : pick none s = [] := by
  induction s with
  | nil => rfl
  | cons c s ih => exact ih

theorem pick_all (s : Text) : pick (fun _ => true) s = s := by
  induction s with
  | nil => rfl
  | cons c s ih => exact congrArg (List.cons c) ih

theorem pick_eq_nil {p : Places} {s : Text} (h : ∀ i < s.length, p i = false) : pick p s = [] := by
  rw [pick_congr (q := none) h, pick_none]

theorem pick_eq_self {p : Places} {s : Text} (h : ∀ i < s.length, p i = true) : pick p s = s := by
  rw [pick_congr (q := fun _ => true) h, pick_all]

theorem pick_upTo {s x rest : Text} (hs : s = x ++ rest) (here there : Places) :
    pick (upTo s rest here there) s = pick here x ++ pick there rest := by
  have hl : s.length - rest.length = x.length := by simp [hs]
  nth_rewrite 2 [hs]
  rw [pick_append, ← hl, drop_upTo]
  refine congrArg (· ++ _) (pick_congr fun i hi => upTo_of_lt ?_)
  omega

theorem pick_upTo_cons (c : Char) (s x : Text) (there : Places) :
    pick (upTo (c :: s) s none there) (c :: x) = pick there x := by
  have hd : drop 1 (upTo (c :: s) s none there) = there := by
    have h := drop_upTo (c :: s) s none there
    rwa [List.length_cons, Nat.add_sub_cancel_left] at h
  rw [pick, hd, upTo_of_lt (by simp), if_neg (by simp [none])]

/-- Places that are one stretch of a text. -/
theorem pick_between {p : Places} {before name after : Text}
    (hp : ∀ i, p i = true ↔ before.length ≤ i ∧ i < before.length + name.length) :
    pick p (before ++ (name ++ after)) = name := by
  have hp' : ∀ i, p i = false ↔ ¬ (before.length ≤ i ∧ i < before.length + name.length) := by
    intro i
    rw [← hp, Bool.not_eq_true]
  rw [pick_append, pick_append, drop_drop, pick_eq_nil, pick_eq_self, pick_eq_nil]
  · simp
  · intro i hi
    rw [drop, hp']
    omega
  · intro i hi
    rw [drop, hp]
    omega
  · intro i hi
    rw [hp']
    omega

end Places

/-! ## Tags -/

namespace Tag

theorem pick_inAttributeName (s : Text) : (inAttributeName s).pick s = (readAttributes s).flatMap Attribute.name := by
  induction s using inAttributeName.induct with
  | case1 => rw [readAttributes, Places.pick, List.flatMap_nil]
  | case2 s => rw [inAttributeName, if_pos rfl, readAttributes_end, Places.pick_none, List.flatMap_nil]
  | case3 c s hgt hname ih =>
    obtain ⟨between, hs⟩ := readAssigned_suffix (s.dropWhile isAttributeNameChar)
    have hcs : c :: s = (c :: s.takeWhile isAttributeNameChar ++ between) ++
        (readAssigned (s.dropWhile isAttributeNameChar)).2 := by
      rw [List.append_assoc, hs, List.cons_append, List.takeWhile_append_dropWhile]
    rw [inAttributeName, if_neg hgt, if_pos hname, readAttributes_name hgt hname, List.flatMap_cons, ← ih,
      Places.pick_upTo hcs]
    refine congrArg (· ++ _) ?_
    rw [← List.nil_append (c :: _ ++ between)]
    exact Places.pick_between (by simp)
  | case4 c s hgt hname ih =>
    rw [inAttributeName, if_neg hgt, if_neg hname, readAttributes_skip (by simpa using hname) hgt, ← ih]
    exact Places.pick_upTo_cons c s s (inAttributeName s)

theorem takeWhile_end (inside : Text) : (inside ++ ['>']).takeWhile isNameChar = name inside := by
  rw [List.takeWhile_append, name]
  split
  · next h =>
    rw [(List.takeWhile_prefix _).eq_of_length h, List.takeWhile_cons_of_neg (by decide), List.append_nil]
  · rfl

theorem pick_inStartTagName (inside : Text) :
    (inStartTagName inside).pick (inside ++ ['>']) = name inside ++ (attributes inside).flatMap Attribute.name := by
  have hs := (List.takeWhile_append_dropWhile (p := isNameChar) (l := inside ++ ['>'])).symm
  rw [inStartTagName, Places.pick_upTo hs, takeWhile_end, Places.pick_all, pick_inAttributeName, attributes]

end Tag

/-! ## Tokens -/

/-- The names in a start tag, one after another. -/
def Element.names (e : Element) : Text := e.name ++ e.attributes.flatMap Attribute.name

namespace Token

variable {d : Dialect} {c : Char} {s x rest : Text} {t : Token}

/-- The names in a token, one after another. -/
def names : Token → Text
  | .leaf _ => []
  | .startTag e => e.names
  | .rawElement e _ => e.names ++ e.name
  | .endTag name => name

theorem exists_cons_of_append (h : c :: s = x ++ rest) (hl : rest.length ≤ s.length) :
    ∃ y, x = c :: y ∧ s = y ++ rest := by
  cases x with
  | nil =>
    rw [List.nil_append] at h
    rw [← h, List.length_cons] at hl
    omega
  | cons a y =>
    obtain ⟨rfl, hs⟩ := List.cons.inj h
    exact ⟨y, rfl, hs⟩

theorem lower_names_elementOf (d : Dialect) (inside : Text) :
    Text.lower (elementOf d inside).names = Text.lower ((Tag.inStartTagName inside).pick (inside ++ ['>'])) := by
  have has : ∀ as : List Attribute, Text.lower ((as.map fun a => { a with name := d.keep a.name }).flatMap
      Attribute.name) = Text.lower (as.flatMap Attribute.name) := by
    intro as
    induction as with
    | nil => rfl
    | cons a as ih =>
      rw [List.map_cons, List.flatMap_cons, List.flatMap_cons, Text.lower_append, Text.lower_append, d.lower_keep, ih]
  rw [Tag.pick_inStartTagName, Element.names, elementOf, Text.lower_append, Text.lower_append, d.lower_keep, has]

theorem pick_inRawEndName {name content : Text} (h : rawText? name s = some (content, rest)) (hx : s = x ++ rest) :
    Text.lower ((inRawEndName name s).pick x) = Text.lower name := by
  induction s generalizing content x with
  | nil => cases h
  | cons c s ih =>
    obtain ⟨-, name', junk, he, hsame, -⟩ := exists_of_rawText? h
    rw [rawText?] at h
    rw [inRawEndName]
    split at h
    · next hat =>
      obtain ⟨_, -, hc⟩ := Option.map_eq_some_iff.1 h
      obtain ⟨rfl, -⟩ := Prod.ext_iff.1 hc
      have hl := Text.length_eq_of_sameLetters hsame
      have hxe : x = "</".toList ++ (name' ++ (junk ++ ['>'])) := by
        refine (List.append_left_inj rest).1 ?_
        rw [← hx, he]
        simp
      rw [if_pos hat, hxe, Places.pick_between, Text.sameLetters_iff.1 hsame]
      intro i
      simp [hl, Nat.add_comm]
    · next hat =>
      obtain ⟨⟨content, r⟩, hr, hc⟩ := Option.map_eq_some_iff.1 h
      obtain ⟨rfl, rfl⟩ := Prod.ext_iff.1 hc
      obtain ⟨y, rfl, hs⟩ := exists_cons_of_append hx (length_le_of_rawText? hr)
      rw [if_neg hat, Places.pick_upTo_cons]
      exact ih hr hs

theorem pick_inTagName (h : readTag d s = .ok (t, rest)) (hx : s = x ++ rest) :
    Text.lower ((inTagName d s).pick x) = Text.lower t.names := by
  unfold readTag at h
  split at h
  · cases h
  · next inside r he =>
    have hs : s = (inside ++ ['>']) ++ r := by simp [Tag.eq_append_of_end? he]
    have hstart : ∀ there, Places.pick (.upTo s r (Tag.inStartTagName inside) there) (inside ++ ['>']) =
        (Tag.inStartTagName inside).pick (inside ++ ['>']) := by
      intro there
      refine Places.pick_congr fun i hi => Places.upTo_of_lt ?_
      rw [hs, List.length_append]
      omega
    simp only [inTagName, he]
    split at h
    · next hh =>
      obtain ⟨rfl, rfl⟩ := by simpa using h
      obtain rfl := List.append_cancel_right (hx.symm.trans hs)
      obtain ⟨more, rfl⟩ := List.head?_eq_some_iff.1 hh
      have hsplit : '/' :: more ++ ['>'] = ['/'] ++ (Tag.name more ++ (more.dropWhile Tag.isNameChar ++ ['>'])) := by
        rw [← List.append_assoc (Tag.name more), Tag.name, List.takeWhile_append_dropWhile]
        rfl
      rw [if_pos hh, names, d.lower_keep, hsplit, Places.pick_between]
      · rfl
      · intro i
        simp [Nat.add_comm]
    · next hh =>
      rw [if_neg hh]
      dsimp only at h
      split at h
      · next hr =>
        split at h
        · cases h
        · next content r' hcontent =>
          obtain ⟨rfl, rfl⟩ := by simpa using h
          -- the start tag first, then the raw text with its end tag
          obtain ⟨mark, hmark⟩ := eq_append_of_rawText? hcontent
          rw [← List.append_assoc] at hmark
          have hxe : x = (inside ++ ['>']) ++ (content ++ mark) := by
            refine (List.append_left_inj r').1 ?_
            rw [← hx, hs, hmark, List.append_assoc _ (content ++ mark)]
          have hl : s.length - r.length = (inside ++ ['>']).length := by
            rw [hs, List.length_append]
            omega
          rw [if_pos hr, hxe, Places.pick_append, hstart, ← hl, Places.drop_upTo, Text.lower_append,
            pick_inRawEndName hcontent hmark, names, Text.lower_append, lower_names_elementOf, elementOf, d.lower_keep]
      · next hr =>
        obtain ⟨rfl, rfl⟩ := by simpa using h
        obtain rfl := List.append_cancel_right (hx.symm.trans hs)
        rw [if_neg hr, hstart, names, lower_names_elementOf]

theorem pick_inTokenName (h : read d c s = .ok (t, rest)) (hx : c :: s = x ++ rest) :
    Text.lower ((inTokenName d c s).pick x) = Text.lower t.names := by
  by_cases ho : c = '<' ∧ Tag.opens s = true
  · obtain ⟨rfl, ho⟩ := ho
    rw [read_of_opens ho] at h
    obtain ⟨y, rfl, hs⟩ := exists_cons_of_append hx (length_le_of_readTag h)
    rw [inTokenName_of_opens ho, Places.pick_upTo_cons]
    exact pick_inTagName h hs
  · obtain ⟨l, rfl⟩ := exists_leaf_of_not_opens (reading_of_read h) ho
    rw [inTokenName_eq_none ho, Places.pick_none]
    rfl

/-- What stands where names stand in a template that can be read is the names of its tokens. -/
theorem pick_inName (h : (readAll d s).fault? = none) :
    Text.lower ((inName d s).pick s) = Text.lower ((readAll d s).tokens.flatMap names) := by
  refine readAll_induct (P := fun s => Text.lower ((inName d s).pick s) =
    Text.lower ((readAll d s).tokens.flatMap names)) ?_ ?_ s h
  · rw [readAll_nil]
    rfl
  · intro s t rest hr _ ih
    obtain ⟨c, s, rfl, hread⟩ := read_of_reading hr
    obtain ⟨x, hx⟩ := hr.suffix
    rw [inName_of_read hread, Places.pick_upTo hx.symm, readAll_of_read hread, List.flatMap_cons,
      Text.lower_append, Text.lower_append, pick_inTokenName hread hx.symm, ih]

example : (inName Dialect.jelly "<Div Class=\"A\"><Style>B</STYLE></dIV>".toList).pick
    "<Div Class=\"A\"><Style>B</STYLE></dIV>".toList = "DivClassStyleSTYLEdIV".toList := by decide +kernel

end Token

end MailTemplate
