import MailTemplate.Proofs.Css.Groups
import MailTemplate.Proofs.Css.Items
/-!
# Regular sheets

In a regular sheet each rule, each at-rule statement and each at-rule with a block stands on its own: its strings are
closed, its brackets are balanced, and its marks are where they belong (`Entry.IsRegular`). Read from its first
character on, an entry is one item, whatever follows it (`items_print_append`), and so a sheet is read entry by entry
(`parse_of_sheetWritten`).
-/
namespace MailTemplate.Css

/-- What a sheet is written from. -/
inductive Entry where
  /-- Selectors with commas between them, and the text between braces. -/
  | rule (selectors : List Text) (body : Text)
  /-- The text between `@` and a semicolon. -/
  | statement (head : Text)
  /-- The text between `@` and a brace, and the text between braces. -/
  | block (head body : Text)

namespace Entry

def print : Entry → Text
  | rule selectors body => Text.join [','] selectors ++ '\x7b' :: (body ++ ['\x7d'])
  | statement head => '@' :: (head ++ [';'])
  | block head body => '@' :: (head ++ '\x7b' :: (body ++ ['\x7d']))

/-- Whether an entry has its marks where they belong. Strings are closed everywhere, and nothing in them counts.
Selectors have balanced brackets, no comma outside brackets and no opening brace, and do not begin as an at-rule does;
the text before the end or the block of an at-rule has no semicolon and no opening brace; and the braces in a block
are balanced. -/
inductive IsRegular : Entry → Prop
  | rule {selectors : List Text} {body : Text} : (∀ s ∈ selectors, Balanced .roundOrSquare [','] s) →
      (∀ s ∈ selectors, Balanced .none ['\x7b'] s) → (skipBlanks (Text.join [','] selectors)).head? ≠ some '@' →
      Balanced .braces [] body → IsRegular (.rule selectors body)
  | statement {head : Text} : Balanced .none [';', '\x7b'] head → IsRegular (.statement head)
  | block {head body : Text} : Balanced .none [';', '\x7b'] head → Balanced .braces [] body →
      IsRegular (.block head body)

/-- The rule that an entry makes: it holds for the selectors that are not refused, and there is none without them. -/
def rule? : Entry → Option Rule
  | rule selectors body =>
    let accepted := selectors.filterMap fun s => (Selector.parse s).toOption
    if accepted = [] then none else some ⟨accepted, Declaration.parseBlock body⟩
  | _ => none

/-- The at-rule that an entry is. -/
def atRule? : Entry → Option Text
  | rule _ _ => none
  | e => some e.print

/-- What a reader takes an entry for. -/
def item : Entry → Item
  | rule selectors body => .rule (skipBlanks (Text.join [','] selectors)) body
  | e => .atRule e.print

end Entry

/-- How entries are written: one after another, with blanks before, between and after them, or without. -/
inductive SheetWritten : List Entry → Text → Prop
  | nil {blanks : Text} : blanks.AllBlank → SheetWritten [] blanks
  | cons {blanks t : Text} {e : Entry} {es : List Entry} : blanks.AllBlank → e.IsRegular → SheetWritten es t →
      SheetWritten (e :: es) (blanks ++ (e.print ++ t))

variable {s t u : Text} {ss : List Text}

/-! ## Blanks -/

theorem skipBlanks_append (hw : u.AllBlank) (s : Text) : skipBlanks (u ++ s) = skipBlanks s :=
  List.dropWhile_append_of_pos hw

theorem skipBlanks_append_cons {c : Char} (hc : Text.isBlank c = false) (s t : Text) :
    skipBlanks (s ++ c :: t) = skipBlanks s ++ c :: t := by
  rw [skipBlanks, skipBlanks, List.dropWhile_append]
  split
  · next h => rw [List.isEmpty_iff.1 h, List.dropWhile_cons_of_neg (by simp [hc]), List.nil_append]
  · rfl

theorem trim_skipBlanks (s : Text) : Text.trim (skipBlanks s) = Text.trim s := by
  have hblank : ∀ c ∈ s.takeWhile Text.isBlank, Text.isWhiteSpace c = true := fun c hc =>
    Text.isWhiteSpace_of_isBlank (List.mem_takeWhile_imp hc)
  conv_rhs => rw [← List.takeWhile_append_dropWhile (p := Text.isBlank) (l := s)]
  exact (Text.strip_append_left _ hblank).symm

theorem Balanced.skipBlanks {b : Brackets} {marks : List Char} (hb : b.opening.all (!Text.isBlank ·) = true)
    (h : Balanced b marks s) : Balanced b marks (skipBlanks s) := by
  induction h with
  | nil => exact .nil
  | @plain marks c s hq ho hc hm hs ih =>
    rw [Css.skipBlanks, List.dropWhile_cons]
    split
    · exact ih
    · exact .plain hq ho hc hm hs
  | @string marks q t s hq ht hs ih =>
    have hblank : ¬ Text.isBlank q = true := by simp [Tag.isBlank_of_isQuote hq]
    rw [Css.skipBlanks, List.dropWhile_cons_of_neg hblank]
    exact .string hq ht hs
  | @brackets marks o c t s ho hc ht hs _ _ =>
    rw [Css.skipBlanks, List.dropWhile_cons_of_neg fun h => Text.not_mem_of_all_not hb h ho]
    exact .brackets ho hc ht hs

/-! ## The selectors of a rule -/

theorem parse_congr (h : Text.trim s = Text.trim t) : Selector.parse s = Selector.parse t := by
  rw [Selector.parse, Selector.parse, h]

theorem balanced_join {b : Brackets} {marks : List Char} (hcomma : Balanced b marks [','])
    (h : ∀ s ∈ ss, Balanced b marks s) : Balanced b marks (Text.join [','] ss) := by
  induction ss with
  | nil => exact .nil
  | cons s ss ih =>
    rw [List.forall_mem_cons] at h
    cases ss with
    | nil => exact h.1
    | cons t ss =>
      rw [Text.join_cons _ _ (List.cons_ne_nil t ss)]
      exact (h.1.append hcomma).append (ih h.2)

theorem skipBlanks_join (s : Text) (ss : List Text) :
    skipBlanks (Text.join [','] (s :: ss)) = Text.join [','] (skipBlanks s :: ss) := by
  cases ss with
  | nil => rfl
  | cons t ss =>
    rw [Text.join_cons _ _ (List.cons_ne_nil t ss), Text.join_cons _ _ (List.cons_ne_nil t ss), List.append_assoc,
      List.append_assoc, List.singleton_append, skipBlanks_append_cons (by decide)]

/-- Where commas part texts, the selectors accepted from the whole are those accepted from the texts: a text of white
space only is passed over in the one case and refused in the other. -/
theorem acceptedSelectors_join (h : Parted ',' ss) :
    acceptedSelectors (Text.join [','] ss) = ss.filterMap fun s => (Selector.parse s).toOption := by
  rw [acceptedSelectors, Selector.parseGroup, split_join h, List.filterMap_map, List.filterMap_filter]
  apply List.filterMap_congr
  intro s _
  by_cases hs : s.AllWhite
  · rw [if_neg (by simp [Text.trim_eq_nil_iff.2 hs]), parse_of_allWhite hs]
    rfl
  · have htrim : Text.trim s ≠ [] := fun h => hs (Text.trim_eq_nil_iff.1 h)
    rw [if_pos (by simp [htrim])]
    rfl

theorem acceptedSelectors_skipBlanks_join (h : ∀ s ∈ ss, Balanced .roundOrSquare [','] s) :
    acceptedSelectors (skipBlanks (Text.join [','] ss)) = ss.filterMap fun s => (Selector.parse s).toOption := by
  cases ss with
  | nil => rfl
  | cons s ss =>
    rw [List.forall_mem_cons] at h
    obtain ⟨hs, hss⟩ := h
    have hpieces : ∀ t ∈ skipBlanks s :: ss, IsPiece ',' .top t :=
      List.forall_mem_cons.2 ⟨isPiece_of_balanced (hs.skipBlanks rfl), fun t ht => isPiece_of_balanced (hss t ht)⟩
    rw [skipBlanks_join, acceptedSelectors_join (.of_forall (List.cons_ne_nil _ _) hpieces), List.filterMap_cons,
      List.filterMap_cons, parse_congr (trim_skipBlanks s)]

theorem Entry.IsRegular.rule?_item {e : Entry} (h : e.IsRegular) : e.item.rule? = e.rule? := by
  cases h with
  | rule hss _ _ _ => rw [item, Item.rule?, acceptedSelectors_skipBlanks_join hss, rule?]
  | statement _ => rfl
  | block _ _ => rfl

theorem Entry.atRule?_item (e : Entry) : e.item.atRule? = e.atRule? := by
  cases e <;> rfl

/-! ## Entries -/

theorem cutAtRule_at_append {head : Text} (h : Balanced .none [';', '\x7b'] head) (t : Text) :
    cutAtRule .outside ('@' :: (head ++ t)) =
      ('@' :: (head ++ (cutAtRule .outside t).1), (cutAtRule .outside t).2) :=
  cutAtRule_append (.plain (by decide) List.not_mem_nil List.not_mem_nil (by decide) h) t

theorem isClosed_statement {head : Text} (h : Balanced .none [';', '\x7b'] head) :
    IsClosed .outside (Entry.statement head).print := by
  refine ⟨⟨'@' :: head, ';', rfl, by decide⟩, fun q => ?_⟩
  have htext : (Entry.statement head).print ++ q = '@' :: (head ++ ';' :: q) := by simp [Entry.print]
  rw [htext, cutAtRule_at_append h, cutAtRule, if_pos ⟨rfl, rfl⟩]
  rfl

theorem isClosed_block {head body : Text} (h : Balanced .none [';', '\x7b'] head) (hbody : Balanced .braces [] body) :
    IsClosed .outside (Entry.block head body).print := by
  refine ⟨⟨'@' :: (head ++ '\x7b' :: body), '\x7d', by simp [Entry.print], by decide⟩, fun q => ?_⟩
  have htext : (Entry.block head body).print ++ q = '@' :: (head ++ '\x7b' :: (body ++ '\x7d' :: q)) := by
    simp [Entry.print]
  rw [htext, cutAtRule_at_append h, cutAtRule, if_neg (by simp), if_pos ⟨rfl, rfl⟩, cutBlock_append hbody]
  rfl

/-- A rule goes from its first character that is not blank to the brace that closes its block. -/
theorem items_rule {prelude body : Text} (hat : (skipBlanks prelude).head? ≠ some '@')
    (hprelude : Balanced .none ['\x7b'] prelude) (hbody : Balanced .braces [] body) (t : Text) :
    items (prelude ++ '\x7b' :: (body ++ '\x7d' :: t)) = .rule (skipBlanks prelude) body :: items t := by
  have hskip : skipBlanks (prelude ++ '\x7b' :: (body ++ '\x7d' :: t)) =
      skipBlanks prelude ++ '\x7b' :: (body ++ '\x7d' :: t) := skipBlanks_append_cons (by decide) _ _
  have hhead : (skipBlanks (prelude ++ '\x7b' :: (body ++ '\x7d' :: t))).head? ≠ some '@' := by
    rw [hskip]
    cases hcases : skipBlanks prelude with
    | nil => simp
    | cons c u =>
      rw [hcases] at hat
      exact hat
  have hcut := cutOutside?_append (by decide) (hprelude.skipBlanks rfl) (body ++ '\x7d' :: t)
  rw [← hskip] at hcut
  rw [items_of_cutOutside hhead hcut, cutBlock_append hbody]
  rfl

/-- An entry is one item, whatever follows it. -/
theorem items_print_append {e : Entry} (h : e.IsRegular) (t : Text) : items (e.print ++ t) = e.item :: items t := by
  cases h with
  | @rule selectors body _ hbraces hat hbody =>
    have htext : (Entry.rule selectors body).print ++ t =
        Text.join [','] selectors ++ '\x7b' :: (body ++ '\x7d' :: t) := by simp [Entry.print]
    have hcomma : Balanced .none ['\x7b'] [','] := .of_all (by decide)
    rw [htext]
    exact items_rule hat (balanced_join hcomma hbraces) hbody t
  | statement hhead => exact items_of_isClosed rfl (isClosed_statement hhead) t
  | block hhead hbody => exact items_of_isClosed rfl (isClosed_block hhead hbody) t

/-! ## Sheets -/

theorem SheetWritten.isRegular {es : List Entry} {css : Text} (h : SheetWritten es css) : ∀ e ∈ es, e.IsRegular := by
  induction h with
  | nil => simp
  | cons _ he _ ih => exact List.forall_mem_cons.2 ⟨he, ih⟩

theorem items_of_sheetWritten {es : List Entry} {css : Text} (h : SheetWritten es css) :
    items css = es.map Entry.item := by
  induction h with
  | @nil blanks hb =>
    rw [items_congr (t := []), items_nil, List.map_nil]
    rw [← List.append_nil blanks, skipBlanks_append hb]
  | @cons blanks t e es hb he _ ih =>
    rw [items_congr (skipBlanks_append hb _), items_print_append he, ih, List.map_cons]

/-- A regular sheet without comments is read entry by entry. -/
theorem parse_of_sheetWritten {es : List Entry} {css : Text} (h : SheetWritten es css) (hc : ¬ "/*".toList <:+: css) :
    Stylesheet.parse css = ⟨es.filterMap Entry.rule?, es.filterMap Entry.atRule?⟩ := by
  rw [Stylesheet.parse, stripComments_eq_self hc, items_of_sheetWritten h, Stylesheet.ofItems, List.filterMap_map,
    List.filterMap_map]
  congr 1
  · exact List.filterMap_congr fun e he => (h.isRegular e he).rule?_item
  · exact List.filterMap_congr fun e _ => e.atRule?_item

/-- An import, a rule with a selector that is refused and one that is not, and a block; a semicolon and a brace are in
strings. -/
def importedLinks : List Entry :=
  [.statement ("import ".toList ++ '"' :: (['a', ';', 'b'] ++ ['"'])),
    .rule ["a:hover".toList, " a.x ".toList] ("content:".toList ++ '"' :: (['\x7d'] ++ ['"'])),
    .block "media print".toList ("td".toList ++ '\x7b' :: ("margin:0".toList ++ ['\x7d']))]

theorem parse_of_sheetWritten_importedLinks :
    let css := "@import \"a;b\"; a:hover, a.x \x7bcontent:\"\x7d\"\x7d@media print\x7btd\x7bmargin:0\x7d\x7d ".toList
    SheetWritten importedLinks css ∧ ¬ "/*".toList <:+: css ∧ Stylesheet.parse css =
      ⟨[⟨[.ofParts "a.x".toList ⟨some "a".toList, [.ofClass "x".toList]⟩ []], [⟨"content".toList, "\"\x7d\"".toList⟩]⟩],
        ["@import \"a;b\";".toList, "@media print\x7btd\x7bmargin:0\x7d\x7d".toList]⟩ := by
  intro css
  have himport : Balanced .none [';', '\x7b'] ("import ".toList ++ '"' :: (['a', ';', 'b'] ++ ['"'])) :=
    .append (.of_all (by decide)) (.string (by decide) (.plain (by decide) (by decide) (.plain (by decide) (by decide)
      (.plain (by decide) (by decide) .nil))) .nil)
  have hcontent : Balanced .braces [] ("content:".toList ++ '"' :: (['\x7d'] ++ ['"'])) :=
    .append (.of_all (by decide)) (.string (by decide) (.plain (by decide) (by decide) .nil) .nil)
  have hcell : Balanced .braces [] ("td".toList ++ '\x7b' :: ("margin:0".toList ++ ['\x7d'])) :=
    .append (.of_all (by decide)) (.brackets (by decide) (by decide) (.of_all (by decide)) .nil)
  have hrule : Entry.IsRegular (.rule ["a:hover".toList, " a.x ".toList]
      ("content:".toList ++ '"' :: (['\x7d'] ++ ['"']))) :=
    .rule (List.forall_mem_cons.2 ⟨.of_all (by decide), List.forall_mem_singleton.2 (.of_all (by decide))⟩)
      (List.forall_mem_cons.2 ⟨.of_all (by decide), List.forall_mem_singleton.2 (.of_all (by decide))⟩)
      (by decide) hcontent
  have hsheet := SheetWritten.cons Text.allBlank_nil (.statement himport) (.cons Text.allBlank_space hrule
    (.cons Text.allBlank_nil (.block (.of_all (by decide) : Balanced _ _ "media print".toList) hcell)
      (.nil Text.allBlank_space)))
  have hwritten : SheetWritten importedLinks css :=
    (congrArg (SheetWritten importedLinks) (by decide +kernel)).mp hsheet
  have hcomment : ¬ "/*".toList <:+: css := by decide +kernel
  refine ⟨hwritten, hcomment, ?_⟩
  rw [parse_of_sheetWritten hwritten hcomment]
  decide +kernel

end MailTemplate.Css
