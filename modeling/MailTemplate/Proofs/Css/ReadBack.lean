import MailTemplate.Css.Declaration
import MailTemplate.Proofs.Css.Merging
import MailTemplate.Proofs.Css.Splitting
import MailTemplate.Proofs.Markup.Lowering
import MailTemplate.Proofs.Text.Cutting
import MailTemplate.Proofs.Text.Trimming
/-!
# Declarations read back

A block that ends outside strings and brackets has declarations that can stand beside any others
(`selfContained_of_mem_parseBlock`). Such declarations are read back as they are, in the order in which they were written
(`parseBlock_printAll`), and they are still such when they are merged (`parseBlock_printAll_mergeAll`). Of any other block
only the last piece can leave a string or bracket open, and as it is written last too, nothing is read into it.
-/
namespace MailTemplate

namespace Css

/-! ## What moves a reader -/

/-- Whether only a quote can close the string that the reader is in, if it is in one. -/
def StringState.AwaitsQuote : StringState → Prop
  | outside => True
  | inside q => Text.isQuote q = true
  | escaping q => Text.isQuote q = true

theorem StringState.AwaitsQuote.step {st : StringState} (h : st.AwaitsQuote) (c : Char) : (st.step c).AwaitsQuote := by
  cases st with
  | outside =>
    rw [StringState.step]
    split
    · next hc => exact hc
    · exact trivial
  | inside q =>
    rw [StringState.step]
    split
    · exact h
    · split
      · exact trivial
      · exact h
  | escaping q => exact h

namespace Nest

variable {n : Nest} {c : Char} {s w : Text}

theorem awaitsQuote_top : top.string.AwaitsQuote := trivial

theorem awaitsQuote_run (h : n.string.AwaitsQuote) (s : Text) : (n.run s).string.AwaitsQuote := by
  induction s generalizing n with
  | nil => exact h
  | cons c s ih => exact ih (h.step c)

/-- What opens or closes strings and brackets, or keeps them from closing. -/
def marks : List Char := ['"', '\'', '\\', '(', ')', '[', ']']

theorem not_mem_marks_of_allWhite (hw : w.AllWhite) : ∀ c ∈ w, c ∉ marks := fun c hc =>
  Text.not_mem_of_all_not (by decide) (hw c hc)

theorem isAlpha_of_mem_marks (h : c ∈ marks) : c.isAlpha = false := by
  rw [Bool.eq_false_iff]
  intro ha
  exact Text.not_mem_of_all_not (p := Char.isAlpha) (by decide) ha h

theorem toLower_mem_marks_iff : c.toLower ∈ marks ↔ c ∈ marks := by
  simp (disch := decide) only [marks, List.mem_cons, toLower_eq_iff, List.not_mem_nil]

/-- Where the reader stands once it has passed what stands behind a backslash. -/
def settled (n : Nest) : Nest :=
  match n.string with
  | .escaping q => ⟨.inside q, n.depth⟩
  | _ => n

/-- Unless it stands behind a backslash, a character that is no mark leaves the reader where it is. -/
theorem step_of_not_mem (h : n.string.AwaitsQuote) (hc : c ∉ marks) : n.step c = n.settled := by
  obtain ⟨st, depth⟩ := n
  simp only [marks, List.mem_cons, List.not_mem_nil, or_false, not_or] at hc
  have hq : Text.isQuote c = false := by simp [Text.isQuote, hc]
  cases st with
  | outside => simp [step, StringState.step, settled, hq, hc]
  | inside q =>
    have hne : c ≠ q := by
      rintro rfl
      exact Bool.false_ne_true (hq.symm.trans h)
    simp [step, StringState.step, settled, hc, hne]
  | escaping q => rfl

theorem step_toLower (h : n.string.AwaitsQuote) (c : Char) : n.step c.toLower = n.step c := by
  by_cases hc : c ∈ marks
  · rw [(toLower_eq_iff (isAlpha_of_mem_marks hc) c).2 rfl]
  · rw [step_of_not_mem h hc, step_of_not_mem h (toLower_mem_marks_iff.not.2 hc)]

theorem settled_settled (n : Nest) : n.settled.settled = n.settled := by
  obtain ⟨st, depth⟩ := n
  cases st <;> rfl

theorem awaitsQuote_settled (h : n.string.AwaitsQuote) : n.settled.string.AwaitsQuote := by
  obtain ⟨st, depth⟩ := n
  cases st <;> exact h

theorem eq_top_of_settled (h : n.settled = top) : n = top := by
  obtain ⟨st, depth⟩ := n
  cases st with
  | outside => exact h
  | inside q => exact h
  | escaping q => cases h

/-- Where characters that are no marks lead does not depend on which they are and how many. -/
theorem run_of_not_mem (h : n.string.AwaitsQuote) (hs : ∀ c ∈ s, c ∉ marks) (hne : s ≠ []) : n.run s = n.settled := by
  induction s generalizing n with
  | nil => exact absurd rfl hne
  | cons c s ih =>
    obtain ⟨hc, hs⟩ := List.forall_mem_cons.1 hs
    rw [run_cons, step_of_not_mem h hc]
    cases s with
    | nil => rfl
    | cons c' s => rw [ih (awaitsQuote_settled h) hs (List.cons_ne_nil c' s), settled_settled]

/-- White space and a colon lead to one place, however much white space there is. -/
theorem run_colon {x : Text} (h : n.string.AwaitsQuote) (hw : w.AllWhite) (hx : x.AllWhite) :
    n.run (w ++ ':' :: x) = n.settled := by
  refine run_of_not_mem h ?_ (by simp)
  rw [List.forall_mem_append, List.forall_mem_cons]
  exact ⟨not_mem_marks_of_allWhite hw, by decide, not_mem_marks_of_allWhite hx⟩

theorem run_top_of_allWhite (hw : w.AllWhite) : top.run w = top := by
  cases w with
  | nil => rfl
  | cons c w => exact run_of_not_mem awaitsQuote_top (not_mem_marks_of_allWhite hw) (List.cons_ne_nil c w)

theorem eq_top_of_run_allWhite (h : n.string.AwaitsQuote) (hw : w.AllWhite) (hrun : n.run w = top) : n = top := by
  cases w with
  | nil => exact hrun
  | cons c w =>
    rw [run_of_not_mem h (not_mem_marks_of_allWhite hw) (List.cons_ne_nil c w)] at hrun
    exact eq_top_of_settled hrun

theorem run_lower (h : n.string.AwaitsQuote) (s : Text) : n.run (Text.lower s) = n.run s := by
  induction s generalizing n with
  | nil => rfl
  | cons c s ih => rw [Text.lower_cons, run_cons, run_cons, step_toLower h, ih (h.step c)]

end Nest

theorem unparted_lower {sep : Char} (hsep : sep.isAlpha = false) {n : Nest} (h : n.string.AwaitsQuote) (s : Text) :
    Unparted sep n (Text.lower s) ↔ Unparted sep n s := by
  induction s generalizing n with
  | nil => exact Iff.rfl
  | cons c s ih => rw [Text.lower_cons, Unparted, Unparted, toLower_eq_iff hsep, Nest.step_toLower h, ih (h.step c)]

/-! ## Reading what was written -/

namespace Declaration

variable {d : Declaration} {ds : List Declaration} {block s w w' x x' : Text}

/-- Whether a declaration is read as it is wherever it stands in a block. -/
structure SelfContained (d : Declaration) : Prop where
  ofPiece?_print : ofPiece? d.print = some d
  isPiece_print : IsPiece ';' .top d.print

theorem cut?_colon_append (hw : w.AllWhite) (s : Text) :
    Text.cut? [':'] (w ++ s) = (Text.cut? [':'] s).map fun (before, after) => (w ++ before, after) := by
  induction w with
  | nil => simp
  | cons c w ih =>
    obtain ⟨hc, hw⟩ := List.forall_mem_cons.1 hw
    have hne : ':' ≠ c := by
      rintro rfl
      exact absurd hc (by decide)
    rw [List.cons_append, Text.cut?, Text.after?, if_neg hne, ih hw, Option.map_map]
    rfl

/-- White space before a piece does not count. -/
theorem ofPiece?_append (hw : w.AllWhite) (s : Text) : ofPiece? (w ++ s) = ofPiece? s := by
  unfold ofPiece?
  rw [cut?_colon_append hw]
  cases Text.cut? [':'] s with
  | none => rfl
  | some parts =>
    have htrim : Text.trim (w ++ parts.1) = Text.trim parts.1 := Text.strip_append_left parts.1 hw
    simp only [Option.map_some, htrim]

theorem unparted_white_append (hw : w.AllWhite) (h : Unparted ';' .top s) : Unparted ';' .top (w ++ s) := by
  refine unparted_append.2 ⟨unparted_of_not_mem (hw.not_mem (by decide)) _, ?_⟩
  rwa [Nest.run_top_of_allWhite hw]

theorem isPiece_append (hw : w.AllWhite) (h : IsPiece ';' .top s) : IsPiece ';' .top (w ++ s) := by
  refine ⟨unparted_white_append hw h.unparted, ?_⟩
  rw [Nest.run_append, Nest.run_top_of_allWhite hw]
  exact h.closed

/-- What separators keep apart is read back in order, even if the last declaration leaves a string or bracket open. -/
theorem parseBlock_append_printAll (hw : w.AllWhite) (h : ∀ d ∈ ds, ofPiece? d.print = some d)
    (hparted : Parted ';' (ds.map print)) : parseBlock (w ++ printAll ds) = ds := by
  induction ds generalizing w with
  | nil => exact absurd rfl hparted.ne_nil
  | cons d ds ih =>
    obtain ⟨hd, hds⟩ := List.forall_mem_cons.1 h
    have hone : ofPiece? (w ++ d.print) = some d := by rw [ofPiece?_append hw, hd]
    cases ds with
    | nil =>
      have hunparted := unparted_white_append hw hparted.unparted_head
      rw [printAll, List.map_singleton, Text.join, parseBlock, split, splitFrom_of_unparted hunparted,
        List.filterMap_cons_some hone, List.filterMap_nil]
    | cons e ds =>
      cases hparted with
      | cons hpiece hparted =>
        have hrest : parseBlock ([' '] ++ printAll (e :: ds)) = e :: ds := ih Text.allWhite_space hds hparted
        have htext : w ++ printAll (d :: e :: ds) = (w ++ d.print) ++ ';' :: ([' '] ++ printAll (e :: ds)) := by
          simp [printAll, Text.join]
        rw [parseBlock, split] at hrest ⊢
        rw [htext, splitFrom_append (isPiece_append hw hpiece), List.filterMap_cons_some hone, hrest]

theorem parseBlock_printAll_of_parted (h : ∀ d ∈ ds, ofPiece? d.print = some d)
    (hparted : ds ≠ [] → Parted ';' (ds.map print)) : parseBlock (printAll ds) = ds := by
  by_cases hne : ds = []
  · subst hne
    rfl
  · exact parseBlock_append_printAll (List.forall_mem_nil _) h (hparted hne)

theorem parseBlock_printAll (h : ∀ d ∈ ds, d.SelfContained) : parseBlock (printAll ds) = ds := by
  refine parseBlock_printAll_of_parted (fun d hd => (h d hd).ofPiece?_print) fun hne => ?_
  refine .of_forall (List.map_eq_nil_iff.not.2 hne) (List.forall_mem_map.2 fun d hd => (h d hd).isPiece_print)

/-! ## Declarations of a block -/

/-- The two parts of a piece, and the white space around them. -/
theorem exists_parts (before after : Text) : ∃ w w' x x' : Text,
    before ++ [':'] ++ after = w ++ (Text.trim before ++ (w' ++ ':' :: x) ++ Text.trim after) ++ x' ∧
      w.AllWhite ∧ w'.AllWhite ∧ x.AllWhite ∧ x'.AllWhite := by
  obtain ⟨w, w', hb, hw, hw'⟩ := Text.exists_trim before
  obtain ⟨x, x', ha, hx, hx'⟩ := Text.exists_trim after
  refine ⟨w, w', x, x', ?_, hw, hw', hx, hx'⟩
  conv_lhs => rw [hb, ha]
  simp

section Parts

variable {before after : Text}

/-- Where no white space is left around the two parts, no separator has come in. -/
theorem unparted_print (h : Unparted ';' .top (before ++ [':'] ++ after)) :
    Unparted ';' .top (Text.lower (Text.trim before) ++ ": ".toList ++ Text.trim after) := by
  obtain ⟨w, w', x, x', hparts, hw, hw', hx, -⟩ := exists_parts before after
  have hm := Nest.awaitsQuote_run Nest.awaitsQuote_top (Text.trim before)
  have hcolon := Nest.run_colon hm Text.allWhite_nil Text.allWhite_space
  rw [hparts] at h
  simp only [unparted_append, Nest.run_append, Nest.run_top_of_allWhite hw, Nest.run_colon hm hw' hx] at h
  obtain ⟨⟨-, ⟨hproperty, -⟩, hvalue⟩, -⟩ := h
  simp only [unparted_append, Nest.run_append, Nest.run_lower Nest.awaitsQuote_top]
  refine ⟨⟨(unparted_lower (by decide) Nest.awaitsQuote_top _).2 hproperty, unparted_of_not_mem (by decide) _⟩, ?_⟩
  exact hcolon ▸ hvalue

/-- Where no white space is left around the two parts, the declaration is a piece still. -/
theorem isPiece_print (h : IsPiece ';' .top (before ++ [':'] ++ after)) :
    IsPiece ';' .top (Text.lower (Text.trim before) ++ ": ".toList ++ Text.trim after) := by
  refine ⟨unparted_print h.unparted, ?_⟩
  obtain ⟨w, w', x, x', hparts, hw, hw', hx, hx'⟩ := exists_parts before after
  have hm := Nest.awaitsQuote_run Nest.awaitsQuote_top (Text.trim before)
  have hcolon := Nest.run_colon hm Text.allWhite_nil Text.allWhite_space
  have hclosed := h.closed
  rw [hparts] at hclosed
  simp only [Nest.run_append, Nest.run_top_of_allWhite hw, Nest.run_colon hm hw' hx] at hclosed
  rw [Nest.run_append, Nest.run_append, Nest.run_lower Nest.awaitsQuote_top]
  exact hcolon ▸ Nest.eq_top_of_run_allWhite (Nest.awaitsQuote_run (Nest.awaitsQuote_settled hm) _) hx' hclosed

end Parts

theorem ofPiece?_print {property value : Text} (hproperty : property ≠ []) (hvalue : value ≠ [])
    (hcolon : ':' ∉ property) (htrim : Text.trim property = property) (hlower : Text.lower property = property)
    (htrim' : Text.trim value = value) :
    ofPiece? (property ++ ": ".toList ++ value) = some ⟨property, value⟩ := by
  have hcut : Text.cut? [':'] (property ++ ": ".toList ++ value) = some (property, [' '] ++ value) := by
    have h := Text.cut?_singleton hcolon ([' '] ++ value)
    rwa [show property ++ ": ".toList ++ value = property ++ ':' :: ([' '] ++ value) by simp]
  have hspace : Text.trim ([' '] ++ value) = value := by
    rw [Text.trim, Text.strip_append_left value Text.allWhite_space]
    exact htrim'
  unfold ofPiece?
  rw [hcut]
  simp only [htrim, hspace, hlower, hproperty, hvalue, or_self, if_false]

/-- What a piece has to say is in its two parts. -/
theorem exists_of_ofPiece? {piece : Text} (h : ofPiece? piece = some d) : ∃ before after,
    piece = before ++ [':'] ++ after ∧ d.print = Text.lower (Text.trim before) ++ ": ".toList ++ Text.trim after ∧
      ofPiece? d.print = some d := by
  unfold ofPiece? at h
  cases hcut : Text.cut? [':'] piece with
  | none => simp [hcut] at h
  | some parts =>
    obtain ⟨before, after⟩ := parts
    simp only [hcut, Option.ite_none_left_eq_some, not_or, Option.some.injEq] at h
    obtain ⟨⟨hproperty, hvalue⟩, rfl⟩ := h
    have hcolon : ':' ∉ Text.trim before := fun hc => Text.not_mem_of_cut? hcut (Text.mem_of_mem_trim hc)
    refine ⟨before, after, Text.eq_append_of_cut? hcut, rfl, ofPiece?_print ?_ hvalue ?_ ?_ ?_ (Text.trim_trim after)⟩
    · exact fun hnil => hproperty (List.map_eq_nil_iff.1 hnil)
    · exact fun hc => hcolon (Text.mem_of_mem_lower hc (by decide))
    · rw [Text.trim_lower, Text.trim_trim]
    · exact Text.lower_lower _

theorem ofPiece?_print_of_mem (hd : d ∈ parseBlock block) : ofPiece? d.print = some d := by
  obtain ⟨piece, -, hpiece⟩ := List.mem_filterMap.1 hd
  obtain ⟨_, _, -, -, hread⟩ := exists_of_ofPiece? hpiece
  exact hread

/-- The declarations of a block that ends outside strings and brackets can stand beside any others. -/
theorem selfContained_of_mem_parseBlock (h : Nest.top.run block = .top) (hd : d ∈ parseBlock block) :
    d.SelfContained := by
  obtain ⟨piece, hp, hpiece⟩ := List.mem_filterMap.1 hd
  have hwhole := isPiece_of_mem_split rfl h piece hp
  obtain ⟨before, after, rfl, hprint, hread⟩ := exists_of_ofPiece? hpiece
  exact ⟨hread, hprint ▸ isPiece_print hwhole⟩

/-- Pieces that declare something are kept apart still when they are written anew. -/
theorem parted_print {pieces : List Text} (h : Parted ';' pieces) (hne : pieces.filterMap ofPiece? ≠ []) :
    Parted ';' ((pieces.filterMap ofPiece?).map print) := by
  induction h with
  | @last piece hpiece =>
    cases hd : ofPiece? piece with
    | none => exact absurd (List.filterMap_cons_none hd) hne
    | some d =>
      obtain ⟨before, after, rfl, hprint, -⟩ := exists_of_ofPiece? hd
      rw [List.filterMap_cons_some hd, List.filterMap_nil, List.map_singleton, hprint]
      exact .last (unparted_print hpiece)
  | @cons piece pieces hpiece _ ih =>
    cases hd : ofPiece? piece with
    | none =>
      rw [List.filterMap_cons_none hd] at hne ⊢
      exact ih hne
    | some d =>
      obtain ⟨before, after, rfl, hprint, -⟩ := exists_of_ofPiece? hd
      have hd' := hprint ▸ isPiece_print hpiece
      rw [List.filterMap_cons_some hd, List.map_cons]
      -- the last piece that declares something need not be the last piece
      by_cases hnil : pieces.filterMap ofPiece? = []
      · rw [hnil, List.map_nil]
        exact .last hd'.unparted
      · exact .cons hd' (ih hnil)

theorem parseBlock_printAll_parseBlock (block : Text) : parseBlock (printAll (parseBlock block)) = parseBlock block :=
  parseBlock_printAll_of_parted (fun _ hd => ofPiece?_print_of_mem hd) (parted_print (parted_split ';' block))

/-- What a block declares is read back from how it is written, and so is what is merged of the declarations of blocks that
end outside strings and brackets. -/
theorem parseBlock_printAll_mergeAll (block : Text) (blocks : List Text) :
    parseBlock (printAll (parseBlock block)) = parseBlock block ∧
      ((∀ b ∈ blocks, Nest.top.run b = .top) →
        parseBlock (printAll (mergeAll [] (blocks.flatMap parseBlock))) = mergeAll [] (blocks.flatMap parseBlock)) := by
  refine ⟨parseBlock_printAll_parseBlock block, fun hblocks => parseBlock_printAll fun d hd => ?_⟩
  -- merging puts no property and value together that did not stand together in a block
  obtain ⟨b, hb, hd⟩ := List.mem_flatMap.1 ((isMergeOf_mergeAll _).subset hd)
  exact selfContained_of_mem_parseBlock (hblocks b hb) hd

/-- A block that leaves a string open behind a backslash. -/
def openFont : Text := "FONT : '12px \\".toList

/-- Two blocks that have semicolons in brackets and strings; the second one sets a property of the first one anew. -/
def overriddenColors : List Text := ["color: red; background: url(a;b)".toList, " COLOR :'x;y' ; ; margin".toList]

theorem parseBlock_printAll_mergeAll_overriddenColors :
    parseBlock openFont = [⟨"font".toList, "'12px \\".toList⟩] ∧
      parseBlock (printAll (parseBlock openFont)) = parseBlock openFont ∧
      (∀ b ∈ overriddenColors, Nest.top.run b = .top) ∧
      mergeAll [] (overriddenColors.flatMap parseBlock) =
        [⟨"color".toList, "'x;y'".toList⟩, ⟨"background".toList, "url(a;b)".toList⟩] ∧
      parseBlock (printAll (mergeAll [] (overriddenColors.flatMap parseBlock))) =
        mergeAll [] (overriddenColors.flatMap parseBlock) := by
  have hblocks : ∀ b ∈ overriddenColors, Nest.top.run b = .top := by decide +kernel
  obtain ⟨hblock, hmerged⟩ := parseBlock_printAll_mergeAll openFont overriddenColors
  exact ⟨by decide +kernel, hblock, hblocks, by decide +kernel, hmerged hblocks⟩

end Declaration

end Css

end MailTemplate
