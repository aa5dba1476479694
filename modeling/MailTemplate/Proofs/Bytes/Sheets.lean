import MailTemplate.Proofs.Bytes.Pieces
import MailTemplate.Proofs.Bytes.Selectors
import MailTemplate.Proofs.Bytes.Strings
/-!
# Style sheets by bytes

A sheet is read item by item, each from the offset where the one before it ended, and its declarations are pieces that
are cut at a colon. By bytes, the items, the rules and the declarations are what they are by characters (`sheet?_eq`).
-/
namespace MailTemplate.Bytes

open Text Css

variable {c : Char} {r s t : Text} {i : Nat}

/-! ## Declarations -/

/-- The declaration that a piece of a block makes, if it makes one. -/
def declaration? (piece : Text) : Option (Option Declaration) :=
  match find? [':'] piece 0 with
  | none => some none
  | some colon => do
    let property := trim (← slice? piece 0 colon)
    let value := trim (← slice? piece (colon + 1) (byteSize piece))
    return if property = [] ∨ value = [] then none else some ⟨lower property, value⟩

/-- The declarations of a block, in order. -/
def declarations? (block : Text) : Option (List Declaration) := do
  let pieces ← split? ';' block
  let declarations ← pieces.mapM declaration?
  return declarations.reduceOption

theorem declaration?_eq (piece : Text) : declaration? piece = some (Declaration.ofPiece? piece) := by
  have h := RestAt.start piece
  rw [declaration?, Declaration.ofPiece?, find?_eq (List.cons_ne_nil _ _) h]
  cases hcut : cut? [':'] piece with
  | none => rfl
  | some p =>
    have hcolon := restAt_of_cut? h hcut
    rw [Option.map_some]
    dsimp only
    rw [slice?_of_cut? h hcut, (tail_of_lt hcolon (by decide)).slice?_rest]
    rfl

theorem declarations?_eq (block : Text) : declarations? block = some (Declaration.parseBlock block) := by
  have hall : declaration? = fun piece => pure (Declaration.ofPiece? piece) := funext declaration?_eq
  rw [declarations?, split?_eq (by decide) (by decide) (by decide), Option.bind_eq_bind, Option.bind_some, hall,
    List.mapM_pure]
  exact congrArg some List.filterMap_map

/-! ## Items -/

/-- Reads the at-rule that begins at byte `i`. -/
def atRuleRound? (t : Text) (i : Nat) : Option (List Item × Option Nat) := do
  let stop := atRuleEnd t i
  let text := trim (← slice? t i stop)
  return (if text = [] then [] else [.atRule text], some stop)

/-- Reads the rule from byte `i` on, whose block begins at byte `opening`. -/
def ruleRound? (t : Text) (i opening : Nat) : Option (List Item × Option Nat) := do
  let closing := (matchingBrace? 0 t opening).getD (byteSize t)
  let prelude ← slice? t i opening
  let body ← slice? t (opening + 1) (min closing (byteSize t))
  return ([.rule prelude body], some (min (closing + 1) (byteSize t)))

/-- A round of reading a sheet: an item, and where it ends. -/
def itemRound? (t : Text) (i : Nat) : Option (List Item × Option Nat) :=
  let start := skipWhile isBlank t i
  match unit? t start with
  | none => some ([], none)
  | some b =>
    if b = '@' then atRuleRound? t start
    else
      match findOutside? '\x7b' t start with
      | none => do
        let text ← slice? t start (byteSize t)
        return ([.trailing (trim text)], none)
      | some opening => ruleRound? t start opening

theorem atRuleRound?_eq (hr : skipBlanks r = '@' :: s) (h : RestAt t i ('@' :: s)) :
    Round t items r (atRuleRound? t i) := by
  have hcut := append_of_cutAtRule .outside ('@' :: s)
  have hlen := length_of_cutAtRule .outside '@' s
  have hle := length_skipBlanks_le r
  have hitems := items_of_at hr
  -- the rule begins with its mark, and so it is not trimmed to nothing
  obtain ⟨text, htext⟩ : ∃ text, (cutAtRule .outside ('@' :: s)).1 = '@' :: text := by
    rw [cutAtRule, if_neg (by decide), if_neg (by decide)]
    exact ⟨_, rfl⟩
  obtain ⟨u, w, htrim, -⟩ := exists_trim_cons (z := '@') (by decide) text
  rw [hr, List.length_cons] at hle
  rw [atRuleRound?, atRuleEnd_eq h]
  generalize cutAtRule .outside ('@' :: s) = cut at hcut hlen hitems htext
  obtain ⟨rule, rest⟩ := cut
  dsimp only at hcut hlen hitems htext ⊢
  rw [← hcut] at h
  rw [htext, htrim] at hitems
  rw [h.slice?, Option.bind_eq_bind, Option.bind_some, htext, htrim, if_neg (List.cons_ne_nil _ _), ← htext]
  exact .next h.append (Nat.lt_of_le_of_lt hlen hle) hitems

theorem ruleRound?_eq {prelude rest : Text} (hat : (skipBlanks r).head? ≠ some '@')
    (hcut : cutOutside? '\x7b' .outside (skipBlanks r) = some (prelude, rest)) (h : RestAt t i (skipBlanks r)) :
    Round t items r (ruleRound? t i (i + byteSize prelude)) := by
  have hitems := items_of_cutOutside hat hcut
  have hblock := eq_append_of_cutBlock 0 .outside rest
  have hlen : rest.length < r.length := Nat.lt_of_lt_of_le (length_of_cutOutside? hcut) (length_skipBlanks_le r)
  rw [eq_append_of_cutOutside? hcut] at h
  have hopening := h.append
  have hrest := tail_of_lt hopening (by decide)
  rw [ruleRound?, h.slice?, Option.bind_eq_bind, Option.bind_some, matchingBrace?_zero hopening]
  generalize cutBlock 0 .outside rest = block at hblock hitems ⊢
  obtain ⟨body, after⟩ := block
  cases after with
  | none =>
    rw [Option.map_none, Option.getD_none, List.append_nil] at hblock
    rw [Option.map_none, Option.getD_none, Nat.min_self, hrest.slice?_rest, Nat.min_eq_right (Nat.le_succ _)]
    rw [hblock] at hlen ⊢
    exact .next (.finish t) (Nat.lt_of_le_of_lt (Nat.zero_le _) hlen) hitems
  | some after =>
    rw [Option.map_some, Option.getD_some] at hblock
    rw [hblock] at hrest hlen
    have hafter := tail_of_lt hrest.append (by decide)
    have hsize := hafter.byteSize_eq
    rw [Option.map_some, Option.getD_some, Nat.min_eq_left (by omega), Nat.min_eq_left (by omega), hrest.slice?]
    refine .next hafter ?_ hitems
    rw [List.length_append, List.length_cons] at hlen
    omega

/-- Each round reads an item, or what is left without one. -/
theorem itemRound?_eq (h : RestAt t i r) : Round t items r (itemRound? t i) := by
  have hstart : RestAt t (skipWhile isBlank t i) (skipBlanks r) := skipWhile_rest coarse_isBlank h
  rw [itemRound?]
  generalize skipWhile isBlank t i = start at hstart ⊢
  cases hr : skipBlanks r with
  | nil =>
    rw [hr] at hstart
    rw [unit?_nil hstart]
    exact .stop ((items_congr (t := []) hr).trans items_nil)
  | cons c s =>
    rw [hr] at hstart
    obtain ⟨b, hb, hseen⟩ := exists_unit? hstart
    rw [hb]
    dsimp only
    simp only [hseen.eq_iff (show '@'.toNat < 0x80 by decide)]
    by_cases hat : c = '@'
    · subst hat
      exact atRuleRound?_eq hr hstart
    rw [← hr] at hstart
    have hhead : (skipBlanks r).head? ≠ some '@' := by simpa [hr] using hat
    rw [if_neg hat, findOutside?_eq (by decide) (by decide) hstart]
    cases hcut : cutOutside? '\x7b' .outside (skipBlanks r) with
    | none =>
      rw [Option.map_none]
      dsimp only
      rw [hstart.slice?_rest]
      exact .stop (items_of_cutOutside_none (by simp [hr]) hhead hcut)
    | some p => exact ruleRound?_eq hhead hcut hstart

/-! ## Sheets -/

/-- The selectors between the commas of a prelude, each read on its own. -/
def group? (prelude : Text) : Option (List (Except (Text × String) Selector)) := do
  let pieces ← split? ',' prelude
  (pieces.filter fun piece => !(trim piece).isEmpty).mapM selector?

/-- The rule of an item, if it has a selector that is not refused. -/
def rule? : Item → Option (Option Rule)
  | .rule prelude body => do
    let group ← group? prelude
    let selectors := group.filterMap Except.toOption
    if selectors = [] then return none
    let declarations ← declarations? body
    return some ⟨selectors, declarations⟩
  | _ => some none

/-- Reads a sheet. -/
def sheet? (css : Text) : Option Stylesheet := do
  let text ← stripComments? css
  let items ← loop? text (itemRound? text) 0
  let rules ← items.mapM rule?
  return ⟨rules.reduceOption, items.filterMap Item.atRule?⟩

theorem group?_eq (prelude : Text) : group? prelude =
    some ((Selector.parseGroup prelude).map (·.mapError fun refused => (refused.source, refused.reason))) := by
  have hall : selector? = fun s => pure ((Selector.parse s).mapError fun refused => (refused.source, refused.reason)) :=
    funext selector?_eq
  rw [group?, split?_eq (by decide) (by decide) (by decide), Option.bind_eq_bind, Option.bind_some, hall, List.mapM_pure,
    Selector.parseGroup, List.map_map]
  rfl

theorem rule?_eq (item : Item) : rule? item = some item.rule? := by
  cases item with
  | rule prelude body =>
    have haccepted : ((Selector.parseGroup prelude).map
        (·.mapError fun refused => (refused.source, refused.reason))).filterMap Except.toOption =
          acceptedSelectors prelude := by
      rw [List.filterMap_map]
      refine congrArg (fun f => (Selector.parseGroup prelude).filterMap f) (funext fun result => ?_)
      cases result <;> rfl
    rw [rule?, group?_eq, Option.bind_eq_bind, Option.bind_some]
    dsimp only
    rw [haccepted, declarations?_eq, Item.rule?]
    split <;> rfl
  | atRule | trailing => rfl

/-- A sheet is read by bytes as it is read by characters. -/
theorem sheet?_eq (css : Text) : sheet? css = some (Css.Stylesheet.parse css) := by
  have hall : rule? = fun item => pure item.rule? := funext rule?_eq
  rw [sheet?, stripComments?_eq, Option.bind_eq_bind, Option.bind_some,
    loop?_eq (fun _ _ => itemRound?_eq) (RestAt.start _), Option.bind_eq_bind, Option.bind_some, hall, List.mapM_pure]
  exact congrArg (fun rules => some (Css.Stylesheet.mk rules _)) List.filterMap_map

end MailTemplate.Bytes
