import MailTemplate.Css.Declaration
import MailTemplate.Css.SelectorParser

/-!
# Style sheets

A sheet is read as a row of items: rules, at-rules, and at most one piece of text at its end that is neither. Rules whose
selectors are all refused are left out; at-rules are kept as text, since a `style` attribute cannot express them.
-/
namespace MailTemplate.Css

/-- What a sheet consists of. -/
inductive Item where
  /-- The text before an opening brace, and the text up to the brace that closes it. -/
  | rule (prelude body : Text)
  | atRule (text : Text)
  /-- Text at the end that no block follows. -/
  | trailing (text : Text)
  deriving Repr, DecidableEq

theorem length_of_cutOutside? {mark : Char} {st : StringState} {s before rest : Text}
    (h : cutOutside? mark st s = some (before, rest)) : rest.length < s.length := by
  induction s generalizing st before with
  | nil => simp [cutOutside?] at h
  | cons c s ih =>
    simp only [cutOutside?] at h
    split at h
    · obtain ⟨-, rfl⟩ := by simpa using h
      simp
    · obtain ⟨⟨b, r⟩, hs, he⟩ := Option.map_eq_some_iff.1 h
      obtain ⟨-, rfl⟩ := by simpa using he
      have := ih hs
      simp only [List.length_cons]
      omega

theorem length_of_cutBlock (depth : Nat) (st : StringState) (s : Text) :
    ((cutBlock depth st s).2.getD []).length ≤ s.length := by
  induction s generalizing depth st with
  | nil => simp [cutBlock]
  | cons c s ih =>
    simp only [cutBlock]
    split
    · simp
    · have := ih (braceDepth depth st c) (st.step c)
      simp only [List.length_cons]
      omega

theorem length_of_cutAtRule (st : StringState) (c : Char) (s : Text) :
    (cutAtRule st (c :: s)).2.length ≤ s.length := by
  induction s generalizing st c with
  | nil =>
    simp only [cutAtRule]
    split
    · simp
    · split <;> simp [cutBlock]
  | cons d s ih =>
    rw [cutAtRule]
    split
    · simp
    · split
      · have := length_of_cutBlock 0 .outside (d :: s)
        split
        · next heq => simpa [heq] using this
        · simp
      · have := ih (st.step c) d
        simp only [List.length_cons]
        omega

/-- The items of a sheet without comments. -/
def items (s : Text) : List Item :=
  match _h : skipBlanks s with
  | [] => []
  | c :: s' =>
    if c = '@' then
      .atRule (Text.trim (cutAtRule .outside (c :: s')).1) :: items (cutAtRule .outside (c :: s')).2
    else
      match _h' : cutOutside? '\x7b' .outside (c :: s') with
      | none => [.trailing (Text.trim (c :: s'))]
      | some (prelude, rest) =>
        .rule prelude (cutBlock 0 .outside rest).1 :: items ((cutBlock 0 .outside rest).2.getD [])
termination_by s.length
decreasing_by
  all_goals
    have hs := length_skipBlanks_le s
    rw [show skipBlanks s = _ by assumption] at hs
    simp only [List.length_cons] at hs
  · have := length_of_cutAtRule .outside c s'
    omega
  · have h₁ := length_of_cutOutside? (show cutOutside? '\x7b' .outside (c :: s') = _ by assumption)
    have h₂ := length_of_cutBlock 0 .outside rest
    simp only [List.length_cons] at h₁
    omega

/-- Selectors, and the declarations for the elements that any of them selects. -/
structure Rule where
  selectors : List Selector
  declarations : List Declaration
  deriving Repr, DecidableEq

/-- What a sheet says, rules and at-rules apart, each in order. -/
structure Stylesheet where
  rules : List Rule
  atRules : List Text
  deriving Repr, DecidableEq

/-- The selectors of a prelude that are not refused. -/
def acceptedSelectors (prelude : Text) : List Selector :=
  (Selector.parseGroup prelude).filterMap Except.toOption

namespace Item

/-- The rule of an item, if it has a selector that is not refused. -/
def rule? : Item → Option Rule
  | rule prelude body =>
    if acceptedSelectors prelude = [] then none
    else some ⟨acceptedSelectors prelude, Declaration.parseBlock body⟩
  | _ => none

def atRule? : Item → Option Text
  | atRule text => some text
  | _ => none

end Item

namespace Stylesheet

def empty : Stylesheet := ⟨[], []⟩

def ofItems (is : List Item) : Stylesheet := ⟨is.filterMap Item.rule?, is.filterMap Item.atRule?⟩

/-- Reads a sheet. -/
def parse (css : Text) : Stylesheet := ofItems (items (stripComments css))

/-- One sheet after another. -/
def append (a b : Stylesheet) : Stylesheet := ⟨a.rules ++ b.rules, a.atRules ++ b.atRules⟩

/-- Sheets in order as one. -/
def concat (sheets : List Stylesheet) : Stylesheet := sheets.foldl append empty

end Stylesheet

end MailTemplate.Css
