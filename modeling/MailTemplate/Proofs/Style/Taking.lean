import MailTemplate.Style.Inline
/-!
# Taking sheets out, one tree after the other

What comes of taking out the sheets of trees (`Forest.taken`) is put together from what comes of each of them, in document
order, up to the first sheet that cannot be read (`Forest.taken_cons`). A source becomes what stays of it
(`Forest.taken_embedded`, `Forest.taken_linked`), and any other element stays, with what comes of its content
(`Forest.taken_of_stays`).
-/
namespace MailTemplate

variable {s : Settings} {dir : Option Path}

/-- What comes of taking out the sheets of trees: the first failure, or what stays of the trees and the sheets. -/
def Forest.taken (s : Settings) (dir : Option Path) (read : Reader) (f : Forest) :
    Except Failure (Forest × List Css.Stylesheet) :=
  match (Forest.sources (Source.of? s dir) f).findSome? (·.failure? read) with
  | some failure => .error failure
  | none => .ok (Forest.withoutSheets (Source.of? s dir) (·.sheet? read) f,
      (Forest.sources (Source.of? s dir) f).filterMap (·.sheet? read))

namespace Forest

variable {e : Element} {content : Forest}

/-- An element that is no source, or a link that is not read. -/
def Stays (s : Settings) (dir : Option Path) (e : Element) (css : Text) : Prop :=
  Source.ofElement? s dir e css = none ∨ ∃ problem, Source.ofElement? s dir e css = some (.left problem)

theorem taken_nil (read : Reader) : taken s dir read [] = .ok ([], []) := rfl

theorem taken_leaf (read : Reader) (l : Leaf) : taken s dir read [.leaf l] = .ok ([.leaf l], []) := rfl

theorem taken_embedded (read : Reader) {css : Text} (h : Source.of? s dir e content = some (.embedded css)) :
    taken s dir read [.element e content] = .ok (keepAtRules e (.parse css), [.parse css]) := by
  simp only [taken, sources, Tree.sources, withoutSheets, Tree.withoutSheets, h, List.append_nil]
  rfl

theorem taken_linked (read : Reader) {location : Location} (h : Source.of? s dir e content = some (.linked location)) :
    taken s dir read [.element e content] = (read location).map fun css =>
      (keepAtRules ⟨"style".toList, [], false⟩ (.parse css), [.parse css]) := by
  simp only [taken, sources, Tree.sources, withoutSheets, Tree.withoutSheets, h, List.append_nil, List.findSome?_cons,
    List.findSome?_nil, List.filterMap_cons, List.filterMap_nil, Source.failure?, Source.sheet?]
  cases read location <;> rfl

theorem taken_of_stays (read : Reader) (h : Stays s dir e content.ownText) : taken s dir read [.element e content] =
    (taken s dir read content).map fun (kept, sheets) => ([.element e kept], sheets) := by
  rcases h with h | ⟨problem, h⟩
  · simp only [taken, sources, Tree.sources, withoutSheets, Tree.withoutSheets, Source.of?, h, List.append_nil]
    cases (sources (Source.of? s dir) content).findSome? (·.failure? read) <;> rfl
  · have hf : Source.failure? read (.left problem) = none := rfl
    have hs : Source.sheet? read (.left problem) = none := rfl
    simp only [taken, sources, Tree.sources, withoutSheets, Tree.withoutSheets, Source.of?, h, List.append_nil,
      List.findSome?_cons, List.filterMap_cons, hf, hs]
    cases (sources (Source.of? s dir) content).findSome? (·.failure? read) <;> rfl

theorem taken_cons (read : Reader) (t : Tree) (ts : Forest) : taken s dir read (t :: ts) =
    (taken s dir read [t]).bind fun (kept, sheets) =>
      (taken s dir read ts).map fun (more, others) => (kept ++ more, sheets ++ others) := by
  simp only [taken, sources, withoutSheets, List.append_nil, List.findSome?_append, List.filterMap_append]
  cases (t.sources (Source.of? s dir)).findSome? (·.failure? read) with
  | some failure => rfl
  | none => cases (sources (Source.of? s dir) ts).findSome? (·.failure? read) <;> rfl

end Forest

/-- Inlining is taking the sheets out and styling what stays. -/
theorem inline_eq_of_parse {src : Text} {f : Forest} (hp : Forest.parse s.dialect src = .ok f) (dir : Option Path)
    (read : Reader) : inline s dir read src = (Forest.taken s dir read f).map fun (kept, sheets) =>
      (style s.dialect (.concat sheets) kept).trees.print s.pretty := by
  unfold inline Forest.taken
  rw [hp]
  dsimp only
  cases (Forest.sources (Source.of? s dir) f).findSome? (·.failure? read) <;> rfl

end MailTemplate
