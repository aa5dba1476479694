import MailTemplate.Proofs.Markup.Invariant
import MailTemplate.Proofs.Style.Collecting
import MailTemplate.Proofs.Style.StylingInPlace
/-!
# Inlining in a document is inlining trees

For every template that can be read, the nodes of its document are a row below the root (`RowAt`) that stands for the
trees read. So the two runs over its nodes take the sheets out of the trees and style what stays, and the text that comes
out is that of `inline`; where a sheet cannot be read, both end with the same failure (`map_inlineInPlace`).
-/
namespace MailTemplate

open Document

variable {s : Settings} {dir : Option Path} {read : Reader} {src : Text} {f : Forest}

/-- All nodes of a document that is made from trees, as a row. -/
theorem Document.rowAt_ofForest (f : Forest) :
    (ofForest f).RowAt root [] ((ofForest f).children root) [] f ((ofForest f).descendants root) :=
  ⟨(isTree_ofForest f).linked, (isTree_ofForest f).isForest, (List.append_nil _).symm, shows_ofForest f⟩

theorem inlineInPlace_eq_of_parse (hp : Forest.parse s.dialect src = .ok f) (dir : Option Path) (read : Reader) :
    inlineInPlace s dir read src = (Forest.taken s dir read f).map fun (kept, sheets) =>
      let styled := style s.dialect (.concat sheets) kept
      (styled.trees.print s.pretty, styled.count) := by
  have hrun := (rowAt_ofForest f).collected s dir read
    (Forest.plainSources_of_wellFormed (Forest.wellFormed_of_parse hp))
  unfold inlineInPlace
  rw [hp]
  dsimp only [Except.mapError, bind, Except.bind]
  generalize Forest.taken s dir read f = expected, (ofForest f).collect s dir read _ = run at hrun ⊢
  cases hrun with
  | error x => rfl
  | @ok g kept sheets hb =>
    obtain @⟨row, ns, hrow, hchanges, -⟩ := hb
    have hchildren : g.children root = row := by
      rw [hrow.children, List.append_nil, List.nil_append]
    subst hchildren
    have hroot : (ofForest f).data? root = some .document := ((isTree_ofForest f).document root).2 rfl
    have hroot' : g.data? root = some .document := (hchanges.data root (lt_size_of_data? hroot)).trans hroot
    have hlevels : g.levels g.size root = [] := levels_of_no_element (by rw [element?, hroot']) _
    obtain ⟨g', hstyled, hsame, hshows⟩ := hrow.styled s.dialect (.concat sheets) hlevels rfl
    have hforest : g'.forest = (style s.dialect (.concat sheets) kept).trees := by
      rw [← hsame.children] at hshows
      exact hshows.forest_eq (hsame.linked hrow.linked) (hsame.isForest hrow.forest)
        ((hsame.data root hrow.notMem).trans hroot')
    dsimp only [Except.map]
    rw [hrow.shows.descendants_eq hrow.linked hrow.forest, hstyled, hforest]
    rfl

/-- Inlining in a document yields what inlining trees yields. -/
theorem map_inlineInPlace (s : Settings) (dir : Option Path) (read : Reader) (src : Text) :
    (inlineInPlace s dir read src).map Prod.fst = inline s dir read src := by
  cases hp : Forest.parse s.dialect src with
  | error e =>
    unfold inlineInPlace inline
    rw [hp]
    rfl
  | ok f =>
    rw [inlineInPlace_eq_of_parse hp, inline_eq_of_parse hp]
    cases Forest.taken s dir read f <;> rfl

end MailTemplate
