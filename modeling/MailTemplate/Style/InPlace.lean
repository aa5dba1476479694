import MailTemplate.Style.Inline

/-!
# Inlining in a document

The same on the numbered nodes of a document, which is changed as it is gone through. The nodes to go through are fixed
beforehand, first for taking the sheets out and then, in the document that is left by that, for styling. A node that has
been taken out by then is gone through all the same.
-/
namespace MailTemplate

namespace Document

/-! ## Taking sheets out -/

/-- Makes a style element hold the at-rules of a sheet and nothing else; where there are none it is unlinked. -/
def keepAtRules (g : Document) (i : NodeId) (sheet : Css.Stylesheet) : Document :=
  if sheet.atRules = [] then g.detach i
  else
    let g := g.clearChildren i
    (g.create (.leaf (.raw (['\n'] ++ Text.join ['\n'] sheet.atRules ++ ['\n'])))).append i g.size

/-- Puts a new style element with the at-rules of a sheet in the place of a link; where there are none the link is
unlinked. -/
def replaceLink (g : Document) (i : NodeId) (sheet : Css.Stylesheet) : Document :=
  if sheet.atRules = [] then g.detach i
  else ((g.create (.element ⟨"style".toList, [], false⟩)).replace i g.size).keepAtRules g.size sheet

section Collecting

variable (s : Settings) (dir : Option Path) (read : Reader)

/-- Takes the sheet of a node out, if the node is a source that is read. -/
def collectAt (g : Document) (i : NodeId) : Except Failure (Document × List Css.Stylesheet) :=
  match g.element? i with
  | none => .ok (g, [])
  | some e =>
    match Source.ofElement? s dir e (g.textContent i) with
    | some (.embedded css) => .ok (g.keepAtRules i (.parse css), [.parse css])
    | some (.linked location) => (read location).map fun css => (g.replaceLink i (.parse css), [.parse css])
    | some (.left _) | none => .ok (g, [])

/-- Takes the sheets of nodes out, one after the other, up to the first that cannot be read. -/
def collect (g : Document) : List NodeId → Except Failure (Document × List Css.Stylesheet)
  | [] => .ok (g, [])
  | i :: is => (g.collectAt s dir read i).bind fun (g, sheets) =>
      (collect g is).map fun (g, more) => (g, sheets ++ more)

end Collecting

/-! ## Styling -/

section Styling

open Css

variable (d : Dialect) (sheet : Stylesheet)

/-- The declarations that a sheet has for a node, in order. -/
def declarationsFor (g : Document) (i : NodeId) : List Declaration :=
  (sheet.rules.filter fun r => r.selectors.any (·.selectsNode d g i)).flatMap Rule.declarations

def setElement (g : Document) (i : NodeId) (e : Element) : Document := g.update i fun n => { n with data := .element e }

/-- Writes the declarations for a node into its `style` attribute, before those that are there; with the document comes the
attribute as it was, if anything is written. -/
def styleAt (g : Document) (i : NodeId) : Document × List Text :=
  match g.element? i with
  | none => (g, [])
  | some e =>
    match g.declarationsFor d sheet i with
    | [] => (g, [])
    | found =>
      let merged := Declaration.mergeAll [] (found ++ Declaration.parseBlock (e.ownStyle d))
      (g.setElement i (e.setAttributeIn d "style".toList (Declaration.printAll merged)), [e.ownStyle d])

/-- Styles nodes, one after the other. -/
def styleAll (g : Document) : List NodeId → Document × List Text
  | [] => (g, [])
  | i :: is =>
    let (g, former) := g.styleAt d sheet i
    let (g, more) := styleAll g is
    (g, former ++ more)

end Styling

end Document

/-! ## A whole template -/

/-- Inlines the sheets of a template in its document; beside the text comes the number of elements that got
declarations. -/
def inlineInPlace (s : Settings) (dir : Option Path) (read : Reader) (src : Text) : Except Failure (Text × Nat) := do
  let f ← (Forest.parse s.dialect src).mapError .parse
  let g := Document.ofForest f
  let (g, sheets) ← g.collect s dir read (g.descendants Document.root)
  let (g, former) := g.styleAll s.dialect (.concat sheets) (g.descendants Document.root)
  return (g.forest.print s.pretty, former.length)

end MailTemplate
