import MailTemplate.World

/-!
# Runs

A run loads a template, inlines its sheets, corrects the result and writes it: all of it, or nothing. Linked sheets are
read as they are come to, and each step is reported as it is done.
-/
namespace MailTemplate

/-- What a run works on and how. -/
structure RunConfig where
  input : Path
  output : Path
  settings : Settings
  corrections : List Correction

/-- The run over a Jelly template, unless told otherwise. -/
def RunConfig.jelly : RunConfig :=
  ⟨Text.bytes "html.jelly".toList, Text.bytes "html_gmail.jelly".toList, .jelly, Correction.jelly⟩

/-- Reads linked sheets from the store; there is no web. -/
def Store.reader (s : Store) : Reader := (World.alone s).reader

section Surroundings

variable {m : Type → Type} [Monad m] [Surroundings m]

/-! ## Taking sheets out of a template -/

mutual

/-- Reads the sheets of a tree, in document order, and takes them out: what stays of the tree, and the sheets. -/
def Tree.takeOut (s : Settings) (dir : Option Path) : Tree → Action m (Forest × List Css.Stylesheet)
  | .leaf l => pure ([.leaf l], [])
  | .element e content =>
    match Source.of? s dir e content with
    | some (.embedded css) => do
      Action.report (sheetEvents css)
      pure ((Source.embedded css).remains e (.parse css), [.parse css])
    | some (.linked location) => do
      let css ← Action.readSheet location
      Action.report (sheetEvents css)
      pure ((Source.linked location).remains e (.parse css), [.parse css])
    | some (.left problem) => do
      Action.report [.ignoredLink problem]
      let (content, sheets) ← Forest.takeOut s dir content
      pure ([.element e content], sheets)
    | none => do
      let (content, sheets) ← Forest.takeOut s dir content
      pure ([.element e content], sheets)

/-- Reads the sheets of trees, in document order, and takes them out: what stays of the trees, and the sheets. -/
def Forest.takeOut (s : Settings) (dir : Option Path) : List Tree → Action m (Forest × List Css.Stylesheet)
  | [] => pure ([], [])
  | t :: ts => do
    let (kept, sheets) ← t.takeOut s dir
    let (more, others) ← Forest.takeOut s dir ts
    pure (kept ++ more, sheets ++ others)

end

/-! ## A whole run -/

namespace Action

/-- Inlines the sheets of a template; `dir` is the directory that relative paths are meant from. -/
def inline (s : Settings) (dir : Option Path) (src : Text) : Action m Text := do
  report (parseEvents s.dialect src)
  let f ← ofExcept ((Forest.parse s.dialect src).mapError .parse)
  let (kept, sheets) ← Forest.takeOut s dir f
  let sheet := Css.Stylesheet.concat sheets
  let styled := style s.dialect sheet kept
  report (.collected sheet.rules.length sheet.atRules.length :: styleEvents styled)
  return styled.trees.print s.pretty

/-- Inlines the sheets of a template and corrects the result. -/
def process (s : Settings) (dir : Option Path) (corrections : List Correction) (src : Text) : Action m Text := do
  let t ← inline s dir src
  report (correctionEvents corrections t)
  return Correction.applyAll corrections t

end Action

/-- A run from end to end. -/
def RunConfig.perform (c : RunConfig) : Action m Unit := do
  let src ← Action.load c.input
  let out ← Action.process c.settings (Path.directory? c.input) c.corrections src
  Action.save c.output out

end Surroundings

namespace RunConfig

/-- What is to be written in a world. -/
def resultIn (c : RunConfig) (w : World) : Except Failure Text := do
  let src ← w.load c.input
  process c.settings (Path.directory? c.input) w.reader c.corrections src

/-- What is to be written. -/
def result (c : RunConfig) (s : Store) : Except Failure Text := c.resultIn (.alone s)

/-- The store after a run. -/
def run (c : RunConfig) (s : Store) : Except Failure Store :=
  match Effect.on c.perform (.alone s) with
  | (.ok (), after) => .ok after.files
  | (.error failure, _) => .error failure

/-- What a run reports in a world. -/
def eventsIn (c : RunConfig) (w : World) : List Event :=
  w.loadEvents c.input ++
    match w.load c.input with
    | .error _ => []
    | .ok src =>
      processEvents c.settings (Path.directory? c.input) w.reader c.corrections src ++
        match c.resultIn w with
        | .error _ => []
        | .ok t => w.saveEvents c.output t

end RunConfig

end MailTemplate
