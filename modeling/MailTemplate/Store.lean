import MailTemplate.Path

/-!
# Files

A store is the files and directories that a run can see: what stands at each place, a place being the names that lead to
it from the root. Main statement: putting something at a place changes that place alone (`at?_put`).
-/
namespace MailTemplate

/-- Why a file cannot be read or written. -/
inductive FileFault where
  | notFound
  | isDirectory
  | notDirectory
  /-- The file does not hold UTF-8. -/
  | invalidData
  /-- The path has a byte that no name can have. -/
  | invalidInput
  /-- The path or a name in it is longer than the system allows. -/
  | nameTooLong
  deriving Repr, DecidableEq

/-- What stands at a place. -/
inductive Entry where
  | file (contents : ByteArray)
  | directory

/-- The names that lead from the root to a place. -/
abbrev Spot := List Path

structure Store where
  entries : List (Spot × Entry)
  workingDirectory : Spot

namespace Store

/-- What stands at a place. The root is a directory. -/
def at? (s : Store) (spot : Spot) : Option Entry :=
  if spot = [] then some .directory else (s.entries.find? (·.1 == spot)).map (·.2)

/-- Puts something at a place. -/
def put (s : Store) (spot : Spot) (e : Entry) : Store :=
  { s with entries := (spot, e) :: s.entries.filter (·.1 != spot) }

theorem at?_put (s : Store) (spot other : Spot) (e : Entry) (h : spot ≠ []) :
    (s.put spot e).at? other = if other = spot then some e else s.at? other := by
  unfold at? put
  by_cases ho : other = []
  · simp [ho, Ne.symm h]
  · by_cases hs : other = spot
    · simp [hs, h]
    · have hf : (s.entries.filter (·.1 != spot)).find? (·.1 == other) = s.entries.find? (·.1 == other) := by
        rw [List.find?_filter]
        congr 1
        funext x
        by_cases hx : x.1 = other <;> simp [hx, hs]
      simp [ho, hs, Ne.symm hs, hf]

/-! ## Finding a place -/

/-- Follows names from a place. Every place passed has to be a directory; the last one need not be there. -/
def follow (s : Store) (spot : Spot) : List Path → Except FileFault Spot
  | [] => .ok spot
  | name :: names =>
    match s.at? spot with
    | none => .error .notFound
    | some (.file _) => .error .notDirectory
    | some .directory =>
      if Path.isIdle name then s.follow spot names
      else if name = Path.up then s.follow spot.dropLast names
      else if 255 < name.length then .error .nameTooLong
      else s.follow (spot ++ [name]) names

/-- The place where a path starts. -/
def start (s : Store) (p : Path) : Spot := if Path.isAbsolute p then [] else s.workingDirectory

/-- Refuses paths that the system does not look at. -/
def checkPath (p : Path) : Except FileFault Unit :=
  if p.contains 0 then .error .invalidInput
  else if p = [] then .error .notFound
  else if 4096 ≤ p.length then .error .nameTooLong
  else .ok ()

/-! ## Reading and writing -/

/-- The text of a file. -/
def read (s : Store) (p : Path) : Except FileFault Text := do
  checkPath p
  match s.at? (← s.follow (s.start p) (Path.parts p)) with
  | none => .error .notFound
  | some .directory => .error .isDirectory
  | some (.file contents) =>
    match String.fromUTF8? contents with
    | none => .error .invalidData
    | some t => .ok t.toList

/-- The place that a path to be written names: in a directory that is there, and itself no directory. A path that ends in
a slash or in dots can only name a directory. -/
def target (s : Store) (p : Path) : Except FileFault Spot := do
  checkPath p
  let parts := Path.parts p
  let names := (parts.reverse.dropWhile List.isEmpty).reverse
  let last := names.getLast?.getD Path.here
  if last = Path.here ∨ last = Path.up then
    let _ ← s.follow (s.start p) parts
    .error .isDirectory
  else if names.length < parts.length then
    let _ ← s.follow (s.start p) (names.dropLast ++ [[]])
    .error .isDirectory
  else
    let spot ← s.follow (s.start p) parts
    match s.at? spot with
    | some .directory => .error .isDirectory
    | _ => .ok spot

/-- Makes a file hold a text, whether or not it was there before. -/
def write (s : Store) (p : Path) (t : Text) : Except FileFault Store :=
  (s.target p).map fun spot => s.put spot (.file (String.ofList t).toUTF8)

end Store

end MailTemplate
