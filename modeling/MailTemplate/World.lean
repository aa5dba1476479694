import MailTemplate.Log

/-!
# What a run can see and do

A run sees files and pages of the web, it can change files, and it reports what it does. Anything that it does may fail,
and what has been changed by then stays changed: nothing is undone. What is around a run is left open (`Surroundings`): it
may be the system, or a world that is given as data.
-/
namespace MailTemplate

namespace Store

/-- The text of a file. -/
def load (s : Store) (p : Path) : Except Failure Text := (s.read p).mapError (.file p)

/-- The store after a text is written to a file. -/
def save (s : Store) (p : Path) (t : Text) : Except Failure Store := (s.write p t).mapError (.file p)

end Store

/-! ## Surroundings -/

/-- What a run asks for from what is around it. -/
class Surroundings (m : Type → Type) where
  readFile : Path → m (Except Failure Text)
  fetch : Url → m (Except Failure Text)
  writeFile : Path → Text → m (Except Failure Unit)
  report : List Event → m Unit

/-- Something that is done in some surroundings, with a result or a failure. -/
abbrev Action (m : Type → Type) (α : Type) := ExceptT Failure m α

namespace Action

variable {m : Type → Type} [Monad m] [Surroundings m]

def report (events : List Event) : Action m Unit := ExceptT.lift (Surroundings.report events)

/-- Goes on with a result, or fails. -/
def ofExcept {α : Type} (r : Except Failure α) : Action m α := ExceptT.mk (pure r)

/-- Reads a file and reports it. -/
def load (p : Path) : Action m Text := do
  let t ← ExceptT.mk (Surroundings.readFile p)
  report [.readFile (Text.byteSize t) p]
  return t

/-- Reads a linked sheet, which is reported before. -/
def readSheet (location : Location) : Action m Text := do
  report [location.reading]
  match location with
  | .file path => ExceptT.mk (Surroundings.readFile path)
  | .remote url => ExceptT.mk (Surroundings.fetch url)

/-- Writes a file and reports it. -/
def save (p : Path) (t : Text) : Action m Unit := do
  ExceptT.mk (Surroundings.writeFile p t)
  report [.wroteFile (Text.byteSize t) p]

end Action

/-! ## Worlds -/

/-- What is around a run, as data. -/
structure World where
  files : Store
  /-- What comes of fetching a page of the web. -/
  web : Url → Except Failure Text
  /-- Why the system does not let a file be read. -/
  refusesReading : Path → Option FileFault
  /-- Why the system does not let a file be written. -/
  refusesWriting : Path → Option FileFault

namespace World

/-- Files that may all be read and written, and no web. -/
def alone (s : Store) : World := ⟨s, fun url => .error (.fetch url), fun _ => none, fun _ => none⟩

/-- The text of a file. -/
def load (w : World) (p : Path) : Except Failure Text :=
  match w.refusesReading p with
  | some fault => .error (.file p fault)
  | none => w.files.load p

/-- The world after a text is written to a file. -/
def save (w : World) (p : Path) (t : Text) : Except Failure World :=
  match w.refusesWriting p with
  | some fault => .error (.file p fault)
  | none => (w.files.save p t).map fun files => { w with files }

/-- Reads linked sheets from files and from the web. -/
def reader (w : World) : Reader
  | .file path => w.load path
  | .remote url => w.web url

end World

/-- A world, and what has been reported in it. -/
structure Reported where
  world : World
  events : List Event

instance : Surroundings (StateM Reported) where
  readFile p := fun r => (r.world.load p, r)
  fetch url := fun r => (r.world.web url, r)
  writeFile p t := fun r =>
    match r.world.save p t with
    | .ok after => (.ok (), { r with world := after })
    | .error failure => (.error failure, r)
  report events := fun r => ((), { r with events := r.events ++ events })

/-- An action in a world. -/
abbrev Effect (α : Type) := Action (StateM Reported) α

namespace Effect

variable {α : Type}

/-- What comes of an effect, and the world after it with all that has been reported by then. -/
def after (x : Effect α) (r : Reported) : Except Failure α × Reported := StateT.run (ExceptT.run x) r

/-- What comes of an effect, and the world after it. -/
def on (x : Effect α) (w : World) : Except Failure α × World :=
  ((x.after ⟨w, []⟩).1, (x.after ⟨w, []⟩).2.world)

/-- What an effect reports. -/
def reports (x : Effect α) (w : World) : List Event := (x.after ⟨w, []⟩).2.events

end Effect

/-! ## What reading and writing report -/

namespace World

/-- What loading a file reports. -/
def loadEvents (w : World) (p : Path) : List Event :=
  match w.load p with
  | .error _ => []
  | .ok t => [.readFile (Text.byteSize t) p]

/-- What writing a file reports. -/
def saveEvents (w : World) (p : Path) (t : Text) : List Event :=
  match w.save p t with
  | .error _ => []
  | .ok _ => [.wroteFile (Text.byteSize t) p]

end World

end MailTemplate
