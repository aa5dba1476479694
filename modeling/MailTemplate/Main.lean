import MailTemplate.CommandLine

/-!
# The program

Runs a template in the surroundings that the system is: files are those of the system, there is no web, and what is
reported goes to the output. All decisions are made by the library.
-/
namespace MailTemplate.Program

/-- The fault that the system reports. -/
def faultOf : IO.Error → FileFault
  | .noFileOrDirectory .. => .notFound
  | .inappropriateType .. => .isDirectory
  | .invalidArgument .. => .invalidInput
  | _ => .notDirectory

/-- Does something with the name of a file; no file is found by a name that is no text. -/
def withName {α : Type} (p : Path) (act : String → IO (Except FileFault α)) : IO (Except Failure α) := do
  match String.fromUTF8? ⟨p.toArray⟩ with
  | none => return .error (.file p .notFound)
  | some name =>
    try
      return (← act name).mapError (.file p)
    catch e => return .error (.file p (faultOf e))

def readText (name : String) : IO (Except FileFault Text) := do
  match String.fromUTF8? (← IO.FS.readBinFile name) with
  | none => return .error .invalidData
  | some t => return .ok t.toList

instance : Surroundings (ReaderT LogLevel IO) where
  readFile p := withName p readText
  fetch url := return .error (.fetch url)
  writeFile p t := withName p fun name => do
    IO.FS.writeFile name (String.ofList t)
    return .ok ()
  report events := do
    for (l, message) in messages (← read) events do
      IO.println (l.name ++ " " ++ message)

/-- Runs a template from end to end. -/
def run (c : RunConfig) (level : LogLevel) : IO (Except Failure Unit) :=
  ReaderT.run (ExceptT.run c.perform) level

def usage : String :=
  "Usage: mail-template [-d | --debug] [--base-url <URL>] [INPUT] [OUTPUT]"

end MailTemplate.Program

open MailTemplate in
def main (args : List String) : IO UInt32 := do
  match Request.ofArgs (args.map String.toList) with
  | .error e =>
    IO.eprintln e.message
    return 2
  | .ok .help =>
    IO.println Program.usage
    return 0
  | .ok .version =>
    IO.println "mail-template 0.1.0"
    return 0
  | .ok (.run a) =>
    match ← Program.run a.config (if a.debug then .debug else .info) with
    | .ok () => return 0
    | .error f =>
      IO.eprintln (a.config.failureReport f)
      return 1
