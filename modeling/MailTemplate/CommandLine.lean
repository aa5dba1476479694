import MailTemplate.Run

/-!
# The command line

Two flags, one option, and up to two paths. The arguments are read from left to right, and the first one that is wrong,
or that asks for help, decides.
-/
namespace MailTemplate

/-- What is wrong with a command line. -/
inductive UsageError where
  | unknownFlag (arg : Text)
  | unexpectedValue (arg : Text)
  | missingValue
  | notAUrl (value : Text) (e : UrlError)
  | repeated (name : Text)
  | emptyPath
  | tooManyPaths (arg : Text)
  deriving Repr, DecidableEq

def UsageError.message : UsageError → String
  | unknownFlag arg => "error: unexpected argument " ++ shown arg ++ " found"
  | unexpectedValue arg => "error: unexpected value in " ++ shown arg
  | missingValue => "error: a value is required for --base-url <URL>"
  | notAUrl value e => "error: invalid value " ++ shown value ++ " for --base-url <URL>: " ++ e.describe
  | repeated name => "error: the argument " ++ shown name ++ " cannot be used multiple times"
  | emptyPath => "error: a path may not be empty"
  | tooManyPaths arg => "error: unexpected argument " ++ shown arg ++ " found"

/-- The arguments that have been read. -/
structure Arguments where
  debug : Bool
  baseUrl : Option Url
  paths : List Path
  deriving Repr, DecidableEq

/-- What a command line asks for. -/
inductive Request where
  | run (a : Arguments)
  | help
  | version
  deriving Repr, DecidableEq

namespace Arguments

def none : Arguments := ⟨false, .none, []⟩

def addDebug (a : Arguments) : Except UsageError Arguments :=
  if a.debug then .error (.repeated "--debug".toList) else .ok { a with debug := true }

def addBaseUrl (a : Arguments) (value : Text) : Except UsageError Arguments :=
  match UrlReading.web.parse value with
  | .error e => .error (.notAUrl value e)
  | .ok url => if a.baseUrl.isSome then .error (.repeated "--base-url".toList) else .ok { a with baseUrl := some url }

def addPath (a : Arguments) (arg : Text) : Except UsageError Arguments :=
  if 2 ≤ a.paths.length then .error (.tooManyPaths arg)
  else if arg = [] then .error .emptyPath
  else .ok { a with paths := a.paths ++ [Text.bytes arg] }

/-- The run that the arguments ask for. -/
def config (a : Arguments) : RunConfig :=
  let base := RunConfig.jelly
  { base with
    input := (a.paths[0]?).getD base.input
    output := (a.paths[1]?).getD base.output
    settings := { base.settings with baseUrl := a.baseUrl } }

end Arguments

namespace Request

/-- Reads flags of one letter, written together after one dash. -/
def readLetters (a : Arguments) : Text → Except UsageError (Arguments ⊕ Request)
  | [] => .ok (.inl a)
  | 'd' :: more => do readLetters (← a.addDebug) more
  | 'h' :: _ => .ok (.inr .help)
  | 'V' :: _ => .ok (.inr .version)
  | c :: _ => .error (.unknownFlag ['-', c])

/-- Reads arguments after `--`, all of which are paths. -/
def readPaths (a : Arguments) : List Text → Except UsageError Request
  | [] => .ok (.run a)
  | p :: more => do readPaths (← a.addPath p) more

/-- The name of a flag of several letters, and the value after its `=`, if it has one. -/
def cutFlag (arg : Text) : Text × Option Text :=
  match Text.cut? ['='] arg with
  | none => (arg, none)
  | some (name, value) => (name, some value)

/-- Reads arguments after those that have been read. -/
def read (a : Arguments) : List Text → Except UsageError Request
  | [] => .ok (.run a)
  | arg :: more =>
    let (name, value) := cutFlag arg
    if arg = "--".toList then readPaths a more
    else if name = "--base-url".toList then
      match value, more with
      | some v, more => do read (← a.addBaseUrl v) more
      | none, [] => .error .missingValue
      | none, v :: more =>
        if v.head? = some '-' ∧ v ≠ ['-'] then .error .missingValue
        else do read (← a.addBaseUrl v) more
    else if name = "--debug".toList ∨ name = "--help".toList ∨ name = "--version".toList then
      if value.isSome then .error (.unexpectedValue arg)
      else if name = "--help".toList then .ok .help
      else if name = "--version".toList then .ok .version
      else do read (← a.addDebug) more
    else if "--".toList.isPrefixOf arg then .error (.unknownFlag arg)
    else if arg.head? = some '-' ∧ arg ≠ ['-'] then do
      match ← readLetters a (arg.drop 1) with
      | .inl a => read a more
      | .inr request => .ok request
    else do read (← a.addPath arg) more

/-- Reads a command line. -/
def ofArgs (args : List Text) : Except UsageError Request := read .none args

end Request

/-- What a run that failed reports on the command line. -/
def RunConfig.failureReport (c : RunConfig) (f : Failure) : String :=
  "Error: failed to inline " ++ String.ofList c.input.shown ++ " into " ++ String.ofList c.output.shown ++ "\n\nCaused by:\n    " ++
    f.message

/-- How a command line ends: its exit code, what it reports as an error, and the files afterwards. -/
structure Outcome where
  code : Nat
  report : String
  store : Store

/-- Runs a command line on a store. -/
def execute (args : List Text) (s : Store) : Outcome :=
  match Request.ofArgs args with
  | .error e => ⟨2, e.message, s⟩
  | .ok .help | .ok .version => ⟨0, "", s⟩
  | .ok (.run a) =>
    match a.config.run s with
    | .error f => ⟨1, a.config.failureReport f, s⟩
    | .ok s => ⟨0, "", s⟩

end MailTemplate
