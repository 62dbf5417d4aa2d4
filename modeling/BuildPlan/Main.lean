import BuildPlan.CommandLine.Reader
import BuildPlan.CommandLine.Run

/-! # The program

Reads its files, answers one request and prints the result; errors go to the error output.
-/
namespace BuildPlan

def Refusal.message : Refusal → String
  | .unknownArgument => "unknown argument"
  | .unknownCommand => "unknown command"
  | .invalidValue => "a value is missing or is not one of those possible"
  | .rejectedValue => "a value does not read as what it should be"
  | .unexpectedValue => "a value is given to an argument that takes none"
  | .repeatedArgument => "an argument is given more than once"
  | .missingArgument => "a required argument is missing"
  | .missingCommand => "a command is missing"
  | .help | .helpInstead =>
    "bdep [--universe PATH] [--config PATH] [--json] COMMAND\n\n" ++
    "  build-deps PACKAGE... -b BRANCH   what has to be built before some packages\n" ++
    "  full-deps PACKAGE... -b BRANCH    everything that some packages need\n" ++
    "  completions SHELL                 completion of command lines"
  | .version => "bdep 0.1.0"

def Refusal.isWanted : Refusal → Bool
  | .help | .version => true
  | _ => false

def readContent (path : String) : IO FileContent := do
  match ← (IO.FS.readBinFile path).toBaseIO with
  | .ok content => return .bytes content
  | .error (.noFileOrDirectory ..) => return .missing
  | .error _ => return .unreadable

def fail (message : String) : IO UInt32 := do
  IO.eprintln message
  return 1

/-- Carries out a command line that has been understood. -/
def Invocation.perform (i : Invocation) : IO UInt32 := do
  match i.command with
  | .completions shell => fail ("there is no completion for " ++ shell.name)
  | .resolve request =>
    let chosen ← IO.getEnv "BDEP_HOME"
    match Home.ofSettings? chosen (← IO.getEnv "HOME") none with
    | none => fail "the home directory is not known"
    | some h =>
      let config ← readContent (i.configPath h).1
      let snapshot ← readContent (i.snapshotPath h)
      let files := fun path => if path == i.snapshotPath h then snapshot else config
      match i.answer request h files with
      | .ok text => do
        IO.print text
        return 0
      | .error e => fail ("Error: " ++ e.message)

end BuildPlan

open BuildPlan in
def main (args : List String) : IO UInt32 := do
  match Invocation.ofArgs args with
  | .error refusal =>
    if refusal.isWanted then do
      IO.println refusal.message
      return 0
    else do
      IO.eprintln refusal.message
      return 2
  | .ok i =>
    let usual ← IO.getEnv "BDEP_UNIVERSE"
    Invocation.perform { i with snapshot := i.snapshot <|> usual }
