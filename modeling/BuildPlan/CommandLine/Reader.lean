import BuildPlan.CommandLine.Settings

/-! # Reading command lines

Arguments are taken one by one. A named argument has its value attached or in the argument that
follows; there, and for arguments without a name, the value is checked only when the next argument
has been recognized, so that an unknown argument is complained about first. After `--` nothing is a
name.
-/
namespace BuildPlan

/-- The argument that was read last and is not checked yet. -/
inductive Held where
  | nothing
  | awaiting (arg : NamedArg)
  | value (arg : NamedArg) (text : String)
  | word (text : String)
deriving DecidableEq

structure Reading where
  level : Level
  settings : Settings
  held : Held
deriving DecidableEq

namespace Reading

def start (level : Level) : Reading := ⟨level, {}, .nothing⟩

variable (r : Reading)

def acceptWord (text : String) : Except Refusal Settings :=
  if r.level = .completions && (Shell.ofName? text).isNone then throw .invalidValue
  else return { r.settings with words := r.settings.words ++ [text] }

def settle : Except Refusal Settings :=
  match r.held with
  | .nothing => return r.settings
  | .awaiting _ => throw .invalidValue
  | .value arg text => r.settings.give text arg
  | .word text => r.acceptWord text

def hold (held : Held) : Except Refusal Reading := do
  return { r with settings := ← r.settle, held }

def giveAttached (arg : NamedArg) (text : String) : Except Refusal Reading := do
  return { r with settings := ← (← r.settle).give text arg, held := .nothing }

def markArg (arg : NamedArg) : Except Refusal Reading := do
  return { r with settings := ← (← r.settle).mark arg, held := .nothing }

def hasRoom : Bool :=
  match r.level with
  | .program => false
  | .build | .full => true
  | .completions =>
    r.settings.words.isEmpty && match r.held with
      | .word _ => false
      | _ => true

/-- Reads an argument without a name. The name of a command, after two dashes, names none. -/
def readWord (trailing : Bool) (text : String) : Except Refusal Reading :=
  let namesCommand := text == "help" || (Level.ofCommand? text).isSome
  if r.hasRoom then r.hold (.word text)
  else if r.level = .program && !(trailing && namesCommand) then throw .unknownCommand
  else throw .unknownArgument

/-- Reads the text after two dashes, in which `=` ends the name. -/
def readLong (text : List Char) : Except Refusal Reading :=
  match r.level.ofLong? (text.takeWhile (· != '=')) with
  | none => throw .unknownArgument
  | some arg =>
    match text.dropWhile (· != '=') with
    | _ :: value =>
      if arg.takesValue then r.giveAttached arg (String.ofList value) else throw .unexpectedValue
    | [] => if arg.takesValue then r.hold (.awaiting arg) else r.markArg arg

/-- Reads the characters after one dash: names, up to one that takes a value. -/
def readShort (r : Reading) : List Char → Except Refusal Reading
  | [] => return r
  | c :: rest =>
    match r.level.ofShort? c with
    | none => throw .unknownArgument
    | some arg =>
      if arg.takesValue then
        match rest with
        | [] => r.hold (.awaiting arg)
        | '=' :: value => r.giveAttached arg (String.ofList value)
        | value => r.giveAttached arg (String.ofList value)
      else do readShort (← r.markArg arg) rest

def isAwaiting : Bool :=
  match r.held with
  | .awaiting _ => true
  | _ => false

def read (text : String) : Except Refusal Reading :=
  match text.toList, r.held with
  | '-' :: '-' :: name, _ => r.readLong name
  | '-' :: c :: names, _ => r.readShort (c :: names)
  | _, .awaiting arg => return { r with held := .value arg text }
  | _, _ => r.readWord false text

def readAll (r : Reading) : List String → Except Refusal Settings
  | [] => r.settle
  | "--" :: words => do (← words.foldlM (fun r text => r.readWord true text) r).settle
  | text :: rest => do readAll (← r.read text) rest

/-- Reads up to the command, which is given back with all that comes after it. -/
def readToCommand (r : Reading) : List String → Except Refusal (Reading × List String)
  | [] => return (r, [])
  | "--" :: words => do return (← words.foldlM (fun r text => r.readWord true text) r, [])
  | text :: rest =>
    if !r.isAwaiting && (text == "help" || (Level.ofCommand? text).isSome) then
      return (r, text :: rest)
    else do readToCommand (← r.read text) rest

end Reading

/-- What a call for help about some command gives. -/
def Refusal.ofHelp : List String → Refusal
  | [] => .help
  | [command] =>
    if command == "help" || (Level.ofCommand? command).isSome then .help else .unknownCommand
  | _ => .unknownCommand

namespace Invocation

/-- The command line in which settings before the command are overruled by those after it. -/
def ofSettings (before after : Settings) (command : Command) : Invocation where
  snapshot := after.snapshot <|> before.snapshot
  config := after.config <|> before.config
  json := after.json || before.json
  command := command

/-- What the arguments of the program mean. -/
def ofArgs (args : List String) : Except Refusal Invocation := do
  let (outer, rest) ← (Reading.start .program).readToCommand args
  match rest with
  | [] => throw (if (← outer.settle).isBlank then .helpInstead else .missingCommand)
  | name :: args =>
    match Level.ofCommand? name with
    | none => throw (.ofHelp args)
    | some level =>
      let settings ← (Reading.start level).readAll args
      let command ← settings.command level
      return ofSettings (← outer.settle) settings command

end Invocation

end BuildPlan
