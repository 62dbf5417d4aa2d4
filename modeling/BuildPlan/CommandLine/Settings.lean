import BuildPlan.CommandLine.Basic
import BuildPlan.Text

/-! # Settings

What the arguments of one level have given so far. Most values may be given once; the lists grow
with every argument, which may hold several items with commas between them.
-/
namespace BuildPlan

structure Settings where
  snapshot : Option String := none
  config : Option String := none
  json : Bool := false
  words : List String := []
  branch : Option String := none
  archs : List String := []
  dependencyType : Option DependencyType := none
  depth : Option UInt32 := none
  halfStep : Bool := false
  leaf : Option String := none
  finite : Bool := false
  filterByPackage : List String := []
  filterBySource : Option String := none
deriving DecidableEq

namespace Settings

def once {α : Type} (earlier : Option α) (read : String → Except Refusal α) (text : String) :
    Except Refusal (Option α) :=
  if earlier.isSome then throw .repeatedArgument else some <$> read text

def readPath (text : String) : Except Refusal String :=
  if text.isEmpty then throw .invalidValue else return text

/-- A number of 32 bits, perhaps with a sign. -/
def readDepth (text : String) : Except Refusal UInt32 :=
  let (negative, digits) := match text.toList with
    | '-' :: rest => (true, rest)
    | '+' :: rest => (false, rest)
    | cs => (false, cs)
  let value := Text.decimalValue digits
  if digits.isEmpty || !digits.all Char.isDigit || UInt32.size ≤ value ||
      (negative && value != 0) then
    throw .rejectedValue
  else return UInt32.ofNat value

def readDependencyType (text : String) : Except Refusal DependencyType :=
  match DependencyType.ofText? text with
  | some t => return t
  | none => throw .rejectedValue

def items (text : String) : List String := Text.split ',' text

variable (s : Settings)

def give (text : String) : NamedArg → Except Refusal Settings
  | .snapshot => return { s with snapshot := ← once s.snapshot readPath text }
  | .config => return { s with config := ← once s.config readPath text }
  | .branch => return { s with branch := ← once s.branch pure text }
  | .arch => return { s with archs := s.archs ++ items text }
  | .dependencyType =>
    return { s with dependencyType := ← once s.dependencyType readDependencyType text }
  | .depth => return { s with depth := ← once s.depth readDepth text }
  | .leaf => return { s with leaf := ← once s.leaf pure text }
  | .filterByPackage => return { s with filterByPackage := s.filterByPackage ++ items text }
  | .filterBySource => return { s with filterBySource := ← once s.filterBySource pure text }
  | _ => throw .unexpectedValue

def mark : NamedArg → Except Refusal Settings
  | .json => if s.json then throw .repeatedArgument else return { s with json := true }
  | .halfStep => if s.halfStep then throw .repeatedArgument else return { s with halfStep := true }
  | .finite => if s.finite then throw .repeatedArgument else return { s with finite := true }
  | .help => throw .help
  | .version => throw .version
  | _ => throw .invalidValue

/-- Whether no argument of the whole program has been given. -/
def isBlank : Bool := s.snapshot.isNone && s.config.isNone && !s.json

def scopeRequest (branch : String) : ScopeRequest :=
  ⟨branch, s.archs, s.dependencyType.getD .both⟩

def filterRequest : FilterRequest := ⟨s.leaf, s.finite, s.filterByPackage, s.filterBySource⟩

def request (goal : Goal) : Except Refusal Request :=
  match s.words, s.branch with
  | [], _ | _, none => throw .missingArgument
  | seeds, some branch => return ⟨goal, seeds, s.scopeRequest branch, none, s.filterRequest⟩

def command : Level → Except Refusal Command
  | .program => throw .missingCommand
  | .build => Command.resolve <$> s.request (.build (s.depth.getD 1) s.halfStep)
  | .full => Command.resolve <$> s.request .full
  | .completions =>
    match s.words.head?.bind Shell.ofName? with
    | some shell => return .completions shell
    | none => throw .missingArgument

end Settings

end BuildPlan
