import BuildPlan.Request

/-! # The command line

A command and its arguments, of which some are known by name and the others by where they stand.
Three named arguments belong to the program as a whole; they may stand before and after the command.
-/
namespace BuildPlan

inductive Shell where
  | bash
  | elvish
  | fish
  | powershell
  | zsh
deriving DecidableEq, Inhabited, Repr

namespace Shell

def all : List Shell := [bash, elvish, fish, powershell, zsh]

def name : Shell → String
  | bash => "bash"
  | elvish => "elvish"
  | fish => "fish"
  | powershell => "powershell"
  | zsh => "zsh"

def ofName? (s : String) : Option Shell := all.find? (·.name == s)

end Shell

inductive Command where
  | resolve (request : Request)
  | completions (shell : Shell)
deriving DecidableEq

structure Invocation where
  snapshot : Option String
  config : Option String
  json : Bool
  command : Command
deriving DecidableEq

/-- Why a command line gives no command. -/
inductive Refusal where
  | unknownArgument
  | unknownCommand
  /-- A value is missing, or it is an empty path or none of the words to choose from. -/
  | invalidValue
  /-- A value does not read as what it should be. -/
  | rejectedValue
  | unexpectedValue
  /-- An argument that may be given once is given again. -/
  | repeatedArgument
  | missingArgument
  | missingCommand
  | help
  /-- Help is due because nothing is asked for. -/
  | helpInstead
  | version
deriving DecidableEq, Repr

inductive NamedArg where
  | snapshot
  | config
  | json
  | branch
  | arch
  | dependencyType
  | depth
  | halfStep
  | leaf
  | finite
  | filterByPackage
  | filterBySource
  | help
  | version
deriving DecidableEq, Repr

namespace NamedArg

def long : NamedArg → String
  | snapshot => "universe"
  | config => "config"
  | json => "json"
  | branch => "branch"
  | arch => "arch"
  | dependencyType => "dptype"
  | depth => "depth"
  | halfStep => "half-step"
  | leaf => "leaf"
  | finite => "finite"
  | filterByPackage => "filter-by-package"
  | filterBySource => "filter-by-source"
  | help => "help"
  | version => "version"

def short? : NamedArg → Option Char
  | branch => some 'b'
  | arch => some 'a'
  | depth => some 'd'
  | help => some 'h'
  | version => some 'V'
  | _ => none

def takesValue : NamedArg → Bool
  | json | halfStep | finite | help | version => false
  | _ => true

end NamedArg

/-- Where on the command line an argument stands: before the command, or after which command. -/
inductive Level where
  | program
  | build
  | full
  | completions
deriving DecidableEq, Repr

namespace Level

def named : Level → List NamedArg
  | program => [.snapshot, .config, .json, .help, .version]
  | build =>
    [.branch, .arch, .dependencyType, .depth, .halfStep, .leaf, .finite, .filterByPackage,
      .filterBySource, .snapshot, .config, .json, .help]
  | full =>
    [.branch, .arch, .dependencyType, .leaf, .finite, .filterByPackage, .filterBySource, .snapshot,
      .config, .json, .help]
  | completions => [.snapshot, .config, .json, .help]

def ofLong? (level : Level) (name : List Char) : Option NamedArg :=
  level.named.find? fun a => a.long.toList == name

def ofShort? (level : Level) (c : Char) : Option NamedArg :=
  level.named.find? fun a => a.short? == some c

def ofCommand? : String → Option Level
  | "build-deps" => some build
  | "full-deps" => some full
  | "completions" => some completions
  | _ => none

end Level

end BuildPlan
