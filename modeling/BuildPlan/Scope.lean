import BuildPlan.Arch
import BuildPlan.Name

/-! # Scopes

A scope says which part of a universe a resolution sees: one branch, the packages of some
architectures, and the side of each package whose requirements are followed.
-/
namespace BuildPlan

/-- Which requirements are followed: those of source packages to be built, those of binary packages
to be installed, or both. -/
inductive DependencyType where
  | source
  | binary
  | both
deriving DecidableEq, Inhabited, Repr

namespace DependencyType

def includesSource : DependencyType → Bool
  | source | both => true
  | binary => false

def includesBinary : DependencyType → Bool
  | binary | both => true
  | source => false

def name : DependencyType → String
  | source => "source"
  | binary => "binary"
  | both => "both"

def ofName? : String → Option DependencyType
  | "source" => some source
  | "binary" => some binary
  | "both" => some both
  | _ => none

def ofText? (s : String) : Option DependencyType :=
  match Text.lowerCase s with
  | "src" => some source
  | "bin" => some binary
  | lower => ofName? lower

end DependencyType

structure Scope where
  branch : String
  archs : ArchSet
  dependencyType : DependencyType
deriving DecidableEq

namespace Scope

/-- The scope of some binary architectures: `noarch` is always among them, `src` never. -/
def ofArchs (branch : String) (archs : List Arch) (dependencyType : DependencyType) : Scope where
  branch := branch
  archs := .ofList (.noarch :: archs.filter Arch.isBinary)
  dependencyType := dependencyType

/-- Source packages are seen in every scope, whatever its architectures. -/
def admits (s : Scope) (a : Arch) : Bool := a == .src || s.archs.contains a

def withDependencyType (s : Scope) (dependencyType : DependencyType) : Scope :=
  { s with dependencyType := dependencyType }

/-- `branch [arch,…] (type)` -/
def text (s : Scope) : String :=
  let archs := ",".intercalate (s.archs.toList.map Arch.name)
  s.branch ++ " [" ++ archs ++ "] (" ++ s.dependencyType.name ++ ")"

end Scope

end BuildPlan
