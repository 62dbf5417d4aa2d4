import Std.Data.ExtTreeMap
import BuildPlan.Name
import BuildPlan.Scope
import BuildPlan.Time.Timestamp

/-! # Snapshots

A package is one build of a source or binary package, known by its hash. A binary points at the
source it was built from by the name of the source archive. Dependencies tie a package to what it
requires and provides; their version constraints are carried along and never solved. A snapshot
holds all of them, branch by branch, as they are stored.
-/
namespace BuildPlan

structure PackageHash where
  word : UInt64
deriving DecidableEq, Inhabited, Repr

namespace PackageHash

instance : Ord PackageHash := ⟨compareOn word⟩

instance : Std.TransOrd PackageHash := inferInstanceAs (Std.TransCmp (compareOn word))

instance : Std.LawfulEqOrd PackageHash where
  eq_of_compare {a b} h := by
    cases a; cases b
    exact congrArg mk (Std.LawfulEqOrd.eq_of_compare h)

def text (h : PackageHash) : String := toString h.word.toNat

end PackageHash

structure Package where
  hash : PackageHash
  name : PackageName
  version : String
  release : String
  epoch : UInt32
  serial : UInt32
  arch : Arch
  isSource : Bool
  /-- The file name of the source archive, for a source package its own. -/
  sourceRpm : String
  buildTime : Timestamp
deriving DecidableEq

/-- `[epoch:]version-release` -/
def evrText (epoch : UInt32) (version release : String) : String :=
  let evr := version ++ "-" ++ release
  if epoch = 0 then evr else toString epoch.toNat ++ ":" ++ evr

namespace Package

def evr (p : Package) : String := evrText p.epoch p.version p.release

/-- Whether the package is a binary that carries debug symbols only. -/
def isDebuginfo (p : Package) : Bool :=
  !p.isSource && "-debuginfo".toList.isSuffixOf p.name.text.toList

/-- Whether the package was built after another one; the hash decides between builds of one
moment. -/
def isNewerThan (p q : Package) : Bool :=
  (compare p.buildTime q.buildTime).then (compare p.hash q.hash) == .gt

/-- The package built last. -/
def newest? : List Package → Option Package
  | [] => none
  | p :: rest =>
    match newest? rest with
    | some q => some (if q.isNewerThan p then q else p)
    | none => some p

end Package

inductive DependencyKind where
  | require
  | provide
  | conflict
  | obsolete
deriving DecidableEq, Inhabited, Repr

namespace DependencyKind

def all : List DependencyKind := [require, provide, conflict, obsolete]

def name : DependencyKind → String
  | require => "require"
  | provide => "provide"
  | conflict => "conflict"
  | obsolete => "obsolete"

def ofName? (s : String) : Option DependencyKind := all.find? (·.name == s)

end DependencyKind

structure Dependency where
  subject : PackageHash
  name : Capability
  /-- The version constraint, empty when there is none. -/
  version : String
  flags : UInt32
  kind : DependencyKind
deriving DecidableEq

structure BranchSnapshot where
  name : String
  /-- The binary architectures of the branch; none means any. -/
  archs : List Arch
  packages : List Package
  dependencies : List Dependency
  acl : Std.ExtTreeMap PackageName (List String)

/-- A branch that holds nothing yet. -/
def BranchSnapshot.empty (name : String) : BranchSnapshot := ⟨name, [], [], [], ∅⟩

structure Snapshot where
  branches : List BranchSnapshot

end BuildPlan
