import BuildPlan.Text.LowerCase
import BuildPlan.Universe.Index

/-! # Universes

A universe answers questions about its packages, each within a scope: what packages require, who
provides a capability, which binaries a source is built into, what a package is, and who may build
it. Branches go by their lower-case names.
-/
namespace BuildPlan

/-- How a name that is asked about is read. -/
inductive NameReading where
  /-- A source package, with the binaries built from it. -/
  | source
  /-- The binaries of exactly this name. -/
  | binary
  | either
deriving DecidableEq, Inhabited, Repr

namespace NameReading

def coversSource : NameReading → Bool
  | source | either => true
  | binary => false

def coversBinary : NameReading → Bool
  | binary | either => true
  | source => false

end NameReading

/-- What is known about a name: its newest package, and the architectures of its binaries. -/
structure Description where
  package : Package
  archs : ArchSet
deriving DecidableEq

abbrev Requirements := SetMap PackageName Capability
abbrev Providers := SetMap Capability PackageName
abbrev Descriptions := Std.ExtTreeMap PackageName Description

namespace BranchIndex

variable (index : BranchIndex)

def missingArch? (scope : Scope) : Option Arch :=
  if index.declaredArchs.isEmpty then none
  else scope.archs.toList.find? fun a => a != .noarch && !index.declaredArchs.contains a

/-- Whether a package of a name that is asked about contributes its requirements. -/
def contributes (reading : NameReading) (scope : Scope) (p : Package) : Bool :=
  if p.isSource then reading.coversSource && scope.dependencyType.includesSource
  else reading.coversBinary && scope.dependencyType.includesBinary && scope.admits p.arch

/-- What the packages behind a name require. -/
def requirementsOfName (reading : NameReading) (scope : Scope) (name : PackageName) :
    CapabilitySet :=
  let own := (index.named.values name).filter (contributes reading scope)
  let built :=
    if reading.coversSource && scope.dependencyType.includesBinary then
      index.binariesFrom name scope
    else []
  .ofList ((own ++ built).flatMap index.requirementsOfPackage)

def requirementsOf (names : PackageSet) (reading : NameReading) (scope : Scope) : Requirements :=
  .tabulate names (index.requirementsOfName reading scope)

/-- The packages that provide a capability: binaries, or the sources they were built from. -/
def providersOfCapability (scope : Scope) (asSource : Bool) (c : Capability) : PackageSet :=
  let admitted := (index.providing.values c).filter fun p => scope.admits p.arch
  .ofList (admitted.filterMap fun p => if asSource then index.owner? p else some p.name)

def providersOf (capabilities : CapabilitySet) (scope : Scope) (asSource : Bool) : Providers :=
  .tabulate capabilities (index.providersOfCapability scope asSource)

def binariesOf (sources : PackageSet) (scope : Scope) : PackageSet :=
  .ofList ((sources.toList.flatMap fun s => index.binariesFrom s scope).map (·.name))

def describeName? (scope : Scope) (asSource : Bool) (name : PackageName) : Option Description :=
  let packages := index.named.values name
  if asSource then
    (Package.newest? (packages.filter (·.isSource))).map fun p =>
      ⟨p, .ofList ((index.binariesFrom name scope).map (·.arch))⟩
  else
    let binaries := packages.filter fun p => !p.isSource && scope.admits p.arch
    (Package.newest? binaries).map fun p => ⟨p, .ofList (binaries.map (·.arch))⟩

def describe (names : PackageSet) (scope : Scope) (asSource : Bool) : Descriptions :=
  .ofList (names.toList.filterMap fun n =>
    (index.describeName? scope asSource n).map fun d => (n, d))

end BranchIndex

structure Universe where
  branches : Std.ExtTreeMap String BranchIndex

namespace Universe

/-- Indexes the branches of a snapshot; of two branches with one lower-case name the later one is
kept. -/
def ofSnapshot (skipDebuginfo : Bool) (s : Snapshot) : Except UniverseError Universe := do
  let entries ← s.branches.mapM fun b => do
    return (Text.lowerCase b.name, ← BranchIndex.ofSnapshot skipDebuginfo b)
  return ⟨.ofList entries⟩

variable (u : Universe)

def branch (name : String) : Except UniverseError BranchIndex :=
  match u.branches[name]? with
  | some index => return index
  | none => throw (.unknownBranch name)

/-- Refuses a scope with an unknown branch or with an architecture that the branch lacks. -/
def checkScope (scope : Scope) : Except UniverseError Unit := do
  match (← u.branch scope.branch).missingArch? scope with
  | some arch => throw (.unknownArch scope.branch arch.name)
  | none => return ()

def requirementsOf (names : PackageSet) (reading : NameReading) (scope : Scope) :
    Except UniverseError Requirements :=
  return (← u.branch scope.branch).requirementsOf names reading scope

def providersOf (capabilities : CapabilitySet) (scope : Scope) (asSource : Bool) :
    Except UniverseError Providers :=
  return (← u.branch scope.branch).providersOf capabilities scope asSource

def binariesOf (sources : PackageSet) (scope : Scope) : Except UniverseError PackageSet :=
  return (← u.branch scope.branch).binariesOf sources scope

def describe (names : PackageSet) (scope : Scope) (asSource : Bool) :
    Except UniverseError Descriptions :=
  return (← u.branch scope.branch).describe names scope asSource

/-- Who may build a package; nobody when nothing is recorded. -/
def aclOf (name : PackageName) (branch : String) : Except UniverseError (List String) :=
  return ((← u.branch branch).acl[name]?).getD []

def packageNames : PackageSet :=
  u.branches.toList.foldl (fun names (_, index) =>
    names ∪ .ofList (index.packages.map (·.name))) ∅

end Universe

end BuildPlan
