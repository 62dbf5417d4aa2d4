import BuildPlan.Error
import BuildPlan.Multimap
import BuildPlan.Snapshot

/-! # The index of a branch

The packages and facts of a branch, ready for look-ups by name. A binary belongs to the source
package whose archive it names; of several such sources the last one counts. Only binaries provide
capabilities, each of them its own name.
-/
namespace BuildPlan

structure BranchIndex where
  declaredArchs : ArchSet
  packages : List Package
  named : Multimap PackageName Package
  requirements : Multimap PackageHash Capability
  providing : Multimap Capability Package
  /-- The source package behind each archive. -/
  sources : Std.ExtTreeMap String PackageName
  builtFrom : Multimap PackageName Package
  acl : Std.ExtTreeMap PackageName (List String)

def firstRepeated? (seen : Std.ExtTreeSet PackageHash) : List PackageHash → Option PackageHash
  | [] => none
  | h :: rest => if seen.contains h then some h else firstRepeated? (seen.insert h) rest

namespace BranchIndex

/-- The packages that the index knows. -/
def keptPackages (skipDebuginfo : Bool) (b : BranchSnapshot) : List Package :=
  b.packages.filter fun p => !(skipDebuginfo && p.isDebuginfo)

def sourcesOf (packages : List Package) : Std.ExtTreeMap String PackageName :=
  .ofList ((packages.filter (·.isSource)).map fun p => (p.sourceRpm, p.name))

/-- The facts of one kind about the packages of the index, each with its package. -/
def factsOf (kind : DependencyKind) (packages : List Package) (dependencies : List Dependency) :
    List (Dependency × Package) :=
  let byHash : Std.ExtTreeMap PackageHash Package := .ofList (packages.map fun p => (p.hash, p))
  (dependencies.filter (·.kind == kind)).filterMap fun d => byHash[d.subject]?.map fun p => (d, p)

def ofPackages (packages : List Package) (b : BranchSnapshot) : BranchIndex :=
  let binaries := packages.filter (!·.isSource)
  let sources := sourcesOf packages
  let provided := (factsOf .provide packages b.dependencies).filter (!·.2.isSource)
  { declaredArchs := .ofList b.archs
    packages
    named := .ofPairs (packages.map fun p => (p.name, p))
    requirements := .ofPairs ((factsOf .require packages b.dependencies).map fun (d, p) =>
      (p.hash, d.name))
    providing := .ofPairs (binaries.map (fun p => (.ofPackage p.name, p)) ++
      provided.map fun (d, p) => (d.name, p))
    sources
    builtFrom := .ofPairs (binaries.filterMap fun p => sources[p.sourceRpm]?.map fun s => (s, p))
    acl := b.acl }

def ofSnapshot (skipDebuginfo : Bool) (b : BranchSnapshot) : Except UniverseError BranchIndex :=
  match firstRepeated? ∅ (b.packages.map (·.hash)) with
  | some hash =>
    throw (.malformed ("duplicate package hash " ++ hash.text ++ " in branch " ++ b.name))
  | none => return ofPackages (keptPackages skipDebuginfo b) b

variable (index : BranchIndex)

def requirementsOfPackage (p : Package) : List Capability := index.requirements.values p.hash

/-- The source package that a binary was built from. -/
def owner? (p : Package) : Option PackageName := index.sources[p.sourceRpm]?

/-- The binaries built from a source package that a scope admits. -/
def binariesFrom (source : PackageName) (scope : Scope) : List Package :=
  (index.builtFrom.values source).filter fun p => scope.admits p.arch

end BranchIndex

end BuildPlan
