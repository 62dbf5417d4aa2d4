import BuildPlan.Graph.Order
import BuildPlan.Session.Program

/-! # Filters

Filters show a part of a result: what a leaf requires, what nothing else in the result requires, or
what requires something that certain binaries provide. Each filter looks at the whole result, and
what they keep is intersected.
-/
namespace BuildPlan

structure FilterRequest where
  /-- Keep what this package requires, however indirectly. -/
  leaf : Option String
  /-- Keep what no other package of the result requires. -/
  finitePackage : Bool
  /-- Keep what requires something that one of these binaries provides. -/
  filterByPackage : List String
  /-- Keep what requires something that a binary of this source provides. -/
  filterBySource : Option String
deriving DecidableEq

namespace FilterRequest

def none : FilterRequest := ⟨.none, false, [], .none⟩

end FilterRequest

/-- The binaries that a package must require something from. -/
inductive RequirementFilter where
  | packages (names : PackageSet)
  | builtFrom (source : PackageName)
deriving DecidableEq

structure Filters where
  leaf : Option PackageName
  finitePackage : Bool
  requirement : Option RequirementFilter
deriving DecidableEq

namespace Filters

def isActive (f : Filters) : Bool := f.leaf.isSome || f.finitePackage || f.requirement.isSome

end Filters

namespace FilterRequest

/-- The filters that are asked for. Blank names count as not given; the two requirement filters
exclude each other. -/
def validate (r : FilterRequest) : Except RequestError Filters := do
  let packages : PackageSet := .ofList (r.filterByPackage.filterMap PackageName.ofText?)
  let requirement ←
    match packages.isEmpty, r.filterBySource.bind PackageName.ofText? with
    | false, some _ => throw .conflictingFilters
    | false, .none => pure (some (.packages packages))
    | true, some source => pure (some (.builtFrom source))
    | true, .none => pure .none
  return ⟨r.leaf.bind PackageName.ofText?, r.finitePackage, requirement⟩

end FilterRequest

/-- A leaf with everything that it requires and the other packages of its cycle. -/
def leafScope (g : Graph) (o : BuildOrder) (leaf : PackageName) :
    Except RequestError PackageSet :=
  if g.contains leaf then return g.downward leaf ∪ .ofList (o.cycleMembers leaf)
  else throw (.leafNotInClosure leaf)

/-- The packages of a set that no other package of the set requires. -/
def finitePackages (g : Graph) (emitted : PackageSet) : PackageSet :=
  emitted.filter fun n => !(g.requiredBy n).any emitted.contains

namespace RequirementFilter

def binaries (scope : Scope) : RequirementFilter → Program PackageSet
  | packages names => return names
  | builtFrom source => Program.binariesOf (.ofList [source]) scope

/-- The candidates that require something that the binaries of the filter provide. -/
def matching (f : RequirementFilter) (scope : Scope) (reading : NameReading)
    (candidates : PackageSet) : Program PackageSet := do
  let binaries ← f.binaries scope
  if binaries.isEmpty then return ∅
  let requirements ← Program.requirementsOf candidates reading scope
  let providers ← Program.providersOf (SetMap.range requirements) scope false
  return candidates.filter fun n =>
    (SetMap.values requirements n).any fun capability =>
      (SetMap.values providers capability).any binaries.contains

end RequirementFilter

namespace Filters

def keptByLeaf (f : Filters) (g : Graph) (o : BuildOrder) (emitted : PackageSet) :
    Program PackageSet :=
  match f.leaf with
  | some leaf => Program.ofRequest (leafScope g o leaf)
  | none => return emitted

def keptByRequirement (f : Filters) (scope : Scope) (reading : NameReading)
    (emitted : PackageSet) : Program PackageSet :=
  match f.requirement with
  | some requirement => requirement.matching scope reading emitted
  | none => return emitted

/-- The packages of a result that pass all filters. -/
def kept (f : Filters) (scope : Scope) (reading : NameReading) (g : Graph) (o : BuildOrder)
    (emitted : PackageSet) : Program PackageSet := do
  let byLeaf ← f.keptByLeaf g o emitted
  let byFinite := if f.finitePackage then finitePackages g emitted else emitted
  let byRequirement ← f.keptByRequirement scope reading emitted
  return emitted.filter fun n =>
    byLeaf.contains n && byFinite.contains n && byRequirement.contains n

end Filters

end BuildPlan
