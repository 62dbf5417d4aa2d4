import BuildPlan.Request
import BuildPlan.Snapshot.Record

/-! # Requests as JSON

Scopes, filters and requests in the form in which they are exchanged. A part with a default may be
left out; a deadline is written as seconds and nanoseconds.
-/
namespace BuildPlan

open Json

namespace DependencyType

def ofJson? (j : Json) : Option DependencyType := j.variant?.bind ofName?

def toJson (t : DependencyType) : Json := .ofString t.name

end DependencyType

namespace Scope

/-- A scope as it is written, with no architecture added or left out. -/
def ofJson? (j : Json) : Option Scope := do
  let [branch, archs, dependencyType] ← j.parts? ["branch", "archs", "package_type"] | none
  return {
    branch := ← required? string? branch
    archs := .ofList (← required? (list? Arch.ofJson?) archs)
    dependencyType := ← required? DependencyType.ofJson? dependencyType }

def toJson (s : Scope) : Json :=
  .ofFields [("branch", .ofString s.branch), ("archs", .ofList Arch.toJson s.archs.toList),
    ("package_type", s.dependencyType.toJson)]

end Scope

namespace Span

/-- A span has exactly two fields. -/
def ofJson? (j : Json) : Option Span := do
  let [seconds, nanos] ← j.parts? ["secs", "nanos"] | none
  if let .object fields := j then guard (fields.length = 2)
  ofParts? (← required? uint64? seconds).toNat (← required? uint32? nanos).toNat

def toJson (s : Span) : Json :=
  .ofFields [("secs", .ofNat s.seconds), ("nanos", .ofNat s.nanos)]

end Span

namespace ScopeRequest

def ofJson? (j : Json) : Option ScopeRequest := do
  let [branch, archs, dependencyType] ← j.parts? ["branch", "archs", "dependency_type"] | none
  return {
    branch := ← default? "" string? branch
    archs := ← default? [] (list? string?) archs
    dependencyType := ← default? .both DependencyType.ofJson? dependencyType }

def toJson (s : ScopeRequest) : Json :=
  .ofFields [("branch", .ofString s.branch), ("archs", .ofList Json.ofString s.archs),
    ("dependency_type", s.dependencyType.toJson)]

end ScopeRequest

namespace FilterRequest

def ofJson? (j : Json) : Option FilterRequest := do
  let [leaf, finitePackage, filterByPackage, filterBySource] ←
    j.parts? ["leaf", "finite_package", "filter_by_package", "filter_by_source"] | failure
  return {
    leaf := ← optional? string? leaf
    finitePackage := ← default? false bool? finitePackage
    filterByPackage := ← default? [] (list? string?) filterByPackage
    filterBySource := ← optional? string? filterBySource }

def toJson (f : FilterRequest) : Json :=
  .ofFields [("leaf", .ofOption Json.ofString f.leaf), ("finite_package", .bool f.finitePackage),
    ("filter_by_package", .ofList Json.ofString f.filterByPackage),
    ("filter_by_source", .ofOption Json.ofString f.filterBySource)]

end FilterRequest

namespace Request

def ofBuildJson? (j : Json) : Option Request := do
  let [seeds, scope, depth, halfStep, deadline, filters] ←
    j.parts? ["seeds", "scope", "depth", "half_step", "deadline", "filters"] | none
  return {
    seeds := ← required? (list? string?) seeds
    scope := ← required? ScopeRequest.ofJson? scope
    goal := .build (← required? uint32? depth) (← required? bool? halfStep)
    deadline := ← optional? Span.ofJson? deadline
    filters := ← required? FilterRequest.ofJson? filters }

def ofFullJson? (j : Json) : Option Request := do
  let [seeds, scope, deadline, filters] ←
    j.parts? ["seeds", "scope", "deadline", "filters"] | none
  return {
    seeds := ← required? (list? string?) seeds
    scope := ← required? ScopeRequest.ofJson? scope
    goal := .full
    deadline := ← optional? Span.ofJson? deadline
    filters := ← required? FilterRequest.ofJson? filters }

def toJson (r : Request) : Json :=
  let goal := match r.goal with
    | .build depth halfStep =>
      [("depth", .ofNat depth.toNat), ("half_step", .bool halfStep)]
    | .full => []
  .ofFields ([("seeds", .ofList Json.ofString r.seeds), ("scope", r.scope.toJson)] ++ goal ++
    [("deadline", .ofOption Span.toJson r.deadline), ("filters", r.filters.toJson)])

end Request

end BuildPlan
