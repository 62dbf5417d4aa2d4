import BuildPlan.Config
import BuildPlan.Filter

/-! # Requests

What a caller asks for, as the caller writes it, and what it means once it has been checked.
-/
namespace BuildPlan

structure ScopeRequest where
  branch : String
  /-- The names of architectures; none means those of the branch. -/
  archs : List String
  dependencyType : DependencyType
deriving DecidableEq

inductive Goal where
  /-- What has to be built before the seeds, down to a depth at which the seeds are 1. A half step
  goes to depth 3 whatever the depth says. -/
  | build (depth : UInt32) (halfStep : Bool)
  /-- Everything that the seeds need, however indirectly. -/
  | full
deriving DecidableEq

structure Request where
  goal : Goal
  seeds : List String
  scope : ScopeRequest
  deadline : Option Span
  filters : FilterRequest
deriving DecidableEq

structure CheckedRequest where
  goal : Goal
  seeds : PackageSet
  scope : Scope
  filters : Filters
deriving DecidableEq

namespace Request

def checkGoal (config : Config) (r : Request) : Except RequestError Unit :=
  match r.goal with
  | .build depth _ => config.checkDepth depth
  | .full => return ()

def seedSet (r : Request) : PackageSet := .ofList (r.seeds.filterMap PackageName.ofText?)

/-- Checks the depth, the seeds, the filters and the scope, in this order. -/
def check (config : Config) (r : Request) : Except RequestError CheckedRequest := do
  r.checkGoal config
  if r.seedSet.isEmpty then throw .noSeeds
  let filters ← r.filters.validate
  let scope ← config.resolveScope r.scope.branch r.scope.archs r.scope.dependencyType
  return ⟨r.goal, r.seedSet, scope, filters⟩

end Request

end BuildPlan
