import BuildPlan.Universe

/-! # Calls

The questions that a resolution puts to a universe, and the type of the answer to each. A world
answers them too, each after some time, and its answer may depend on the calls made before; a
universe is a world that answers at once.
-/
namespace BuildPlan

inductive Call where
  | checkScope (scope : Scope)
  | requirementsOf (names : PackageSet) (reading : NameReading) (scope : Scope)
  | providersOf (capabilities : CapabilitySet) (scope : Scope) (asSource : Bool)
  | binariesOf (sources : PackageSet) (scope : Scope)
  | describe (names : PackageSet) (scope : Scope) (asSource : Bool)
  | aclOf (name : PackageName) (branch : String)
deriving DecidableEq

inductive CallKind where
  | checkScope
  | requirementsOf
  | providersOf
  | binariesOf
  | describe
  | aclOf
deriving DecidableEq

namespace Call

abbrev Answer : Call → Type
  | checkScope _ => Unit
  | requirementsOf _ _ _ => Requirements
  | providersOf _ _ _ => Providers
  | binariesOf _ _ => PackageSet
  | describe _ _ _ => Descriptions
  | aclOf _ _ => List String

def kind : Call → CallKind
  | checkScope _ => .checkScope
  | requirementsOf _ _ _ => .requirementsOf
  | providersOf _ _ _ => .providersOf
  | binariesOf _ _ => .binariesOf
  | describe _ _ _ => .describe
  | aclOf _ _ => .aclOf

/-- What it means for a resolution that a call fails. Only the check of the scope can blame the
caller. -/
def failure : Call → UniverseError → ResolveError
  | checkScope _, error => .ofScopeError error
  | _, error => .accessor error

end Call

def Universe.answer (u : Universe) : (c : Call) → Except UniverseError c.Answer
  | .checkScope scope => u.checkScope scope
  | .requirementsOf names reading scope => u.requirementsOf names reading scope
  | .providersOf capabilities scope asSource => u.providersOf capabilities scope asSource
  | .binariesOf sources scope => u.binariesOf sources scope
  | .describe names scope asSource => u.describe names scope asSource
  | .aclOf name branch => u.aclOf name branch

structure Response (α : Type) where
  /-- How long the answer takes, in nanoseconds. -/
  delay : Nat
  outcome : Except UniverseError α

/-- The response to a call, given the calls made before it with the last one first. -/
def World := (past : List Call) → (call : Call) → Response call.Answer

def Universe.world (u : Universe) : World := fun _ call => ⟨0, u.answer call⟩

end BuildPlan
