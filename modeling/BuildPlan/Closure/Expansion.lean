import BuildPlan.Closure

/-! # Growing closures

A build closure grows through the build requirements of source packages, down to a given level. A
full closure grows through binary packages until nothing new is found. A half step ends a build
closure at its third level, where only packages stay that the sources of the second level need
themselves, and not only the binaries built from them.
-/
namespace BuildPlan

/-- How a closure grows. -/
structure Expansion where
  scope : Scope
  seedReading : NameReading
  /-- How all other members are read. -/
  reading : NameReading
  /-- Whether providers stand for the source packages that they were built from. -/
  asSource : Bool
  halfStep : Bool

namespace Expansion

def build (scope : Scope) (halfStep : Bool) : Expansion := ⟨scope, .source, .source, true, halfStep⟩

def full (scope : Scope) : Expansion := ⟨scope, .either, .binary, false, false⟩

variable (x : Expansion)

/-- The sources that provide what the source packages of the frontier require themselves, whatever
the dependency type of the scope. -/
def sourceProviders (frontier : PackageSet) : Program PackageSet := do
  let scope := x.scope.withDependencyType .source
  let requirements ← Program.requirementsOf frontier .source scope
  return SetMap.range (← Program.providersOf (SetMap.range requirements) scope true)

/-- What a round finds; the last round of a half step prunes it. -/
def candidates (reading : NameReading) (last : Bool) (frontier : PackageSet) (c : Closure) :
    Program (Closure × PackageSet) := do
  let (c, found) ← c.discover x.scope reading x.asSource frontier
  if x.halfStep && last then
    let wanted ← x.sourceProviders frontier
    return (c, found.filter wanted.contains)
  else return (c, found)

/-- Grows a closure from its newest members, for some rounds or until nothing new is found. -/
def grow : Nat → NameReading → Nat → PackageSet → Closure → Program Closure
  | 0, _, _, _, c => return c
  | rounds + 1, reading, level, frontier, c => do
    if frontier.isEmpty then return c
    let (c, found) ← x.candidates reading (rounds == 0) frontier c
    let fresh := c.fresh found
    grow rounds x.reading (level + 1) fresh (c.absorb fresh level)

def closure (rounds : Nat) (seeds : PackageSet) : Program Closure :=
  x.grow rounds x.seedReading 2 seeds (.ofSeeds seeds)

end Expansion

end BuildPlan
