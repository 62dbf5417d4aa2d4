import BuildPlan.Graph.Table
import BuildPlan.Session.Program

/-! # Closures

A closure holds the packages found by a resolution, each with the level at which it was found first,
and the facts learnt about them on the way. The seeds are its first level. Each further level holds
the packages that provide what the newest members require.
-/
namespace BuildPlan

structure Closure where
  seeds : PackageSet
  levels : Std.ExtTreeMap PackageName Nat
  requirements : Requirements
  /-- The members whose requirements have been asked for. -/
  expanded : PackageSet
  providers : Providers
  /-- The capabilities whose providers have been asked for. -/
  queried : CapabilitySet

namespace Closure

def ofSeeds (seeds : PackageSet) : Closure where
  seeds := seeds
  levels := .ofList (seeds.toList.map fun n => (n, 1))
  requirements := ∅
  expanded := ∅
  providers := ∅
  queried := ∅

variable (c : Closure)

def contains (n : PackageName) : Bool := c.levels.contains n

def level? (n : PackageName) : Option Nat := c.levels[n]?

def members : PackageSet := .ofList c.levels.keys

/-- The members that are not seeds. -/
def discovered : PackageSet := c.members \ c.seeds

def size : Nat := c.levels.size

def fresh (candidates : PackageSet) : PackageSet :=
  candidates.filter fun n => !c.contains n

/-- Takes in new members at a level. -/
def absorb (names : PackageSet) (level : Nat) : Closure :=
  { c with levels := names.foldl (fun levels n => levels.insert n level) c.levels }

/-- Notes what some packages require; a later answer about a package takes the place of an earlier
one. -/
def recordRequirements (asked : PackageSet) (answer : Requirements) : Closure :=
  { c with expanded := c.expanded ∪ asked, requirements := c.requirements ∪ answer }

/-- Notes who provides some capabilities, beside what is known already. -/
def recordProviders (asked : CapabilitySet) (answer : Providers) : Closure :=
  { c with queried := c.queried ∪ asked, providers := SetMap.merge c.providers answer }

/-- Asks what the packages of the frontier require and who provides it, and finds the providers. -/
def discover (scope : Scope) (reading : NameReading) (asSource : Bool) (frontier : PackageSet) :
    Program (Closure × PackageSet) := do
  let requirements ← Program.requirementsOf frontier reading scope
  let c := c.recordRequirements frontier requirements
  let capabilities := SetMap.range requirements
  let providers ← Program.providersOf capabilities scope asSource
  return (c.recordProviders capabilities providers, SetMap.range providers)

/-- Asks for the facts that are still missing, so that every member's requirements are known. -/
def complete (scope : Scope) (reading : NameReading) (asSource : Bool) : Program Closure := do
  let pending := c.members \ c.expanded
  let c := c.recordRequirements pending (← Program.requirementsOf pending reading scope)
  let unknown := SetMap.range c.requirements \ c.queried
  return c.recordProviders unknown (← Program.providersOf unknown scope asSource)

/-- Notes what the members require from each other. -/
def nodeTable : NodeTable :=
  c.members.foldl (fun t consumer =>
    (SetMap.values c.requirements consumer).foldl (fun t capability =>
      (SetMap.values c.providers capability).foldl (fun t provider =>
        (t.addRequirement consumer provider).2) t) t) (.ofNodes c.members)

def graph : Graph := c.nodeTable.toGraph

end Closure

end BuildPlan
