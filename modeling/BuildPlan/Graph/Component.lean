import BuildPlan.Graph

/-! # Components

The nodes of a graph fall into components: two nodes are in the same one if each of them requires
the other, however indirectly. Drawn together, the components make a graph without cycles.
-/
namespace BuildPlan

def PackageName.sorted (names : List PackageName) : List PackageName :=
  (Std.ExtTreeSet.ofList names : PackageSet).toList

/-- A graph of groups of packages, which go by number. -/
structure Condensation where
  groups : List (List PackageName)
  /-- Which group requires which. -/
  arrows : List (Nat × Nat)
deriving DecidableEq

namespace Condensation

variable (c : Condensation)

def size : Nat := c.groups.length

def members (group : Nat) : List PackageName := c.groups.getD group []

def required (group : Nat) : List Nat := (c.arrows.filter fun a => a.1 == group).map Prod.snd

def consumers (group : Nat) : List Nat := (c.arrows.filter fun a => a.2 == group).map Prod.fst

/-- The same groups, the members of each in name order. -/
def sorted : Condensation := { c with groups := c.groups.map PackageName.sorted }

end Condensation

namespace Graph

variable (g : Graph)

def reach : SetMap PackageName PackageName := g.arrows.map fun n _ => g.downward n

/-- What a node reaches and is reached by, given what each node reaches. -/
def component (reach : SetMap PackageName PackageName) (n : PackageName) : PackageSet :=
  (SetMap.values reach n).filter fun m => (SetMap.values reach m).contains n

/-- The components, each where its first member stands. -/
def components : List (List PackageName) :=
  let reach := g.reach
  g.nodes.filterMap fun n =>
    let members := (component reach n).toList
    if members.head? = some n then some members else none

/-- The numbers of the groups that the members of a group require. -/
def requiredGroups (groups : List (List PackageName)) (members : List PackageName) :
    Std.ExtTreeSet Nat :=
  .ofList ((members.flatMap g.requires).filterMap fun n => groups.findIdx? (·.contains n))

/-- The components, with an arrow from each to every other one that its members require. -/
def condensation : Condensation :=
  let groups := g.components
  { groups
    arrows := groups.zipIdx.flatMap fun (members, i) =>
      ((g.requiredGroups groups members).erase i).toList.map fun j => (i, j) }

end Graph

end BuildPlan
