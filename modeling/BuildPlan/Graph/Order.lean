import BuildPlan.Graph.Component

/-! # Build order

Packages that require each other form a group, and groups are put in an order in which every group
comes after the groups that it requires. Of the groups that are ready at one time the one with the
least first member goes first.
-/
namespace BuildPlan

structure BuildOrder where
  order : List PackageName
  /-- The groups in the same order; the members of a group are in name order. -/
  groups : List (List PackageName)
  /-- The others in the cycle of each node that is on one. -/
  cycles : Std.ExtTreeMap PackageName (List PackageName)
deriving DecidableEq

namespace BuildOrder

variable (o : BuildOrder)

/-- The other members of the group of a node, empty when it is on no cycle. -/
def cycleMembers (n : PackageName) : List PackageName := o.cycles[n]?.getD []

def position? (n : PackageName) : Option Nat := o.order.findIdx? (· == n)

end BuildOrder

/-- How far the groups have been put in order. -/
structure Schedule where
  order : List PackageName
  groups : List (List PackageName)
  /-- For each group, how many of the groups that it requires are not in order yet. -/
  pending : List Nat
  /-- The groups that wait for no other one, each under its first member. -/
  ready : Std.ExtTreeMap PackageName Nat

namespace Schedule

variable (c : Condensation)

/-- The groups whose count is zero, each with its first member. -/
def idle (pending : List Nat) : List (PackageName × Nat) :=
  pending.zipIdx.filterMap fun (count, i) =>
    if count = 0 then (c.members i).head?.map fun n => (n, i) else none

def start : Schedule :=
  let pending := (List.range c.size).map fun i => (c.required i).length
  { order := []
    groups := []
    pending
    ready := .ofList (idle c pending) }

/-- Notes that one of the groups that a group requires is in order. -/
def release (s : Schedule) (consumer : Nat) : Schedule :=
  let s := { s with pending := s.pending.modify consumer (· - 1) }
  if 0 < s.pending.getD consumer 0 then s
  else
    match (c.members consumer).head? with
    | some n => { s with ready := s.ready.insert n consumer }
    | none => s

/-- Puts a group in order. -/
def emit (s : Schedule) (group : Nat) : Schedule :=
  (c.consumers group).foldl (release c)
    { s with order := s.order ++ c.members group, groups := s.groups ++ [c.members group] }

/-- Puts the ready group with the least first member in order. -/
def step (s : Schedule) : Schedule :=
  match s.ready.minKey? with
  | none => s
  | some n =>
    match s.ready[n]? with
    | none => s
    | some group => emit c { s with ready := s.ready.erase n } group

def advance (s : Schedule) : Nat → Schedule
  | 0 => s
  | steps + 1 => advance (step c s) steps

/-- Goes on until no group is ready, which takes a step for each group. -/
def finish : Schedule := advance c (start c) c.size

end Schedule

namespace BuildOrder

/-- The other members of each component of at least two. -/
def partners (components : List (List PackageName)) :
    Std.ExtTreeMap PackageName (List PackageName) :=
  .ofList ((components.filter fun members => 2 ≤ members.length).flatMap fun members =>
    members.map fun n => (n, PackageName.sorted (members.filter (· != n))))

/-- The order of a graph, given its components from one search and its condensation from another. -/
def ofSearches (components : List (List PackageName)) (c : Condensation) : BuildOrder :=
  let schedule := Schedule.finish c.sorted
  ⟨schedule.order, schedule.groups, partners components⟩

end BuildOrder

namespace Graph

variable (g : Graph)

def sort : BuildOrder := .ofSearches g.components g.condensation

end Graph

end BuildPlan
