import BuildPlan.Graph

/-! # Node tables

A dependency graph while it is built. Its nodes go by number, in the order in which they were added,
and an index leads from a name to its number. Each arrow is noted at both of its ends.
-/
namespace BuildPlan

structure Node where
  name : PackageName
  /-- Where arrows lead to from this node, the latest first. -/
  outgoing : List Nat
  incoming : List Nat

structure NodeTable where
  nodes : Array Node
  index : Std.ExtTreeMap PackageName Nat

namespace NodeTable

variable (t : NodeTable)

def addNode (name : PackageName) : NodeTable :=
  ⟨t.nodes.push ⟨name, [], []⟩, t.index.insert name t.nodes.size⟩

def ofNodes (names : PackageSet) : NodeTable := names.toList.foldl addNode ⟨#[], ∅⟩

def outgoing (i : Nat) : List Nat := (t.nodes[i]?.map Node.outgoing).getD []

def incoming (i : Nat) : List Nat := (t.nodes[i]?.map Node.incoming).getD []

def addArrow (i j : Nat) : NodeTable :=
  { t with
    nodes := (t.nodes.modify i fun n => { n with outgoing := j :: n.outgoing }).modify j
      fun n => { n with incoming := i :: n.incoming } }

/-- Records that a package requires another, and tells whether this is new. Names that are no nodes
change nothing, nor does a package that requires itself. -/
def addRequirement (consumer requirement : PackageName) : Bool × NodeTable :=
  if consumer = requirement then (false, t)
  else
    match t.index[consumer]?, t.index[requirement]? with
    | some i, some j =>
      if (t.outgoing i).contains j then (false, t) else (true, t.addArrow i j)
    | _, _ => (false, t)

def size : Nat := t.nodes.size

def contains (name : PackageName) : Bool := t.index.contains name

def namesOf (numbers : List Nat) : List PackageName :=
  numbers.filterMap fun i => t.nodes[i]?.map Node.name

/-- The names of the neighbours of a node on one side of it, in order. -/
def neighbours (side : NodeTable → Nat → List Nat) (name : PackageName) : List PackageName :=
  match t.index[name]? with
  | none => []
  | some i => (t.namesOf (side t i)).mergeSort fun a b => (compare a b).isLE

def requires (name : PackageName) : List PackageName := t.neighbours outgoing name

def requiredBy (name : PackageName) : List PackageName := t.neighbours incoming name

def arrows : List (PackageName × PackageName) :=
  t.nodes.toList.flatMap fun n => (t.namesOf n.outgoing).map fun m => (n.name, m)

def toGraph : Graph :=
  t.arrows.foldl (fun g (a, b) => g.addRequirement a b)
    (.ofNodes (.ofList (t.nodes.toList.map Node.name)))

end NodeTable

end BuildPlan
