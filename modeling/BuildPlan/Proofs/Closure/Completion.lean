import BuildPlan.Proofs.Closure.Growth
import BuildPlan.Proofs.Graph.Table

/-! # Completed closures

Before its graph is built a closure asks for the facts that its growth did not need. This leaves its
members alone, and they are the nodes of the graph.
-/
namespace BuildPlan

namespace Closure

/-- What a closure knows when nothing is missing. -/
def completed (c : Closure) (index : BranchIndex) (scope : Scope) (reading : NameReading)
    (asSource : Bool) : Closure :=
  let pending := c.members \ c.expanded
  let c := c.recordRequirements pending (index.requirementsOf pending reading scope)
  let unknown := SetMap.range c.requirements \ c.queried
  c.recordProviders unknown (index.providersOf unknown scope asSource)

variable {u : Universe} {index : BranchIndex} {scope : Scope} {reading : NameReading}
  {asSource : Bool} {c : Closure}

theorem discovered_completed :
    (c.completed index scope reading asSource).discovered = c.discovered := rfl

theorem mem_expanded_completed {n : PackageName} (hn : n ∈ c.members) :
    n ∈ (c.completed index scope reading asSource).expanded := by
  apply Std.ExtTreeSet.mem_union_iff.2
  by_cases hold : n ∈ c.expanded
  · exact Or.inl hold
  · exact Or.inr (Std.ExtTreeSet.mem_diff_iff.2 ⟨hn, hold⟩)

theorem mem_queried_completed {a : Capability}
    (ha : a ∈ SetMap.range (c.completed index scope reading asSource).requirements) :
    a ∈ (c.completed index scope reading asSource).queried := by
  apply Std.ExtTreeSet.mem_union_iff.2
  by_cases hold : a ∈ c.queried
  · exact Or.inl hold
  · exact Or.inr (Std.ExtTreeSet.mem_diff_iff.2 ⟨ha, hold⟩)

theorem eval_complete (h : u.branch scope.branch = .ok index) (c : Closure)
    (reading : NameReading) (asSource : Bool) :
    (c.complete scope reading asSource).eval u =
      .ok (c.completed index scope reading asSource) := by
  simp only [complete, Program.eval_bind, Program.eval_requirementsOf h,
    Program.eval_providersOf h, Program.eval_pure]
  rfl

/-- The members with those who provide what they require. -/
def requirementPairs (c : Closure) : List (PackageName × PackageName) :=
  c.members.toList.flatMap fun consumer =>
    (SetMap.values c.requirements consumer).toList.flatMap fun capability =>
      (SetMap.values c.providers capability).toList.map fun provider => (consumer, provider)

theorem nodeTable_eq_foldl (c : Closure) : c.nodeTable = c.requirementPairs.foldl
    (fun t p => (t.addRequirement p.1 p.2).2) (.ofNodes c.members) := by
  simp [nodeTable, requirementPairs, Std.ExtTreeSet.foldl_eq_foldl_toList, List.foldl_flatMap,
    List.foldl_map]

theorem graph_eq_ofRequirements (c : Closure) :
    c.graph = .ofRequirements c.members c.requirementPairs := by
  have h := (NodeTable.isSound_ofNodes c.members).foldl_addRequirement c.requirementPairs
  rw [graph, nodeTable_eq_foldl, h.2, NodeTable.toGraph_ofNodes]
  rfl

theorem mem_nodes_graph {n : PackageName} : n ∈ c.graph.nodes ↔ n ∈ c.members := by
  rw [graph_eq_ofRequirements, Graph.mem_nodes_ofRequirements]

end Closure

end BuildPlan
