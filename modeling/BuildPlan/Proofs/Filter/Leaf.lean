import BuildPlan.Filter
import BuildPlan.Proofs.Graph.DepthFirst
import BuildPlan.Proofs.Graph.Sort

/-! # What a leaf keeps

A leaf keeps the nodes that it reaches. The other packages of its cycle are among them, so that the
build order adds nothing. A leaf keeps all that the leaves keep that it keeps itself, and two leaves
keep the same just if they belong to one group.
-/
namespace BuildPlan

open Relation

namespace Graph

variable {g : Graph} {leaf : PackageName}

theorem leafScope_of_notMem (hleaf : leaf ∉ g.nodes) (o : BuildOrder) :
    leafScope g o leaf = .error (.leafNotInClosure leaf) := by
  have hcontains : ¬ g.contains leaf = true := mt g.contains_iff_mem_nodes.1 hleaf
  simp [leafScope, hcontains, throw, throwThe, MonadExceptOf.throw]

theorem leafScope_sort_of_mem (hleaf : leaf ∈ g.nodes) :
    leafScope g g.sort leaf = .ok (g.downward leaf) := by
  have hcycle : g.downward leaf ∪ .ofList (g.sort.cycleMembers leaf) = g.downward leaf := by
    apply Std.ExtTreeSet.ext_mem
    intro n
    simpa using mem_downward_of_mem_cycleMembers
  rw [leafScope, if_pos (g.contains_iff_mem_nodes.2 hleaf), hcycle]
  rfl

theorem leafScope_sort_eq (g : Graph) (leaf : PackageName) : leafScope g g.sort leaf =
    if leaf ∈ g.nodes then .ok (g.downward leaf) else .error (.leafNotInClosure leaf) := by
  split
  · next hleaf => exact leafScope_sort_of_mem hleaf
  · next hleaf => exact leafScope_of_notMem hleaf g.sort

theorem leafScope_sort_eq_ok_iff {kept : PackageSet} :
    leafScope g g.sort leaf = .ok kept ↔ leaf ∈ g.nodes ∧ g.downward leaf = kept := by
  rw [leafScope_sort_eq]
  split <;> simp [*]

/-- The scope of a leaf is what paths of effective arrows lead to, and what a depth-first search
visits. -/
theorem leafScope_eq_reachable (nodes : PackageSet) (pairs : List (PackageName × PackageName)) :
    let g := ofRequirements nodes pairs
    let Reach := ReflTransGen (Effective nodes pairs)
    (∀ n, n ∉ nodes → g.downward n = ∅) ∧
    (∀ n ∈ nodes, ∀ m, m ∈ g.downward n ↔ m ∈ nodes ∧ Reach n m) ∧
    (∀ leaf, leafScope g g.sort leaf =
      if leaf ∈ nodes then .ok (g.downward leaf) else .error (.leafNotInClosure leaf)) ∧
    (∀ leaf, ∀ m ∈ g.sort.cycleMembers leaf, m ∈ g.downward leaf) ∧
    (∀ a b kept kept', leafScope g g.sort a = .ok kept → leafScope g g.sort b = .ok kept' →
      (b ∈ kept ↔ ∀ n ∈ kept', n ∈ kept) ∧
      (kept = kept' ↔ ∃ group ∈ g.sort.groups, a ∈ group ∧ b ∈ group)) ∧
    ∀ successors, (∀ n m, m ∈ successors n ↔ Effective nodes pairs n m) → ∀ n ∈ nodes,
      let search := Search.finish g successors n
      search.stack = [] ∧ search.visited.Nodup ∧ ∀ m, m ∈ search.visited ↔ m ∈ g.downward n := by
  intro g Reach
  have hnodes : ∀ n, n ∈ g.nodes ↔ n ∈ nodes := fun n => mem_nodes_ofRequirements
  have hrequires : g.Requires = Effective nodes pairs := requires_ofRequirements nodes pairs
  refine ⟨?_, ?_, ?_, ?_, ?_, ?_⟩
  · intro n hn
    exact downward_eq_empty (mt (hnodes n).1 hn)
  · intro n hn m
    have hreaches : g.Reaches n m ↔ Reach n m := by rw [Reaches, hrequires]
    rw [mem_downward, hnodes, ← hreaches, ← hnodes m]
    simp only [hn, true_and, iff_and_self]
    exact fun hm => hm.mem_nodes ((hnodes n).2 hn)
  · intro leaf
    simp only [leafScope_sort_eq, hnodes]
  · intro leaf m hm
    exact mem_downward_of_mem_cycleMembers hm
  · intro a b kept kept' hkept hkept'
    obtain ⟨ha, rfl⟩ := leafScope_sort_eq_ok_iff.1 hkept
    obtain ⟨hb, rfl⟩ := leafScope_sort_eq_ok_iff.1 hkept'
    rw [downward_eq_iff_joined ha hb, exists_group_iff_joined ha]
    exact ⟨mem_downward_iff_subset hb, Iff.rfl⟩
  · intro successors hsuccessors n hn
    have ha := (hnodes n).2 hn
    obtain ⟨hstack, hnodup, hvisited⟩ :=
      Search.finish_spec (g := g) (fun n m => hrequires ▸ hsuccessors n m) ha
    refine ⟨hstack, hnodup, fun m => ?_⟩
    simp [hvisited, mem_downward, ha]

def tailedNodes : PackageSet := .ofList (["a", "b", "c", "d"].map PackageName.mk)

/-- The nodes `b` and `c` are on a cycle, to which `d` and `a` lead. -/
def tailedPairs : List (PackageName × PackageName) :=
  [(⟨"a"⟩, ⟨"b"⟩), (⟨"b"⟩, ⟨"c"⟩), (⟨"c"⟩, ⟨"b"⟩), (⟨"d"⟩, ⟨"a"⟩)]

def tailedCycle : Graph := ofRequirements tailedNodes tailedPairs

/-- The leaf `a` keeps all that `c` keeps, and itself. -/
theorem leafScope_eq_reachable_tailedCycle :
    let o := tailedCycle.sort
    ∃ kept kept', leafScope tailedCycle o ⟨"a"⟩ = .ok kept ∧
      leafScope tailedCycle o ⟨"c"⟩ = .ok kept' ∧ ⟨"b"⟩ ∈ o.cycleMembers ⟨"c"⟩ ∧ ⟨"b"⟩ ∈ kept' ∧
      (∀ n ∈ kept', n ∈ kept) ∧ kept ≠ kept' ∧
      leafScope tailedCycle o ⟨"e"⟩ = .error (.leafNotInClosure ⟨"e"⟩) ∧
      ⟨"b"⟩ ∈ (Search.finish tailedCycle tailedCycle.requires ⟨"c"⟩).visited := by
  intro o
  obtain ⟨-, -, hscope, hcycle, hkept, hsearch⟩ := leafScope_eq_reachable tailedNodes tailedPairs
  have ha : leafScope tailedCycle o ⟨"a"⟩ = .ok (tailedCycle.downward ⟨"a"⟩) :=
    (hscope ⟨"a"⟩).trans (if_pos (by decide +kernel))
  have hc : leafScope tailedCycle o ⟨"c"⟩ = .ok (tailedCycle.downward ⟨"c"⟩) :=
    (hscope ⟨"c"⟩).trans (if_pos (by decide +kernel))
  have hpartner : ⟨"b"⟩ ∈ o.cycleMembers ⟨"c"⟩ := by decide +kernel
  have hb : ⟨"b"⟩ ∈ tailedCycle.downward ⟨"c"⟩ := hcycle _ _ hpartner
  obtain ⟨-, -, hvisited⟩ := hsearch tailedCycle.requires
    (fun n m => by rw [← requires_ofRequirements]; exact mem_requires _) ⟨"c"⟩ (by decide +kernel)
  refine ⟨_, _, ha, hc, hpartner, hb, ?_, ?_, (hscope ⟨"e"⟩).trans (if_neg (by decide +kernel)),
    (hvisited _).2 hb⟩
  · exact (hkept ⟨"a"⟩ ⟨"c"⟩ _ _ ha hc).1.1 (by decide +kernel)
  · intro heq
    have hmem : ⟨"a"⟩ ∈ tailedCycle.downward ⟨"c"⟩ := heq ▸ mem_downward_self (by decide +kernel)
    exact absurd hmem (by decide +kernel)

end Graph

end BuildPlan
