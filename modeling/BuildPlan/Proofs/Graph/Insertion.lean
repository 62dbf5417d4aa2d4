import BuildPlan.Proofs.Graph.DepthFirst
import BuildPlan.Proofs.Graph.Table

/-! # Adding requirements one by one

A call adds an arrow if it is the first to name two different nodes in this order, and it answers
whether it did. So a table notes each arrow once at either end, what a node requires and what
requires it are two views of the same arrows, and the order of the calls leaves no trace in the
graph.
-/
namespace BuildPlan

open Relation

/-- Makes some calls, one after the other, and collects the answers. -/
def NodeTable.addAll (t : NodeTable) : List (PackageName × PackageName) → List Bool × NodeTable
  | [] => ([], t)
  | p :: rest =>
    let (added, t) := t.addRequirement p.1 p.2
    let (more, t) := t.addAll rest
    (added :: more, t)

theorem NodeTable.addAll_snd (t : NodeTable) (calls : List (PackageName × PackageName)) :
    (t.addAll calls).2 = calls.foldl (fun t p => (t.addRequirement p.1 p.2).2) t := by
  induction calls generalizing t with
  | nil => rfl
  | cons p rest ih => exact ih _

namespace Graph

def answers (g : Graph) : List (PackageName × PackageName) → List Bool
  | [] => []
  | p :: rest => g.accepts p.1 p.2 :: (g.addRequirement p.1 p.2).answers rest

theorem length_answers (g : Graph) (calls : List (PackageName × PackageName)) :
    (g.answers calls).length = calls.length := by
  induction calls generalizing g with
  | nil => rfl
  | cons p rest ih => simp [answers, ih]

theorem getElem?_answers (g : Graph) (calls : List (PackageName × PackageName)) (i : Nat) :
    (g.answers calls)[i]? = calls[i]?.map fun p =>
      ((calls.take i).foldl (fun g p => g.addRequirement p.1 p.2) g).accepts p.1 p.2 := by
  induction calls generalizing g i with
  | nil => simp [answers]
  | cons p rest ih =>
    cases i with
    | zero => simp [answers]
    | succ i => simp [answers, ih]

theorem addAll_fst {t : NodeTable} (h : t.IsSound) (calls : List (PackageName × PackageName)) :
    (t.addAll calls).1 = t.toGraph.answers calls := by
  induction calls generalizing t with
  | nil => rfl
  | cons p rest ih =>
    obtain ⟨hsound, hanswer, hgraph⟩ := h.addRequirement p.1 p.2
    have hrest := ih hsound
    rw [hgraph] at hrest
    simp only [NodeTable.addAll, answers, hanswer, hrest]

/-- The table that some calls have made is sound and stands for the graph that they make. -/
theorem addAll_ofNodes (nodes : PackageSet) (calls : List (PackageName × PackageName)) :
    ((NodeTable.ofNodes nodes).addAll calls).2.IsSound ∧
      ((NodeTable.ofNodes nodes).addAll calls).2.toGraph = ofRequirements nodes calls := by
  rw [NodeTable.addAll_snd, ofRequirements, ← NodeTable.toGraph_ofNodes]
  exact (NodeTable.isSound_ofNodes nodes).foldl_addRequirement calls

variable {nodes : PackageSet} {calls : List (PackageName × PackageName)} {a b : PackageName}

theorem accepts_ofRequirements : (ofRequirements nodes calls).accepts a b = true ↔
    a ∈ nodes ∧ b ∈ nodes ∧ a ≠ b ∧ (a, b) ∉ calls := by
  rw [accepts_iff, requires_ofRequirements, mem_nodes_ofRequirements, mem_nodes_ofRequirements]
  unfold Effective
  tauto

theorem getElem?_answers_eq_true_iff {i : Nat} (hcall : calls[i]? = some (a, b)) :
    ((ofNodes nodes).answers calls)[i]? = some true ↔
      a ∈ nodes ∧ b ∈ nodes ∧ a ≠ b ∧ (a, b) ∉ calls.take i := by
  rw [getElem?_answers, hcall, Option.map_some, Option.some_inj]
  exact accepts_ofRequirements

theorem effective_iff_exists_answer : Effective nodes calls a b ↔
    ∃ i : Nat, calls[i]? = some (a, b) ∧ ((ofNodes nodes).answers calls)[i]? = some true := by
  constructor
  · intro ⟨hmem, ha, hb, hne⟩
    have hfirst := List.idxOf_lt_length_of_mem hmem
    have hcall : calls[calls.idxOf (a, b)]? = some (a, b) := by
      rw [List.getElem?_eq_getElem hfirst, List.getElem_idxOf hfirst]
    refine ⟨_, hcall, (getElem?_answers_eq_true_iff hcall).2 ⟨ha, hb, hne, ?_⟩⟩
    rw [List.mem_take_iff_idxOf_lt hmem]
    exact Nat.lt_irrefl _
  · intro ⟨i, hcall, hanswer⟩
    obtain ⟨ha, hb, hne, -⟩ := (getElem?_answers_eq_true_iff hcall).1 hanswer
    exact ⟨List.mem_of_getElem? hcall, ha, hb, hne⟩

theorem ofRequirements_congr {calls' : List (PackageName × PackageName)}
    (h : ∀ p, p ∈ calls' ↔ p ∈ calls) :
    ofRequirements nodes calls' = ofRequirements nodes calls := by
  refine eq_of_requires (fun n => ?_) ?_
  · rw [mem_nodes_ofRequirements, mem_nodes_ofRequirements]
  · rw [requires_ofRequirements, requires_ofRequirements]
    funext a b
    simp only [Effective, h]

/-- The order of the calls leaves no trace in a graph, and each search for its components, for a
condensation or for what a node reaches finds the same in it. -/
theorem ofRequirements_of_perm (nodes : PackageSet) {calls' : List (PackageName × PackageName)}
    (hperm : calls'.Perm calls) :
    let g := ofRequirements nodes calls
    let g' := ofRequirements nodes calls'
    (∀ n, g'.requires n = g.requires n ∧ g'.requiredBy n = g.requiredBy n ∧
      g'.downward n = g.downward n) ∧
    g'.sort = g.sort ∧
    (∀ classes c, g'.IsComponents classes → g'.IsCondensation c →
      BuildOrder.ofSearches classes c = g.sort) ∧
    ∀ successors, (∀ n m, m ∈ successors n ↔ Effective nodes calls' n m) → ∀ n ∈ nodes,
      ∀ m, m ∈ (Search.finish g' successors n).visited ↔ m ∈ g.downward n := by
  intro g g'
  have hg : g' = g := ofRequirements_congr fun p => hperm.mem_iff
  refine ⟨fun n => by simp only [hg, and_self], by rw [hg], fun classes c hclasses hc => ?_,
    fun successors hsuccessors n hn m => ?_⟩
  · rw [← hg]
    exact ofSearches_eq_sort hclasses hc
  · have hn' : n ∈ g'.nodes := mem_nodes_ofRequirements.2 hn
    have hsuccessors' : ∀ n m, m ∈ successors n ↔ g'.Requires n m := fun n m => by
      rw [hsuccessors, requires_ofRequirements]
    obtain ⟨-, -, hvisited⟩ := Search.finish_spec hsuccessors' hn'
    rw [hvisited, ← hg, mem_downward, and_iff_right hn']

/-- Any run of calls makes a simple table and the graph for which it stands, the same for every
order of the calls. -/
theorem ofRequirements_simple (names : List PackageName)
    (calls : List (PackageName × PackageName)) :
    let nodes : PackageSet := .ofList names
    let run := (NodeTable.ofNodes nodes).addAll calls
    let added := run.1
    let t := run.2
    let g := ofRequirements nodes calls
    (added = (ofNodes nodes).answers calls ∧ t.toGraph = g ∧ t.size = g.size ∧
      ∀ n, t.contains n = g.contains n ∧ t.requires n = g.requires n ∧
        t.requiredBy n = g.requiredBy n) ∧
    (∀ i, (t.outgoing i).Nodup ∧ (t.incoming i).Nodup ∧ i ∉ t.outgoing i ∧
      ∀ j, i ∈ t.incoming j ↔ j ∈ t.outgoing i) ∧
    added.length = calls.length ∧
    (∀ (i : Nat) (a b : PackageName), calls[i]? = some (a, b) →
      (added[i]? = some true ↔ a ∈ names ∧ b ∈ names ∧ a ≠ b ∧ (a, b) ∉ calls.take i)) ∧
    (∀ n, n ∈ g.nodes ↔ n ∈ names) ∧
    (∀ a, PackageName.Ascending (g.requires a) ∧
      ∀ b, b ∈ g.requires a ↔ ∃ i : Nat, calls[i]? = some (a, b) ∧ added[i]? = some true) ∧
    (∀ b, PackageName.Ascending (g.requiredBy b) ∧
      ∀ a, b ∈ g.requires a ↔ a ∈ g.requiredBy b) ∧
    (∀ a, a ∉ g.requires a) ∧
    ∀ calls', calls'.Perm calls →
      let g' := ofRequirements nodes calls'
      (∀ n, g'.requires n = g.requires n ∧ g'.requiredBy n = g.requiredBy n ∧
        g'.downward n = g.downward n) ∧
      g'.sort = g.sort ∧
      (∀ classes c, g'.IsComponents classes → g'.IsCondensation c →
        BuildOrder.ofSearches classes c = g.sort) ∧
      ∀ successors, (∀ n m, m ∈ successors n ↔ Effective nodes calls' n m) → ∀ n ∈ names,
        ∀ m, m ∈ (Search.finish g' successors n).visited ↔ m ∈ g.downward n := by
  intro nodes run added t g
  have hmem : ∀ n, n ∈ nodes ↔ n ∈ names := fun n => by simp [nodes, eq_comm]
  have hrequires : ∀ a b, b ∈ g.requires a ↔ Effective nodes calls a b := fun a b => by
    rw [mem_requires, requires_ofRequirements]
  have hadded : added = (ofNodes nodes).answers calls := by
    rw [← NodeTable.toGraph_ofNodes]
    exact addAll_fst (NodeTable.isSound_ofNodes nodes) calls
  obtain ⟨hsound, hgraph⟩ : t.IsSound ∧ t.toGraph = g := addAll_ofNodes nodes calls
  refine ⟨⟨hadded, hgraph, hgraph ▸ hsound.size_eq, fun n => ?_⟩, fun i => ?_, ?_,
    fun i a b hcall => ?_, fun n => ?_, fun a => ?_, fun b => ?_,
    fun a ha => ((hrequires a a).1 ha).2.2.2 rfl, fun calls' hperm => ?_⟩
  · rw [← hgraph]
    exact ⟨hsound.contains_eq, hsound.requires_eq n, hsound.requiredBy_eq n⟩
  · exact ⟨hsound.nodup_outgoing i, hsound.nodup_incoming i, hsound.irrefl i,
      hsound.mem_incoming i⟩
  · rw [hadded, length_answers]
  · rw [hadded, ← hmem, ← hmem]
    exact getElem?_answers_eq_true_iff hcall
  · exact mem_nodes_ofRequirements.trans (hmem n)
  · rw [hadded]
    exact ⟨ascending_requires g a, fun b => (hrequires a b).trans effective_iff_exists_answer⟩
  · exact ⟨ascending_requiredBy g b, fun a => (mem_requires g).trans mem_requiredBy.symm⟩
  · obtain ⟨hviews, hsort, hsearches, hvisited⟩ := ofRequirements_of_perm nodes hperm
    exact ⟨hviews, hsort, hsearches, fun successors h n hn =>
      hvisited successors h n ((hmem n).2 hn)⟩

/-- Two nodes that require each other, one of them given twice. The calls name a stranger, a node
with itself and an arrow that is there already. -/
def crossedCalls : List (PackageName × PackageName) :=
  [(⟨"a"⟩, ⟨"b"⟩), (⟨"a"⟩, ⟨"a"⟩), (⟨"b"⟩, ⟨"a"⟩), (⟨"a"⟩, ⟨" b"⟩), (⟨"a"⟩, ⟨"b"⟩)]

theorem ofRequirements_simple_crossed :
    let names : List PackageName := [⟨"b"⟩, ⟨"a"⟩, ⟨"b"⟩]
    let run := (NodeTable.ofNodes (.ofList names)).addAll crossedCalls
    let added := run.1
    let g := ofRequirements (.ofList names) crossedCalls
    added[0]? = some true ∧ added[1]? ≠ some true ∧ added[3]? ≠ some true ∧ added[4]? ≠ some true ∧
      ⟨"b"⟩ ∈ run.2.requires ⟨"a"⟩ ∧ ⟨"a"⟩ ∈ run.2.requiredBy ⟨"b"⟩ ∧
      (ofRequirements (.ofList names) crossedCalls.reverse).sort = g.sort := by
  intro names run added g
  obtain ⟨⟨-, -, -, htable⟩, -, -, hadded, -, hrequires, hviews, -, hperm⟩ :=
    ofRequirements_simple names crossedCalls
  have hfirst : added[0]? = some true :=
    (hadded 0 ⟨"a"⟩ ⟨"b"⟩ (by decide)).2 (by decide)
  have hab : ⟨"b"⟩ ∈ g.requires ⟨"a"⟩ :=
    ((hrequires ⟨"a"⟩).2 ⟨"b"⟩).2 ⟨0, by decide, hfirst⟩
  have hba : ⟨"a"⟩ ∈ g.requiredBy ⟨"b"⟩ := ((hviews ⟨"b"⟩).2 ⟨"a"⟩).1 hab
  refine ⟨hfirst, ?_, ?_, ?_, (htable ⟨"a"⟩).2.1 ▸ hab, (htable ⟨"b"⟩).2.2 ▸ hba,
    (hperm _ crossedCalls.reverse_perm).2.1⟩
  · exact mt (hadded 1 ⟨"a"⟩ ⟨"a"⟩ (by decide)).1 (by decide)
  · exact mt (hadded 3 ⟨"a"⟩ ⟨" b"⟩ (by decide)).1 (by decide)
  · exact mt (hadded 4 ⟨"a"⟩ ⟨"b"⟩ (by decide)).1 (by decide)

end Graph

end BuildPlan
