import BuildPlan.Graph.Table
import BuildPlan.Proofs.Graph.Sort

/-! # Node tables and graphs

A table that was made by adding nodes and requirements is sound: its index leads to the right
numbers, no arrow is noted twice, and both ends of every arrow agree. It stands for a graph, and to
add a requirement to the table is to add it to the graph.
-/
namespace BuildPlan

namespace NodeTable

variable {t : NodeTable} {a b n : PackageName} {i j k : Nat}

def name? (t : NodeTable) (i : Nat) : Option PackageName := t.nodes[i]?.map Node.name

theorem lt_of_name? (h : t.name? i = some n) : i < t.nodes.size := by
  obtain ⟨_, hnode, -⟩ := Option.map_eq_some_iff.1 h
  exact (Array.getElem?_eq_some_iff.1 hnode).1

theorem exists_name? (h : i < t.nodes.size) : ∃ n, t.name? i = some n :=
  ⟨_, by rw [name?, Array.getElem?_eq_getElem h]; rfl⟩

/-- The index is right, and the arrows are those of a simple graph, the same seen from either
end. -/
structure IsSound (t : NodeTable) : Prop where
  index_iff : ∀ (n : PackageName) i, t.index[n]? = some i ↔ t.name? i = some n
  lt : ∀ i, ∀ j ∈ t.outgoing i, j < t.nodes.size
  irrefl : ∀ i, i ∉ t.outgoing i
  mem_incoming : ∀ i j, i ∈ t.incoming j ↔ j ∈ t.outgoing i
  nodup_outgoing : ∀ i, (t.outgoing i).Nodup
  nodup_incoming : ∀ i, (t.incoming i).Nodup

theorem mem_namesOf {numbers : List Nat} :
    n ∈ t.namesOf numbers ↔ ∃ i ∈ numbers, t.name? i = some n := List.mem_filterMap

theorem mem_arrows : (a, b) ∈ t.arrows ↔
    ∃ i j, t.name? i = some a ∧ t.name? j = some b ∧ j ∈ t.outgoing i := by
  simp only [arrows, List.mem_flatMap, List.mem_map, mem_namesOf, Prod.mk.injEq]
  constructor
  · rintro ⟨node, hnode, b, ⟨j, hj, hb⟩, rfl, rfl⟩
    obtain ⟨i, hi, hget⟩ := List.mem_iff_getElem.1 hnode
    have hsome : t.nodes[i]? = some node := by
      rw [← Array.getElem?_toList, List.getElem?_eq_getElem hi, hget]
    exact ⟨i, j, by rw [name?, hsome]; rfl, hb, by rwa [outgoing, hsome]⟩
  · rintro ⟨i, j, ha, hb, hj⟩
    obtain ⟨node, hsome, rfl⟩ := Option.map_eq_some_iff.1 ha
    rw [outgoing, hsome] at hj
    exact ⟨node, Array.mem_toList_iff.2 (Array.mem_of_getElem? hsome), b, ⟨j, hj, hb⟩, rfl, rfl⟩

theorem toGraph_eq_ofRequirements :
    t.toGraph = .ofRequirements (.ofList (t.nodes.toList.map Node.name)) t.arrows := rfl

theorem mem_nodes_toGraph : n ∈ t.toGraph.nodes ↔ ∃ i, t.name? i = some n := by
  rw [toGraph_eq_ofRequirements, Graph.mem_nodes_ofRequirements]
  simp only [Std.ExtTreeSet.mem_ofList, List.contains_iff_mem, List.mem_map, Array.mem_toList_iff,
    Array.mem_iff_getElem?, name?, Option.map_eq_some_iff]
  exact ⟨fun ⟨node, ⟨i, hi⟩, hn⟩ => ⟨i, node, hi, hn⟩, fun ⟨i, node, hi, hn⟩ => ⟨node, ⟨i, hi⟩, hn⟩⟩

namespace IsSound

variable (h : t.IsSound)
include h

theorem name?_inj (hi : t.name? i = some n) (hj : t.name? j = some n) : i = j := by
  rw [← h.index_iff] at hi hj
  exact Option.some.inj (hi.symm.trans hj)

theorem requires_toGraph : t.toGraph.Requires a b ↔
    ∃ i j, t.name? i = some a ∧ t.name? j = some b ∧ j ∈ t.outgoing i := by
  rw [toGraph_eq_ofRequirements, Graph.requires_ofRequirements, Graph.Effective, mem_arrows]
  refine and_iff_left_of_imp ?_
  rintro ⟨i, j, ha, hb, hj⟩
  have hnode : ∀ {i n}, t.name? i = some n →
      n ∈ (.ofList (t.nodes.toList.map Node.name) : PackageSet) := fun hn =>
    Graph.mem_nodes_ofRequirements.1 (mem_nodes_toGraph.2 ⟨_, hn⟩)
  refine ⟨hnode ha, hnode hb, ?_⟩
  rintro rfl
  exact h.irrefl i (h.name?_inj ha hb ▸ hj)

theorem contains_eq : t.contains n = t.toGraph.contains n := by
  rw [Bool.eq_iff_iff, Graph.contains_iff_mem_nodes, mem_nodes_toGraph, contains,
    Std.ExtTreeMap.contains_iff_mem, Std.ExtTreeMap.mem_iff_isSome_getElem?,
    Option.isSome_iff_exists]
  exact exists_congr (h.index_iff n)

theorem size_eq : t.size = t.toGraph.size := by
  have hget : ∀ i, (t.nodes.toList.map Node.name)[i]? = t.name? i := by simp [name?]
  have hnodup : (t.nodes.toList.map Node.name).Nodup := by
    rw [List.nodup_iff_getElem?_ne_getElem?]
    intro i j hij hj heq
    rw [hget, hget] at heq
    obtain ⟨n, hn⟩ := exists_name? (t := t) (i := j) (by simpa using hj)
    exact Nat.ne_of_lt hij (h.name?_inj (heq.trans hn) hn)
  have hperm : (t.nodes.toList.map Node.name).Perm t.toGraph.nodes := by
    refine (List.perm_ext_iff_of_nodup hnodup t.toGraph.nodup_nodes).2 fun n => ?_
    rw [mem_nodes_toGraph, List.mem_iff_getElem?]
    simp only [hget]
  have hlength := hperm.length_eq
  simpa [size, Graph.size, Graph.nodes] using hlength

/-! ### Neighbours -/

theorem nodup_namesOf {numbers : List Nat} (hnumbers : numbers.Nodup) :
    (t.namesOf numbers).Nodup :=
  hnumbers.filterMap fun _ _ _ hi hj => h.name?_inj hi hj

theorem mem_neighbours {side : NodeTable → Nat → List Nat} :
    b ∈ t.neighbours side a ↔
      ∃ i j, t.name? i = some a ∧ t.name? j = some b ∧ j ∈ side t i := by
  rw [neighbours]
  cases hindex : t.index[a]? with
  | none =>
    simp only [List.not_mem_nil, false_iff]
    rintro ⟨i, -, ha, -⟩
    simp [(h.index_iff a i).2 ha] at hindex
  | some i =>
    have ha := (h.index_iff a i).1 hindex
    rw [List.mem_mergeSort, mem_namesOf]
    constructor
    · exact fun ⟨j, hj, hb⟩ => ⟨i, j, ha, hb, hj⟩
    · rintro ⟨i', j, ha', hb, hj⟩
      exact ⟨j, h.name?_inj ha' ha ▸ hj, hb⟩

theorem ascending_neighbours {side : NodeTable → Nat → List Nat} (hside : ∀ i, (side t i).Nodup)
    (a : PackageName) : PackageName.Ascending (t.neighbours side a) := by
  rw [neighbours]
  cases t.index[a]? with
  | none => exact List.Pairwise.nil
  | some i =>
    have htotal : ∀ a b : PackageName, ((compare a b).isLE || (compare b a).isLE) = true := by
      intro a b
      rw [Std.OrientedOrd.eq_swap (a := a)]
      cases compare b a <;> rfl
    have htrans : ∀ a b c : PackageName, (compare a b).isLE = true → (compare b c).isLE = true →
        (compare a c).isLE = true := fun _ _ _ => Std.TransOrd.isLE_trans
    have hsorted := List.pairwise_mergeSort htrans htotal (t.namesOf (side t i))
    have hnodup := (List.mergeSort_perm (t.namesOf (side t i)) fun a b =>
      (compare a b).isLE).nodup_iff.2 (h.nodup_namesOf (hside i))
    refine (hsorted.and hnodup).imp fun {a b} ⟨hle, hne⟩ => ?_
    cases hab : compare a b with
    | lt => rfl
    | eq => exact absurd (Std.LawfulEqCmp.eq_of_compare hab) hne
    | gt => simp [hab] at hle

theorem requires_eq (n : PackageName) : t.requires n = t.toGraph.requires n := by
  refine (h.ascending_neighbours h.nodup_outgoing n).eq_of_mem_iff
    (t.toGraph.ascending_requires n) fun m => ?_
  rw [h.mem_neighbours, Graph.mem_requires, h.requires_toGraph]

theorem requiredBy_eq (n : PackageName) : t.requiredBy n = t.toGraph.requiredBy n := by
  refine (h.ascending_neighbours h.nodup_incoming n).eq_of_mem_iff
    (t.toGraph.ascending_requiredBy n) fun m => ?_
  rw [h.mem_neighbours, Graph.mem_requiredBy, h.requires_toGraph]
  simp only [h.mem_incoming]
  exact ⟨fun ⟨j, i, hb, ha, hj⟩ => ⟨i, j, ha, hb, hj⟩, fun ⟨i, j, ha, hb, hj⟩ => ⟨j, i, hb, ha, hj⟩⟩

end IsSound

/-! ### Nodes -/

theorem name?_addNode :
    (t.addNode n).name? i = if i = t.nodes.size then some n else t.name? i := by
  rw [name?, addNode, Array.getElem?_push]
  split <;> rfl

theorem outgoing_addNode : (t.addNode n).outgoing i = t.outgoing i := by
  rw [outgoing, addNode, Array.getElem?_push]
  split
  · next hi => simp [outgoing, hi]
  · rfl

theorem incoming_addNode : (t.addNode n).incoming i = t.incoming i := by
  rw [incoming, addNode, Array.getElem?_push]
  split
  · next hi => simp [incoming, hi]
  · rfl

theorem IsSound.addNode (h : t.IsSound) (hn : ∀ i, t.name? i ≠ some n) :
    (t.addNode n).IsSound where
  index_iff m i := by
    rw [name?_addNode, NodeTable.addNode, Std.ExtTreeMap.getElem?_insert]
    by_cases hm : n = m
    · subst hm
      rw [if_pos Std.ReflCmp.compare_self, Option.some_inj, eq_comm]
      split
      · next hi => simp [hi]
      · next hi => simp [hi, hn i]
    · rw [if_neg (mt Std.LawfulEqCmp.eq_of_compare hm), h.index_iff]
      split
      · next hi =>
        have hout : t.name? i ≠ some m := fun hname =>
          Nat.ne_of_lt (lt_of_name? hname) hi
        simp [hout, hm]
      · rfl
  lt i j hj := by
    rw [outgoing_addNode] at hj
    exact Nat.lt_of_lt_of_le (h.lt i j hj) (by simp [NodeTable.addNode])
  irrefl i := by simpa only [outgoing_addNode] using h.irrefl i
  mem_incoming i j := by simpa only [outgoing_addNode, incoming_addNode] using h.mem_incoming i j
  nodup_outgoing i := by simpa only [outgoing_addNode] using h.nodup_outgoing i
  nodup_incoming i := by simpa only [incoming_addNode] using h.nodup_incoming i

theorem isSound_foldl_addNode {l : List PackageName} (hl : l.Nodup) (h : t.IsSound)
    (hnew : ∀ n ∈ l, ∀ i, t.name? i ≠ some n) :
    (l.foldl addNode t).IsSound ∧ (∀ i, (l.foldl addNode t).outgoing i = t.outgoing i) ∧
      ∀ n, (∃ i, (l.foldl addNode t).name? i = some n) ↔ n ∈ l ∨ ∃ i, t.name? i = some n := by
  induction l generalizing t with
  | nil => exact ⟨h, fun _ => rfl, by simp⟩
  | cons m l ih =>
    rw [List.nodup_cons] at hl
    have hadded : ∀ n, (∃ i, (t.addNode m).name? i = some n) ↔ n = m ∨ ∃ i, t.name? i = some n := by
      intro n
      simp only [name?_addNode]
      constructor
      · rintro ⟨i, hi⟩
        split at hi
        · exact Or.inl (Option.some.inj hi).symm
        · exact Or.inr ⟨i, hi⟩
      · rintro (rfl | ⟨i, hi⟩)
        · exact ⟨t.nodes.size, if_pos rfl⟩
        · exact ⟨i, by rwa [if_neg (Nat.ne_of_lt (lt_of_name? hi))]⟩
    obtain ⟨hsound, houtgoing, hnames⟩ := ih hl.2 (h.addNode (hnew m List.mem_cons_self)) (by
      intro n hn i hi
      rcases (hadded n).1 ⟨i, hi⟩ with rfl | ⟨i, hi⟩
      · exact hl.1 hn
      · exact hnew n (List.mem_cons_of_mem m hn) i hi)
    refine ⟨hsound, fun i => (houtgoing i).trans outgoing_addNode, fun n => ?_⟩
    rw [List.foldl_cons, hnames, hadded, List.mem_cons]
    tauto

theorem isSound_empty : IsSound ⟨#[], ∅⟩ where
  index_iff := by simp [name?]
  lt := by simp [outgoing]
  irrefl := by simp [outgoing]
  mem_incoming := by simp [incoming, outgoing]
  nodup_outgoing := by simp [outgoing]
  nodup_incoming := by simp [incoming]

theorem isSound_ofNodes (names : PackageSet) : (ofNodes names).IsSound :=
  (isSound_foldl_addNode (nodup_toList names) isSound_empty (by simp [name?])).1

theorem toGraph_ofNodes (names : PackageSet) : (ofNodes names).toGraph = .ofNodes names := by
  obtain ⟨hsound, houtgoing, hnames⟩ :=
    isSound_foldl_addNode (nodup_toList names) isSound_empty (by simp [name?])
  refine Graph.eq_of_requires (fun n => ?_) ?_
  · rw [mem_nodes_toGraph, Graph.mem_nodes_ofNodes]
    exact (hnames n).trans (by simp [name?])
  · funext a b
    apply propext
    rw [(isSound_ofNodes names).requires_toGraph]
    refine iff_of_false ?_ Graph.not_requires_ofNodes
    rintro ⟨i, j, -, -, hj⟩
    have hj' : j ∈ outgoing ⟨#[], ∅⟩ i := houtgoing i ▸ hj
    simp [outgoing] at hj'

/-! ### Arrows -/

theorem getElem?_addArrow : (t.addArrow i j).nodes[k]? = t.nodes[k]?.map fun n =>
    ⟨n.name, if k = i then j :: n.outgoing else n.outgoing,
      if k = j then i :: n.incoming else n.incoming⟩ := by
  simp only [addArrow, Array.getElem?_modify, @eq_comm _ _ k]
  cases t.nodes[k]? <;> split <;> split <;> rfl

theorem name?_addArrow : (t.addArrow i j).name? k = t.name? k := by
  rw [name?, getElem?_addArrow, Option.map_map]
  rfl

theorem outgoing_addArrow (hi : i < t.nodes.size) :
    (t.addArrow i j).outgoing k = if k = i then j :: t.outgoing i else t.outgoing k := by
  rw [outgoing, getElem?_addArrow]
  by_cases hk : k = i
  · simp [outgoing, hk, hi]
  · simp [outgoing, hk, Function.comp_def]

theorem incoming_addArrow (hj : j < t.nodes.size) :
    (t.addArrow i j).incoming k = if k = j then i :: t.incoming j else t.incoming k := by
  rw [incoming, getElem?_addArrow]
  by_cases hk : k = j
  · simp [incoming, hk, hj]
  · simp [incoming, hk, Function.comp_def]

theorem mem_outgoing_addArrow (hi : i < t.nodes.size) {l : Nat} :
    l ∈ (t.addArrow i j).outgoing k ↔ k = i ∧ l = j ∨ l ∈ t.outgoing k := by
  rw [outgoing_addArrow hi]
  split
  · next hk => simp [hk]
  · next hk => simp [hk]

theorem IsSound.addArrow (h : t.IsSound) (hi : i < t.nodes.size) (hj : j < t.nodes.size)
    (hne : i ≠ j) (hnew : j ∉ t.outgoing i) : (t.addArrow i j).IsSound where
  index_iff n k := by
    rw [name?_addArrow]
    exact h.index_iff n k
  lt k l hl := by
    have hsize : (t.addArrow i j).nodes.size = t.nodes.size := by simp [NodeTable.addArrow]
    rw [hsize]
    rcases (mem_outgoing_addArrow hi).1 hl with ⟨-, rfl⟩ | hl
    · exact hj
    · exact h.lt k l hl
  irrefl k hk := by
    rcases (mem_outgoing_addArrow hi).1 hk with ⟨rfl, rfl⟩ | hk
    · exact hne rfl
    · exact h.irrefl k hk
  mem_incoming k l := by
    rw [mem_outgoing_addArrow hi, incoming_addArrow hj, ← h.mem_incoming]
    split
    · next hl => simp [hl, h.mem_incoming]
    · next hl => simp [hl]
  nodup_outgoing k := by
    rw [outgoing_addArrow hi]
    split
    · exact List.nodup_cons.2 ⟨hnew, h.nodup_outgoing i⟩
    · exact h.nodup_outgoing k
  nodup_incoming k := by
    rw [incoming_addArrow hj]
    split
    · exact List.nodup_cons.2 ⟨mt (h.mem_incoming i j).1 hnew, h.nodup_incoming j⟩
    · exact h.nodup_incoming k

theorem mem_nodes_addArrow : n ∈ (t.addArrow i j).toGraph.nodes ↔ n ∈ t.toGraph.nodes := by
  simp only [mem_nodes_toGraph, name?_addArrow]

/-! ### Requirements -/

/-- A table and its graph accept the same requirements. -/
theorem IsSound.addRequirement_cases (h : t.IsSound) (a b : PackageName) :
    t.toGraph.accepts a b = false ∧ t.addRequirement a b = (false, t) ∨
      t.toGraph.accepts a b = true ∧ ∃ i j, t.name? i = some a ∧ t.name? j = some b ∧ i ≠ j ∧
        j ∉ t.outgoing i ∧ t.addRequirement a b = (true, t.addArrow i j) := by
  rw [← Bool.not_eq_true, Graph.accepts_iff, mem_nodes_toGraph, mem_nodes_toGraph,
    h.requires_toGraph]
  by_cases hab : a = b
  · exact Or.inl ⟨fun haccepts => haccepts.1 hab, if_pos hab⟩
  · rw [NodeTable.addRequirement, if_neg hab]
    split
    · next i j ha hb =>
      rw [h.index_iff] at ha hb
      have hne : i ≠ j := by
        rintro rfl
        exact hab (Option.some.inj (ha.symm.trans hb))
      split
      · next hold =>
        refine Or.inl ⟨fun haccepts => haccepts.2.2.2 ⟨i, j, ha, hb, ?_⟩, rfl⟩
        exact List.contains_iff_mem.1 hold
      · next hnew =>
        have hnew' : j ∉ t.outgoing i := mt List.contains_iff_mem.2 hnew
        refine Or.inr ⟨⟨hab, ⟨i, ha⟩, ⟨j, hb⟩, ?_⟩, i, j, ha, hb, hne, hnew', rfl⟩
        rintro ⟨i', j', ha', hb', hj⟩
        exact hnew' (h.name?_inj ha' ha ▸ h.name?_inj hb' hb ▸ hj)
    · next hmissing =>
      refine Or.inl ⟨?_, rfl⟩
      rintro ⟨-, ⟨i, ha⟩, ⟨j, hb⟩, -⟩
      exact hmissing i j ((h.index_iff a i).2 ha) ((h.index_iff b j).2 hb)

theorem IsSound.addRequirement (h : t.IsSound) (a b : PackageName) :
    (t.addRequirement a b).2.IsSound ∧
      (t.addRequirement a b).1 = t.toGraph.accepts a b ∧
      (t.addRequirement a b).2.toGraph = t.toGraph.addRequirement a b := by
  rcases h.addRequirement_cases a b with
    ⟨haccepts, hadd⟩ | ⟨haccepts, i, j, ha, hb, hne, hnew, hadd⟩
  · rw [hadd, haccepts, Graph.addRequirement, dif_neg (by simp [haccepts])]
    exact ⟨h, rfl, rfl⟩
  · have hsound := h.addArrow (lt_of_name? ha) (lt_of_name? hb) hne hnew
    rw [hadd, haccepts]
    refine ⟨hsound, rfl, Graph.eq_of_requires (fun n => ?_) ?_⟩
    · rw [mem_nodes_addArrow, Graph.mem_nodes_addRequirement]
    · funext x y
      apply propext
      rw [hsound.requires_toGraph, Graph.requires_addRequirement, h.requires_toGraph]
      obtain ⟨hab, ha', hb', -⟩ := t.toGraph.accepts_iff.1 haccepts
      simp only [name?_addArrow, mem_outgoing_addArrow (lt_of_name? ha), Prod.mk.injEq]
      constructor
      · rintro ⟨k, l, hx, hy, ⟨rfl, rfl⟩ | hl⟩
        · have hxa := Option.some.inj (hx.symm.trans ha)
          have hyb := Option.some.inj (hy.symm.trans hb)
          exact Or.inr ⟨⟨hxa, hyb⟩, ha', hb', hab⟩
        · exact Or.inl ⟨k, l, hx, hy, hl⟩
      · rintro (⟨k, l, hx, hy, hl⟩ | ⟨⟨rfl, rfl⟩, -⟩)
        · exact ⟨k, l, hx, hy, Or.inr hl⟩
        · exact ⟨i, j, ha, hb, Or.inl ⟨rfl, rfl⟩⟩

/-- To add requirements to a table is to add them to its graph. -/
theorem IsSound.foldl_addRequirement (h : t.IsSound) (pairs : List (PackageName × PackageName)) :
    (pairs.foldl (fun t p => (t.addRequirement p.1 p.2).2) t).IsSound ∧
      (pairs.foldl (fun t p => (t.addRequirement p.1 p.2).2) t).toGraph =
        pairs.foldl (fun g p => g.addRequirement p.1 p.2) t.toGraph := by
  induction pairs generalizing t with
  | nil => exact ⟨h, rfl⟩
  | cons p pairs ih =>
    obtain ⟨hsound, -, hgraph⟩ := h.addRequirement p.1 p.2
    rw [List.foldl_cons, List.foldl_cons, ← hgraph]
    exact ih hsound

end NodeTable

end BuildPlan
