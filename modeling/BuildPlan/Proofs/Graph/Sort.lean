import BuildPlan.Proofs.Graph.Order

/-! # Sorted graphs

The groups of a sorted graph are its strongly connected components, which agree with the cycles that
a search of its own finds. The order goes through all nodes, requirements first, and depends on
nothing but the nodes and the arrows.
-/
namespace BuildPlan

open Relation

namespace Graph

variable {g : Graph}

/-! ### Cycles -/

theorem IsComponents.getElem?_partners {classes : List (List PackageName)}
    (h : g.IsComponents classes) {n : PackageName} {l : List PackageName} :
    (BuildOrder.partners classes)[n]? = some l ↔
      ∃ c ∈ classes, 2 ≤ c.length ∧ n ∈ c ∧ l = PackageName.sorted (c.filter (· != n)) := by
  have hkeys : (((classes.filter fun c => 2 ≤ c.length).flatMap fun c =>
      c.map fun n => (n, PackageName.sorted (c.filter (· != n)))).map Prod.fst).Nodup := by
    have hflatten : ((classes.filter fun c => 2 ≤ c.length).flatMap fun c =>
        c.map fun n => (n, PackageName.sorted (c.filter (· != n)))).map Prod.fst =
          (classes.filter fun c => 2 ≤ c.length).flatten := by
      simp [List.map_flatMap, Function.comp_def]
    obtain ⟨hnodup, hdisjoint⟩ := List.nodup_flatten.1 h.nodup
    rw [hflatten]
    exact List.nodup_flatten.2
      ⟨fun c hc => hnodup c (List.mem_of_mem_filter hc), hdisjoint.filter _⟩
  rw [BuildOrder.partners, getElem?_ofList_eq_some_iff hkeys]
  simp only [List.mem_flatMap, List.mem_filter, List.mem_map, Prod.mk.injEq, decide_eq_true_eq]
  constructor
  · rintro ⟨c, ⟨hc, hlen⟩, m, hm, rfl, rfl⟩
    exact ⟨c, hc, hlen, hm, rfl⟩
  · rintro ⟨c, hc, hlen, hn, rfl⟩
    exact ⟨c, ⟨hc, hlen⟩, n, hn, rfl, rfl⟩

theorem IsComponents.partners_eq {classes classes' : List (List PackageName)}
    (h : g.IsComponents classes) (h' : g.IsComponents classes') :
    BuildOrder.partners classes = BuildOrder.partners classes' := by
  have key : ∀ {classes classes' : List (List PackageName)}, g.IsComponents classes →
      g.IsComponents classes' → ∀ (n : PackageName) (l : List PackageName),
      (BuildOrder.partners classes)[n]? = some l →
      (BuildOrder.partners classes')[n]? = some l := by
    intro classes classes' h h' n l hl
    obtain ⟨c, hc, hlen, hn, rfl⟩ := h.getElem?_partners.1 hl
    obtain ⟨c', hc', hperm⟩ := h.exists_perm h' hc
    refine h'.getElem?_partners.2 ⟨c', hc', hperm.length_eq ▸ hlen, hperm.mem_iff.1 hn, ?_⟩
    exact PackageName.sorted_congr fun m => (hperm.filter _).mem_iff
  refine Std.ExtTreeMap.ext_getElem? fun n => Option.ext fun l => ?_
  exact ⟨key h h' n l, key h' h n l⟩

/-! ### Sorting -/

theorem isComponents_sort_groups (g : Graph) : g.IsComponents g.sort.groups := by
  obtain ⟨-, hperm, -⟩ := g.isCondensation_condensation.ofSearches_spec g.components
  exact g.isComponents_components.map_sorted.perm hperm.symm

theorem order_sort (g : Graph) : g.sort.order = g.sort.groups.flatten :=
  (g.isCondensation_condensation.ofSearches_spec g.components).1

theorem nodup_order_sort (g : Graph) : g.sort.order.Nodup :=
  g.order_sort ▸ g.isComponents_sort_groups.nodup

theorem mem_order_sort {n : PackageName} : n ∈ g.sort.order ↔ n ∈ g.nodes := by
  rw [order_sort, g.isComponents_sort_groups.mem_flatten]

theorem ascending_of_mem_sort_groups {group : List PackageName} (h : group ∈ g.sort.groups) :
    PackageName.Ascending group := by
  obtain ⟨-, hperm, -⟩ := g.isCondensation_condensation.ofSearches_spec g.components
  obtain ⟨c, -, rfl⟩ := List.mem_map.1 (hperm.mem_iff.1 h)
  exact PackageName.ascending_sorted c

theorem sort_cycles (g : Graph) : g.sort.cycles = BuildOrder.partners g.sort.groups :=
  g.isComponents_components.partners_eq g.isComponents_sort_groups

/-- Sorting does not depend on what its searches find, as long as they find the components. -/
theorem ofSearches_eq_sort {classes : List (List PackageName)} {c : Condensation}
    (hclasses : g.IsComponents classes) (hc : g.IsCondensation c) :
    BuildOrder.ofSearches classes c = g.sort := by
  have hgroups := hc.groups_eq g.isCondensation_condensation classes g.components
  have horder := (hc.ofSearches_spec classes).1
  have horder' := (g.isCondensation_condensation.ofSearches_spec g.components).1
  rw [hgroups, ← horder'] at horder
  have hcycles := hclasses.partners_eq g.isComponents_components
  exact BuildOrder.mk.injEq .. ▸ ⟨horder, hgroups, hcycles⟩

theorem mem_requiredBy {g : Graph} : a ∈ g.requiredBy b ↔ g.Requires a b := by
  simp only [requiredBy, List.mem_filter, Std.ExtTreeSet.contains_iff_mem]
  exact ⟨fun h => h.2, fun h => ⟨h.closed.1, h⟩⟩

theorem ascending_requires (g : Graph) (n : PackageName) :
    PackageName.Ascending (g.requires n) :=
  Std.ExtTreeSet.ordered_toList

theorem ascending_requiredBy (g : Graph) (n : PackageName) :
    PackageName.Ascending (g.requiredBy n) :=
  List.Pairwise.filter _ Std.ExtTreeMap.ordered_keys

theorem eq_of_requires {g g' : Graph} (hnodes : ∀ n, n ∈ g.nodes ↔ n ∈ g'.nodes)
    (hrequires : g.Requires = g'.Requires) : g = g' := by
  have harrows : g.arrows = g'.arrows := by
    refine Std.ExtTreeMap.ext_getElem? fun n => ?_
    have hmem : n ∈ g.arrows ↔ n ∈ g'.arrows := by simpa [nodes] using hnodes n
    have hset : g.requiredSet n = g'.requiredSet n :=
      Std.ExtTreeSet.ext_mem fun m => iff_of_eq (congrFun (congrFun hrequires n) m)
    simp only [Std.ExtTreeMap.mem_iff_isSome_getElem?] at hmem
    cases h : g.arrows[n]? <;> cases h' : g'.arrows[n]? <;>
      simp_all [requiredSet, SetMap.values]
  cases g
  cases g'
  simpa using harrows

/-! ### Cycle members -/

theorem cycleMembers_sort {group : List PackageName} (hgroup : group ∈ g.sort.groups)
    {n : PackageName} (hn : n ∈ group) : g.sort.cycleMembers n = group.filter (· != n) := by
  have h := g.isComponents_sort_groups
  have hfilter : PackageName.sorted (group.filter (· != n)) = group.filter (· != n) :=
    PackageName.Ascending.sorted_eq ((ascending_of_mem_sort_groups hgroup).filter _)
  rw [BuildOrder.cycleMembers, sort_cycles]
  cases hl : (BuildOrder.partners g.sort.groups)[n]? with
  | some l =>
    obtain ⟨d, hd, -, hnd, rfl⟩ := h.getElem?_partners.1 hl
    rw [h.eq_of_mem hd hgroup hnd hn]
    exact hfilter
  | none =>
    have hlen : group.length < 2 := by
      by_contra hlen
      have := h.getElem?_partners.2 ⟨group, hgroup, Nat.le_of_not_lt hlen, hn, rfl⟩
      simp [hl] at this
    obtain ⟨m, rfl⟩ : ∃ m, group = [m] := by
      have := List.length_pos_of_mem hn
      exact List.length_eq_one_iff.1 (by omega)
    obtain rfl := List.mem_singleton.1 hn
    simp

theorem mem_cycleMembers_sort {n m : PackageName} :
    m ∈ g.sort.cycleMembers n ↔ n ∈ g.nodes ∧ m ≠ n ∧ g.Joined n m := by
  have h := g.isComponents_sort_groups
  by_cases hn : n ∈ g.nodes
  · obtain ⟨group, hgroup, hngroup⟩ := h.exists_mem hn
    rw [cycleMembers_sort hgroup hngroup, List.mem_filter, h.mem_iff group hgroup n hngroup]
    simp [hn, and_comm]
  · have hnone : (BuildOrder.partners g.sort.groups)[n]? = none := by
      rw [Option.eq_none_iff_forall_ne_some]
      intro l hl
      obtain ⟨c, hc, -, hnc, -⟩ := h.getElem?_partners.1 hl
      exact hn (h.mem_nodes hc hnc)
    simp [BuildOrder.cycleMembers, sort_cycles, hnone, hn]

theorem mem_cycleMembers_sort_comm {n m : PackageName} :
    m ∈ g.sort.cycleMembers n ↔ n ∈ g.sort.cycleMembers m := by
  rw [mem_cycleMembers_sort, mem_cycleMembers_sort]
  constructor
  · rintro ⟨hn, hne, h⟩
    exact ⟨h.1.mem_nodes hn, hne.symm, h.symm⟩
  · rintro ⟨hm, hne, h⟩
    exact ⟨h.1.mem_nodes hm, hne.symm, h.symm⟩

theorem mem_downward_of_mem_cycleMembers {a b : PackageName}
    (h : b ∈ g.sort.cycleMembers a) : b ∈ g.downward a := by
  obtain ⟨ha, -, hjoined⟩ := mem_cycleMembers_sort.1 h
  exact g.mem_downward.2 ⟨ha, hjoined.1⟩

theorem exists_group_iff_joined {a b : PackageName} (ha : a ∈ g.nodes) :
    (∃ group ∈ g.sort.groups, a ∈ group ∧ b ∈ group) ↔ g.Joined a b := by
  have h := g.isComponents_sort_groups
  constructor
  · rintro ⟨group, hgroup, hag, hbg⟩
    exact (h.mem_iff group hgroup a hag b).1 hbg
  · intro hjoined
    obtain ⟨group, hgroup, hag⟩ := h.exists_mem ha
    exact ⟨group, hgroup, hag, (h.mem_iff group hgroup a hag b).2 hjoined⟩

/-- A node has cycle members just if a path leads from it back to it. -/
theorem cycleMembers_sort_eq_nil_iff {n : PackageName} :
    g.sort.cycleMembers n = [] ↔ ¬ TransGen g.Requires n n := by
  rw [List.eq_nil_iff_forall_not_mem]
  constructor
  · intro hnone hcycle
    obtain ⟨m, hnm, hmn⟩ := TransGen.head'_iff.1 hcycle
    obtain ⟨hn, -, hne⟩ := hnm.closed
    exact hnone m (mem_cycleMembers_sort.2 ⟨hn, hne, .single hnm, hmn⟩)
  · intro hcycle m hm
    obtain ⟨-, hne, hnm, hmn⟩ := mem_cycleMembers_sort.1 hm
    obtain rfl | ⟨k, hnk, hkm⟩ := hnm.cases_head
    · exact hne rfl
    · exact hcycle (TransGen.head' hnk (hkm.trans hmn))

/-! ### Sorting graphs that were built by adding requirements -/

/-- The groups are the strongly connected components of the effective arrows, each in order of
names, and the cycle members of a node are the others of its group. -/
theorem sort_groups_eq_components (nodes : PackageSet)
    (pairs : List (PackageName × PackageName)) :
    let g := ofRequirements nodes pairs
    let o := g.sort
    let Reach := ReflTransGen (Effective nodes pairs)
    (∀ n, n ∈ nodes ↔ ∃ group ∈ o.groups, n ∈ group) ∧
    o.groups.Pairwise List.Disjoint ∧
    (∀ group ∈ o.groups, group ≠ [] ∧ PackageName.Ascending group) ∧
    (∀ a ∈ nodes, ∀ b ∈ nodes,
      (∃ group ∈ o.groups, a ∈ group ∧ b ∈ group) ↔ Reach a b ∧ Reach b a) ∧
    (∀ group ∈ o.groups, ∀ n ∈ group, o.cycleMembers n = group.filter (· != n)) ∧
    (∀ n, o.cycleMembers n = [] ↔ ¬ TransGen (Effective nodes pairs) n n) ∧
    (∀ n, n ∉ o.cycleMembers n) ∧
    (∀ n m, m ∈ o.cycleMembers n ↔ n ∈ o.cycleMembers m) ∧
    (∀ n m, m ∈ o.cycleMembers n →
      ∀ k, k = n ∨ k ∈ o.cycleMembers n ↔ k = m ∨ k ∈ o.cycleMembers m) ∧
    ∀ classes, g.IsComponents classes → BuildOrder.partners classes = o.cycles := by
  intro g o Reach
  have h : g.IsComponents o.groups := g.isComponents_sort_groups
  have hnodes : ∀ n, n ∈ g.nodes ↔ n ∈ nodes := fun n => mem_nodes_ofRequirements
  have hrequires : g.Requires = Effective nodes pairs := requires_ofRequirements nodes pairs
  have hreach : ∀ a b, Reach a b ∧ Reach b a ↔ g.Joined a b := fun a b => by
    rw [Joined, Reaches, hrequires]
  refine ⟨fun n => ?_, (List.nodup_flatten.1 h.nodup).2, fun group hgroup => ?_,
    fun a ha b _ => ?_, fun group hgroup n hn => cycleMembers_sort hgroup hn, fun n => ?_,
    fun n hn => (mem_cycleMembers_sort.1 hn).2.1 rfl, fun n m => mem_cycleMembers_sort_comm,
    fun n m hm k => ?_, fun classes hclasses => hclasses.partners_eq g.isComponents_components⟩
  · rw [← hnodes, ← h.mem_flatten, List.mem_flatten]
  · exact ⟨h.ne_nil group hgroup, ascending_of_mem_sort_groups hgroup⟩
  · rw [hreach]
    constructor
    · rintro ⟨group, hgroup, hag, hbg⟩
      exact (h.mem_iff group hgroup a hag b).1 hbg
    · intro hab
      obtain ⟨group, hgroup, hag⟩ := h.exists_mem ((hnodes a).2 ha)
      exact ⟨group, hgroup, hag, (h.mem_iff group hgroup a hag b).2 hab⟩
  · rw [← hrequires]
    exact cycleMembers_sort_eq_nil_iff
  · obtain ⟨hn, -, hnm⟩ := mem_cycleMembers_sort.1 hm
    obtain ⟨group, hgroup, hng⟩ := h.exists_mem hn
    have hmg := (h.mem_iff group hgroup n hng m).2 hnm
    rw [cycleMembers_sort hgroup hng, cycleMembers_sort hgroup hmg]
    simp only [List.mem_filter, bne_iff_ne]
    grind

/-- The order goes through the groups one by one, each as soon as all groups that it requires are
through, and of two groups that could be next the one with the smaller first name. -/
theorem sort_order_canonical (nodes : PackageSet) (pairs : List (PackageName × PackageName)) :
    let g := ofRequirements nodes pairs
    let o := g.sort
    o.order = o.groups.flatten ∧ o.order.Nodup ∧ (∀ n, n ∈ o.order ↔ n ∈ nodes) ∧
    (∀ done group rest, o.groups = done ++ group :: rest →
      (∀ other ∈ o.groups, g.GroupRequires group other → other ∈ done) ∧
      ∀ other ∈ rest,
        (∀ required ∈ o.groups, g.GroupRequires other required → required ∈ done) →
          Precedes group other) ∧
    ∀ pairs', (∀ a b, Effective nodes pairs' a b ↔ Effective nodes pairs a b) →
      (ofRequirements nodes pairs').sort = o ∧
      ∀ classes c, (ofRequirements nodes pairs').IsComponents classes →
        (ofRequirements nodes pairs').IsCondensation c → BuildOrder.ofSearches classes c = o := by
  intro g o
  obtain ⟨-, -, hcanonical⟩ := g.isCondensation_condensation.ofSearches_spec g.components
  refine ⟨g.order_sort, g.nodup_order_sort, fun n => ?_, hcanonical, fun pairs' hpairs => ?_⟩
  · exact mem_order_sort.trans mem_nodes_ofRequirements
  · have hg : ofRequirements nodes pairs' = g := by
      refine eq_of_requires (fun n => ?_) ?_
      · rw [mem_nodes_ofRequirements, mem_nodes_ofRequirements]
      · rw [requires_ofRequirements, requires_ofRequirements]
        funext a b
        exact propext (hpairs a b)
    rw [hg]
    exact ⟨rfl, fun classes c hclasses hc => ofSearches_eq_sort hclasses hc⟩

end Graph

end BuildPlan
