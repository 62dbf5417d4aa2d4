import BuildPlan.Graph.Component
import BuildPlan.Proofs.Graph.Reach
import Mathlib.Data.List.Sigma

/-! # Components and condensations

What a search for the components of a graph may find, whatever the order in which it lists them,
and what a condensation of the graph is. The searches of this library find nothing else.
-/
namespace BuildPlan

theorem PackageName.mem_sorted {names : List PackageName} {n : PackageName} :
    n ∈ sorted names ↔ n ∈ names := by
  simp [sorted]

def PackageName.Ascending (names : List PackageName) : Prop :=
  names.Pairwise fun a b => compare a b = .lt

theorem PackageName.ascending_sorted (names : List PackageName) : Ascending (sorted names) :=
  Std.ExtTreeSet.ordered_toList

theorem PackageName.Ascending.nodup {l : List PackageName} (h : Ascending l) : l.Nodup :=
  h.imp fun {a b} hab e => by simp [e] at hab

theorem PackageName.Ascending.eq_of_mem_iff {l l' : List PackageName} (h : Ascending l)
    (h' : Ascending l') (hmem : ∀ n, n ∈ l ↔ n ∈ l') : l = l' := by
  have hperm : l.Perm l' := (List.perm_ext_iff_of_nodup h.nodup h'.nodup).2 hmem
  refine hperm.eq_of_pairwise ?_ h h'
  intro a b _ _ hab hba
  exact absurd hba (Std.OrientedCmp.not_lt_of_lt hab)

theorem PackageName.sorted_congr {l l' : List PackageName} (h : ∀ n, n ∈ l ↔ n ∈ l') :
    sorted l = sorted l' :=
  (ascending_sorted l).eq_of_mem_iff (ascending_sorted l') fun n => by
    rw [mem_sorted, mem_sorted, h]

theorem PackageName.Ascending.sorted_eq {l : List PackageName} (h : Ascending l) : sorted l = l :=
  (ascending_sorted l).eq_of_mem_iff h fun _ => mem_sorted

theorem Condensation.mem_members {c : Condensation} {i : Nat} {n : PackageName} :
    n ∈ c.members i ↔ ∃ members, c.groups[i]? = some members ∧ n ∈ members := by
  rw [members, List.getD_eq_getElem?_getD]
  cases c.groups[i]? <;> simp

namespace Graph

variable (g : Graph)

/-- Each of the two reaches the other. -/
def Joined (a b : PackageName) : Prop := g.Reaches a b ∧ g.Reaches b a

/-- A list of the components: each once, in any order, its members once each, in any order. -/
structure IsComponents (classes : List (List PackageName)) : Prop where
  mem_flatten : ∀ n, n ∈ classes.flatten ↔ n ∈ g.nodes
  nodup : classes.flatten.Nodup
  ne_nil : ∀ c ∈ classes, c ≠ []
  mem_iff : ∀ c ∈ classes, ∀ a ∈ c, ∀ b, b ∈ c ↔ g.Joined a b

/-- The components with one arrow from each to every other one that a member of it requires. -/
structure IsCondensation (c : Condensation) : Prop where
  components : g.IsComponents c.groups
  nodup : c.arrows.Nodup
  arrow_iff : ∀ i j, (i, j) ∈ c.arrows ↔
    i ≠ j ∧ ∃ a ∈ c.members i, ∃ b ∈ c.members j, g.Requires a b

variable {g}

theorem Joined.refl (a : PackageName) : g.Joined a a := ⟨.refl, .refl⟩

theorem Joined.symm {a b : PackageName} (h : g.Joined a b) : g.Joined b a := ⟨h.2, h.1⟩

theorem Joined.trans {a b c : PackageName} (h : g.Joined a b) (h' : g.Joined b c) :
    g.Joined a c := ⟨h.1.trans h'.1, h'.2.trans h.2⟩

theorem Reaches.mem_nodes {a b : PackageName} (h : g.Reaches a b) (ha : a ∈ g.nodes) :
    b ∈ g.nodes := by
  cases h with
  | refl => exact ha
  | tail _ hcb => exact hcb.closed.2.1

section Downward

variable {a b : PackageName}

theorem downward_eq_empty (ha : a ∉ g.nodes) : g.downward a = ∅ := by
  apply Std.ExtTreeSet.ext_mem
  simp [mem_downward, ha]

theorem mem_downward_self (ha : a ∈ g.nodes) : a ∈ g.downward a :=
  g.mem_downward.2 ⟨ha, .refl⟩

theorem mem_downward_iff_subset (hb : b ∈ g.nodes) :
    b ∈ g.downward a ↔ ∀ n ∈ g.downward b, n ∈ g.downward a := by
  constructor
  · intro hab n hn
    obtain ⟨ha, hab⟩ := g.mem_downward.1 hab
    obtain ⟨-, hbn⟩ := g.mem_downward.1 hn
    exact g.mem_downward.2 ⟨ha, hab.trans hbn⟩
  · intro hsubset
    exact hsubset b (mem_downward_self hb)

theorem downward_eq_iff_joined (ha : a ∈ g.nodes) (hb : b ∈ g.nodes) :
    g.downward a = g.downward b ↔ g.Joined a b := by
  constructor
  · intro heq
    have hba : b ∈ g.downward a := heq ▸ mem_downward_self hb
    have hab : a ∈ g.downward b := heq ▸ mem_downward_self ha
    exact ⟨(g.mem_downward.1 hba).2, (g.mem_downward.1 hab).2⟩
  · intro hjoined
    apply Std.ExtTreeSet.ext_mem
    intro n
    constructor
    · exact (mem_downward_iff_subset ha).1 (g.mem_downward.2 ⟨hb, hjoined.2⟩) n
    · exact (mem_downward_iff_subset hb).1 (g.mem_downward.2 ⟨ha, hjoined.1⟩) n

end Downward

namespace IsComponents

variable {classes : List (List PackageName)} (h : g.IsComponents classes)
include h

theorem index_unique {i j : Nat} {c d : List PackageName} (hi : classes[i]? = some c)
    (hj : classes[j]? = some d) {n : PackageName} (hc : n ∈ c) (hd : n ∈ d) : i = j := by
  have hpair := List.pairwise_iff_getElem.1 (List.nodup_flatten.1 h.nodup).2
  obtain ⟨hi', rfl⟩ := List.getElem?_eq_some_iff.1 hi
  obtain ⟨hj', rfl⟩ := List.getElem?_eq_some_iff.1 hj
  rcases Nat.lt_trichotomy i j with hlt | heq | hgt
  · exact absurd hd (hpair i j hi' hj' hlt hc)
  · exact heq
  · exact absurd hc (hpair j i hj' hi' hgt hd)

theorem eq_of_mem {c d : List PackageName} (hc : c ∈ classes) (hd : d ∈ classes)
    {n : PackageName} (hnc : n ∈ c) (hnd : n ∈ d) : c = d := by
  obtain ⟨i, hi⟩ := List.getElem?_of_mem hc
  obtain ⟨j, hj⟩ := List.getElem?_of_mem hd
  obtain rfl := h.index_unique hi hj hnc hnd
  exact Option.some.inj (hi.symm.trans hj)

theorem exists_mem {n : PackageName} (hn : n ∈ g.nodes) : ∃ c ∈ classes, n ∈ c :=
  List.mem_flatten.1 ((h.mem_flatten n).2 hn)

theorem mem_nodes {c : List PackageName} (hc : c ∈ classes) {n : PackageName} (hn : n ∈ c) :
    n ∈ g.nodes := (h.mem_flatten n).1 (List.mem_flatten.2 ⟨c, hc, hn⟩)

theorem findIdx?_eq_some_iff {n : PackageName} {i : Nat} :
    classes.findIdx? (·.contains n) = some i ↔ ∃ c, classes[i]? = some c ∧ n ∈ c := by
  rw [List.findIdx?_eq_some_iff_getElem]
  constructor
  · rintro ⟨hi, hn, -⟩
    exact ⟨classes[i], List.getElem?_eq_getElem hi, by simpa using hn⟩
  · rintro ⟨c, hc, hn⟩
    obtain ⟨hi, rfl⟩ := List.getElem?_eq_some_iff.1 hc
    refine ⟨hi, by simpa using hn, fun j hj hnj => ?_⟩
    have hget := List.getElem?_eq_getElem (Nat.lt_trans hj hi)
    have := h.index_unique hget hc (by simpa using hnj) hn
    omega

end IsComponents

/-! ### The searches -/

variable (g)

theorem mem_values_reach {n m : PackageName} :
    m ∈ SetMap.values g.reach n ↔ n ∈ g.nodes ∧ g.Reaches n m := by
  have hget : g.reach[n]? = g.arrows[n]?.map fun _ => g.downward n := by
    rw [reach, Std.ExtTreeMap.getElem?_map]
  rw [SetMap.values, hget]
  cases harr : g.arrows[n]? with
  | none =>
    have hn : n ∉ g.nodes := by
      rw [nodes, Std.ExtTreeMap.mem_keys, Std.ExtTreeMap.mem_iff_isSome_getElem?, harr]
      simp
    simp [hn]
  | some s => simpa using g.mem_downward

theorem mem_component {n m : PackageName} :
    m ∈ component g.reach n ↔ n ∈ g.nodes ∧ g.Joined n m := by
  rw [component, Std.ExtTreeSet.mem_filter, Joined]
  simp only [Std.ExtTreeSet.get_eq, Std.ExtTreeSet.contains_iff_mem, mem_values_reach,
    exists_prop]
  constructor
  · rintro ⟨⟨hn, hnm⟩, -, hmn⟩
    exact ⟨hn, hnm, hmn⟩
  · rintro ⟨hn, hnm, hmn⟩
    exact ⟨⟨hn, hnm⟩, hnm.mem_nodes hn, hmn⟩

theorem component_congr {n m : PackageName} (hn : n ∈ g.nodes) (h : g.Joined n m) :
    component g.reach n = component g.reach m := by
  refine Std.ExtTreeSet.ext_mem fun k => ?_
  rw [mem_component, mem_component]
  exact ⟨fun hk => ⟨h.1.mem_nodes hn, h.symm.trans hk.2⟩, fun hk => ⟨hn, h.trans hk.2⟩⟩

theorem mem_components {c : List PackageName} :
    c ∈ g.components ↔
      ∃ n ∈ g.nodes, c.head? = some n ∧ (component g.reach n).toList = c := by
  simp only [components, List.mem_filterMap]
  constructor
  · rintro ⟨n, hn, h⟩
    split at h
    · next hhead =>
      obtain rfl := Option.some.inj h
      exact ⟨n, hn, hhead, rfl⟩
    · simp at h
  · rintro ⟨n, hn, hhead, rfl⟩
    exact ⟨n, hn, if_pos hhead⟩

theorem isComponents_components : g.IsComponents g.components where
  mem_flatten n := by
    rw [List.mem_flatten]
    constructor
    · rintro ⟨c, hc, hn⟩
      obtain ⟨a, ha, -, rfl⟩ := g.mem_components.1 hc
      rw [Std.ExtTreeSet.mem_toList, mem_component] at hn
      exact hn.2.1.mem_nodes ha
    · intro hn
      have hself : n ∈ (component g.reach n).toList :=
        Std.ExtTreeSet.mem_toList.2 (g.mem_component.2 ⟨hn, .refl n⟩)
      obtain ⟨a, ha⟩ := Option.isSome_iff_exists.1 (List.isSome_head?.2 (List.ne_nil_of_mem hself))
      have hna := g.mem_component.1 (Std.ExtTreeSet.mem_toList.1 (List.mem_of_head? ha))
      refine ⟨_, g.mem_components.2 ⟨a, hna.2.1.mem_nodes hn, ha, ?_⟩, hself⟩
      rw [g.component_congr hn hna.2]
  nodup := by
    rw [List.nodup_flatten]
    constructor
    · intro c hc
      obtain ⟨a, -, -, rfl⟩ := g.mem_components.1 hc
      exact nodup_toList _
    · rw [components, List.pairwise_filterMap]
      refine Std.ExtTreeMap.nodup_keys.imp fun {a b} hab c hc d hd n hnc hnd => hab ?_
      simp only [Option.ite_none_right_eq_some, Option.some.injEq] at hc hd
      obtain ⟨hheadc, rfl⟩ := hc
      obtain ⟨hheadd, rfl⟩ := hd
      rw [Std.ExtTreeSet.mem_toList, mem_component] at hnc hnd
      rw [g.component_congr hnc.1 (hnc.2.trans hnd.2.symm), hheadd] at hheadc
      exact (Option.some.inj hheadc).symm
  ne_nil c hc := by
    obtain ⟨a, -, hhead, -⟩ := g.mem_components.1 hc
    rintro rfl
    simp at hhead
  mem_iff c hc a hac b := by
    obtain ⟨n, hn, -, rfl⟩ := g.mem_components.1 hc
    rw [Std.ExtTreeSet.mem_toList, mem_component] at hac ⊢
    exact ⟨fun hb => hac.2.symm.trans hb.2, fun hb => ⟨hn, hac.2.trans hb⟩⟩

theorem mem_requiredGroups {members : List PackageName} {j : Nat} :
    j ∈ g.requiredGroups g.components members ↔
      ∃ a ∈ members, ∃ b ∈ g.condensation.members j, g.Requires a b := by
  simp only [requiredGroups, Std.ExtTreeSet.mem_ofList, List.contains_iff_mem,
    List.mem_filterMap, List.mem_flatMap, g.isComponents_components.findIdx?_eq_some_iff,
    requires, Std.ExtTreeSet.mem_toList]
  constructor
  · rintro ⟨b, ⟨a, ha, hab⟩, hb⟩
    exact ⟨a, ha, b, Condensation.mem_members.2 hb, hab⟩
  · rintro ⟨a, ha, b, hb, hab⟩
    exact ⟨b, ⟨a, ha, hab⟩, Condensation.mem_members.1 hb⟩

theorem mem_arrows_condensation {i j : Nat} :
    (i, j) ∈ g.condensation.arrows ↔ i ≠ j ∧
      ∃ members, g.components[i]? = some members ∧ j ∈ g.requiredGroups g.components members := by
  simp only [condensation, List.mem_flatMap, List.mem_map, Prod.exists,
    List.mk_mem_zipIdx_iff_getElem?, Prod.mk.injEq, Std.ExtTreeSet.mem_toList,
    Std.ExtTreeSet.mem_erase, ne_eq, Std.LawfulEqCmp.compare_eq_iff_eq]
  constructor
  · rintro ⟨members, i, hi, j, ⟨hne, hj⟩, rfl, rfl⟩
    exact ⟨hne, members, hi, hj⟩
  · rintro ⟨hne, members, hi, hj⟩
    exact ⟨members, i, hi, j, ⟨hne, hj⟩, rfl, rfl⟩

theorem isCondensation_condensation : g.IsCondensation g.condensation where
  components := g.isComponents_components
  nodup := by
    rw [condensation, List.nodup_flatMap]
    constructor
    · rintro ⟨members, i⟩ -
      exact (nodup_toList _).map fun j k h => (Prod.mk.inj h).2
    · refine (List.pairwise_map.1 (List.nodup_zipIdx_map_snd g.components)).imp ?_
      rintro ⟨members, i⟩ ⟨members', i'⟩ hne a ha ha'
      simp only [List.mem_map] at ha ha'
      obtain ⟨j, -, rfl⟩ := ha
      obtain ⟨j', -, h⟩ := ha'
      exact hne (Prod.mk.inj h).1.symm
  arrow_iff i j := by
    rw [mem_arrows_condensation]
    refine and_congr_right fun _ => ?_
    constructor
    · rintro ⟨members, hi, hj⟩
      obtain ⟨a, ha, hb⟩ := g.mem_requiredGroups.1 hj
      exact ⟨a, Condensation.mem_members.2 ⟨members, hi, ha⟩, hb⟩
    · rintro ⟨a, ha, hb⟩
      obtain ⟨members, hi, ha⟩ := Condensation.mem_members.1 ha
      exact ⟨members, hi, g.mem_requiredGroups.2 ⟨a, ha, hb⟩⟩

end Graph

end BuildPlan
