import BuildPlan.Proofs.Graph.Sort

/-! # Precedence in a build order

The number of its group tells where a node stands: numbers never fall along the order, nodes have
the same number just if each reaches the other, and nothing reaches a node of a greater number. So
what a part of the order keeps of it can be read off the numbers.
-/
namespace BuildPlan

/-- The number of the group in which a node stands. -/
def BuildOrder.groupNumber (o : BuildOrder) (n : PackageName) : Nat :=
  (o.groups.findIdx? (·.contains n)).getD 0

namespace Graph

variable {g : Graph} {a b : PackageName}

theorem groupNumber_sort {group : List PackageName} {i : Nat} (hi : g.sort.groups[i]? = some group)
    (ha : a ∈ group) : g.sort.groupNumber a = i := by
  have hfind := g.isComponents_sort_groups.findIdx?_eq_some_iff.2 ⟨group, hi, ha⟩
  rw [BuildOrder.groupNumber, hfind, Option.getD_some]

theorem exists_group_sort (ha : a ∈ g.nodes) :
    ∃ group, g.sort.groups[g.sort.groupNumber a]? = some group ∧ a ∈ group := by
  obtain ⟨group, hgroup, hag⟩ := g.isComponents_sort_groups.exists_mem ha
  obtain ⟨i, hi⟩ := List.getElem?_of_mem hgroup
  exact ⟨group, by rwa [groupNumber_sort hi hag], hag⟩

theorem groupNumber_sort_eq_iff (ha : a ∈ g.nodes) (hb : b ∈ g.nodes) :
    g.sort.groupNumber a = g.sort.groupNumber b ↔ g.Joined a b := by
  obtain ⟨group, hgroup, hag⟩ := exists_group_sort ha
  obtain ⟨other, hother, hbo⟩ := exists_group_sort hb
  have hmem := g.isComponents_sort_groups.mem_iff group (List.mem_of_getElem? hgroup) a hag b
  rw [← hmem]
  constructor
  · intro heq
    rw [heq, hother] at hgroup
    rwa [← Option.some.inj hgroup]
  · exact fun hbg => (groupNumber_sort hgroup hbg).symm

theorem Requires.groupNumber_sort_le (h : g.Requires a b) :
    g.sort.groupNumber b ≤ g.sort.groupNumber a := by
  obtain ⟨ha, hb, -⟩ := h.closed
  obtain ⟨group, hgroup, hag⟩ := exists_group_sort ha
  obtain ⟨other, hother, hbo⟩ := exists_group_sort hb
  by_cases hsame : group = other
  · rw [groupNumber_sort hgroup (hsame ▸ hbo)]
  · obtain ⟨-, -, hcanonical⟩ := g.isCondensation_condensation.ofSearches_spec g.components
    obtain ⟨hlt, hget⟩ := List.getElem?_eq_some_iff.1 hgroup
    have hsplit : g.sort.groups = g.sort.groups.take (g.sort.groupNumber a) ++
        group :: g.sort.groups.drop (g.sort.groupNumber a + 1) := by
      rw [← hget, ← List.drop_eq_getElem_cons hlt, List.take_append_drop]
    obtain ⟨hfollow, -⟩ := hcanonical _ _ _ hsplit
    have hdone := hfollow other (List.mem_of_getElem? hother) ⟨hsame, a, hag, b, hbo, h⟩
    obtain ⟨j, hj, hother'⟩ := List.mem_take_iff_getElem.1 hdone
    have hj := Nat.lt_min.1 hj
    rw [groupNumber_sort (List.getElem?_eq_some_iff.2 ⟨hj.2, hother'⟩) hbo]
    exact Nat.le_of_lt hj.1

theorem Reaches.groupNumber_sort_le (h : g.Reaches a b) :
    g.sort.groupNumber b ≤ g.sort.groupNumber a := by
  induction h with
  | refl => exact Nat.le_refl _
  | tail _ hbc ih => exact Nat.le_trans hbc.groupNumber_sort_le ih

theorem pairwise_order_sort (g : Graph) :
    g.sort.order.Pairwise fun a b => g.sort.groupNumber a ≤ g.sort.groupNumber b := by
  rw [order_sort, List.pairwise_flatten]
  constructor
  · intro group hgroup
    obtain ⟨i, hi⟩ := List.getElem?_of_mem hgroup
    refine List.pairwise_of_forall_mem_list fun a ha b hb => ?_
    rw [groupNumber_sort hi ha, groupNumber_sort hi hb]
  · refine List.pairwise_iff_getElem.2 fun i j hi hj hij a ha b hb => ?_
    rw [groupNumber_sort (List.getElem?_eq_getElem hi) ha,
      groupNumber_sort (List.getElem?_eq_getElem hj) hb]
    exact Nat.le_of_lt hij

theorem position?_sort_eq_some_iff {i : Nat} :
    g.sort.position? a = some i ↔ g.sort.order[i]? = some a := by
  rw [BuildOrder.position?, List.findIdx?_eq_some_iff_getElem, List.getElem?_eq_some_iff]
  simp only [beq_iff_eq]
  refine ⟨fun ⟨hi, ha, _⟩ => ⟨hi, ha⟩, fun ⟨hi, ha⟩ => ⟨hi, ha, fun j hj hother => ?_⟩⟩
  exact Nat.ne_of_lt hj (g.nodup_order_sort.getElem_inj_iff.1 (hother.trans ha.symm))

/-- What a node requires has a smaller position, unless the two are on a cycle. -/
theorem position?_sort_lt (hab : g.Reaches a b) (hba : ¬ g.Reaches b a) (ha : a ∈ g.nodes)
    (hb : b ∈ g.nodes) : ∃ i j, g.sort.position? a = some i ∧ g.sort.position? b = some j ∧
      j < i := by
  obtain ⟨i, hi⟩ := List.getElem?_of_mem (mem_order_sort.2 ha)
  obtain ⟨j, hj⟩ := List.getElem?_of_mem (mem_order_sort.2 hb)
  refine ⟨i, j, position?_sort_eq_some_iff.2 hi, position?_sort_eq_some_iff.2 hj, ?_⟩
  by_contra hle
  have hne : g.sort.groupNumber a ≠ g.sort.groupNumber b :=
    fun hsame => hba ((groupNumber_sort_eq_iff ha hb).1 hsame).2
  rcases Nat.eq_or_lt_of_le (Nat.not_lt.1 hle) with rfl | hlt
  · exact hne (Option.some.inj (hi.symm.trans hj) ▸ rfl)
  · obtain ⟨hilt, rfl⟩ := List.getElem?_eq_some_iff.1 hi
    obtain ⟨hjlt, rfl⟩ := List.getElem?_eq_some_iff.1 hj
    have hle := List.pairwise_iff_getElem.1 g.pairwise_order_sort i j hilt hjlt hlt
    exact hne (Nat.le_antisymm hle hab.groupNumber_sort_le)

end Graph

end BuildPlan
