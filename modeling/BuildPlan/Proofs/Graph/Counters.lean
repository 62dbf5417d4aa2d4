import BuildPlan.Proofs.Filter.Leaf
import Mathlib.Data.Set.Card

/-! # The counters of a schedule

Before and after each step a counter stands at the number of groups that its group requires and that
are not in order yet. The ready groups are those of the rest whose counter is at zero, each under
the least of its members. Within a step a counter that is due to be lowered stands above zero, since
its group still waited for the one that is put in order.
-/
namespace BuildPlan

def PackageName.IsLeastOf (n : PackageName) (names : List PackageName) : Prop :=
  n ∈ names ∧ ∀ m ∈ names, (compare n m).isLE

theorem PackageName.Ascending.head?_eq_some_iff {l : List PackageName} (h : Ascending l)
    {n : PackageName} : l.head? = some n ↔ n.IsLeastOf l := by
  cases l with
  | nil => simp [IsLeastOf]
  | cons a l =>
    have hrest := (List.pairwise_cons.1 h).1
    rw [List.head?_cons, Option.some_inj]
    constructor
    · rintro rfl
      refine ⟨List.mem_cons_self, fun m hm => ?_⟩
      rcases List.mem_cons.1 hm with rfl | hm
      · exact Std.ReflCmp.isLE_rfl
      · exact Ordering.isLE_of_eq_lt (hrest m hm)
    · intro ⟨hn, hleast⟩
      rcases List.mem_cons.1 hn with rfl | hn
      · rfl
      · have hle := hleast a List.mem_cons_self
        exact absurd (hrest n hn) (Std.OrientedCmp.not_lt_of_isLE hle)

namespace Condensation

variable {c : Condensation}

theorem mem_groups_iff {group : List PackageName} :
    group ∈ c.groups ↔ ∃ i < c.size, c.members i = group := by
  rw [← map_members]
  simp

theorem head?_members_sorted {i : Nat} {n : PackageName} :
    (c.sorted.members i).head? = some n ↔ n.IsLeastOf (c.sorted.members i) := by
  rw [members_sorted]
  exact (PackageName.ascending_sorted _).head?_eq_some_iff

end Condensation

namespace Schedule

open Condensation

variable {c : Condensation} {done : List Nat} {s : Schedule}

theorem advance_add (s : Schedule) (steps more : Nat) :
    s.advance c (steps + more) = (s.advance c steps).advance c more := by
  induction steps generalizing s with
  | zero => rw [Nat.zero_add, advance]
  | succ steps ih =>
    rw [Nat.succ_add]
    exact ih (s.step c)

theorem stands_advance_start (h : c.Orderly) {steps : Nat} (hsteps : steps ≤ c.size) :
    ∃ done, done.length = steps ∧ c.Greedy done ∧ Stands c done ((start c).advance c steps) ∧
      ((start c).advance c steps).groups = (finish c).groups.take steps := by
  obtain ⟨done, hlen, hdone, hs⟩ := (stands_start h).advance h .nil steps (by simpa using hsteps)
  rw [List.nil_append] at hdone hs
  obtain ⟨more, -, -, hfinish⟩ := hs.advance h hdone (c.size - steps) (by omega)
  rw [← advance_add, Nat.add_sub_cancel' hsteps] at hfinish
  refine ⟨done, hlen, hdone, hs, ?_⟩
  have hgroups : (finish c).groups = (done ++ more).map c.members := hfinish.groups
  rw [hgroups, hs.groups, List.map_append, List.take_left' (by simpa using hlen)]

theorem minKey?_ready_of_keys {n : PackageName} (h : s.ready.keys = [n]) :
    s.ready.minKey? = some n := by
  have hmem : ∀ m, m ∈ s.ready ↔ m = n := fun m => by
    rw [← Std.ExtTreeMap.mem_keys, h, List.mem_singleton]
  refine Std.ExtTreeMap.minKey?_eq_some_iff_mem_and_forall.2 ⟨(hmem n).2 rfl, fun m hm => ?_⟩
  rw [(hmem m).1 hm]
  exact Std.ReflCmp.isLE_rfl

theorem step_eq_midway {n : PackageName} {k : Nat} (hmin : s.ready.minKey? = some n)
    (hk : s.ready[n]? = some k) :
    s.step c = midway c { s with ready := s.ready.erase n } k (c.consumers k) := by
  rw [step, hmin]
  simp only [hk, emit_eq_midway]

theorem count_required_le_waiting {k : Nat} (hk : k ∉ done) (i : Nat) :
    (c.required i).count k ≤ c.waiting done i := by
  refine List.countP_mono_left fun j _ hj => ?_
  obtain rfl : j = k := by simpa using hj
  simpa using hk

/-- A counter that is due to be lowered is not at zero: its group waits for the one that is put in
order, as often as the counter is lowered. -/
theorem Stands.exists_pending_midway (h : c.Orderly) (hdone : c.Greedy done) (hs : Stands c done s)
    {k : Nat} (hk : c.IsReady done k) {n : PackageName} (hn : (c.members k).head? = some n)
    {before after : List Nat} {i : Nat} (hsplit : c.consumers k = before ++ i :: after) :
    ∃ left, (midway c { s with ready := s.ready.erase n } k before).pending[i]? =
      some (left + 1) := by
  have hreleased : before ⊆ c.consumers k := hsplit ▸ List.subset_append_left ..
  have hi : i ∈ c.consumers k := by simp [hsplit]
  obtain ⟨hcounts, -⟩ := hs.counts_midway h hdone hk hn hreleased
  have hlt : before.count i < c.waiting done i := by
    refine Nat.lt_of_lt_of_le ?_ (count_required_le_waiting hk.2.1 i)
    rw [count_required_eq_count_consumers, hsplit, List.count_append, List.count_cons_self]
    omega
  refine ⟨c.waiting done i - before.count i - 1, ?_⟩
  rw [hcounts.pending i (lt_size_and_notMem_of_mem_consumers h hdone hk.2.1 hi).1]
  congr 1
  omega

end Schedule

namespace Graph

variable {g : Graph} {c : Condensation}

namespace IsCondensation

variable (h : g.IsCondensation c)
include h

theorem nodup_required (i : Nat) : (c.sorted.required i).Nodup := by
  refine (List.Nodup.filter _ h.nodup).map_on ?_
  rintro ⟨a, b⟩ ha ⟨a', b'⟩ ha' rfl
  simp only [List.mem_filter, beq_iff_eq] at ha ha'
  rw [ha.2, ha'.2]

theorem mem_map_members_iff {done : List Nat} {i : Nat} (hi : i < c.size) :
    c.sorted.members i ∈ done.map c.sorted.members ↔ i ∈ done := by
  constructor
  · intro hmem
    obtain ⟨j, hj, heq⟩ := List.mem_map.1 hmem
    rwa [h.members_injective hi heq.symm]
  · exact List.mem_map_of_mem

theorem image_members_required {done : List Nat} {i : Nat} (hi : i < c.size) :
    c.sorted.members '' {j | j ∈ (c.sorted.required i).filter (· ∉ done)} =
      {other | other ∈ c.sorted.groups ∧ g.GroupRequires (c.sorted.members i) other ∧
        other ∉ done.map c.sorted.members} := by
  ext other
  simp only [Set.mem_image, Set.mem_ofPred_eq, List.mem_filter, decide_eq_true_eq]
  constructor
  · rintro ⟨j, ⟨hj, hleft⟩, rfl⟩
    have hlt := h.lt_size_of_mem_required hj
    have hother : c.sorted.members j ∈ c.sorted.groups :=
      Condensation.mem_groups_iff.2 ⟨j, by rwa [Condensation.size_sorted], rfl⟩
    exact ⟨hother, (h.groupRequires_iff hi).2 hj, mt (h.mem_map_members_iff hlt).1 hleft⟩
  · intro ⟨hother, hrequires, hleft⟩
    obtain ⟨j, hj, rfl⟩ := Condensation.mem_groups_iff.1 hother
    rw [Condensation.size_sorted] at hj
    exact ⟨j, ⟨(h.groupRequires_iff hi).1 hrequires, mt (h.mem_map_members_iff hj).2 hleft⟩, rfl⟩

/-- What a group waits for can be counted by its arrows or by the groups at their ends. -/
theorem waiting_eq_ncard {done : List Nat} {i : Nat} (hi : i < c.size) :
    c.sorted.waiting done i =
      {other | other ∈ c.sorted.groups ∧ g.GroupRequires (c.sorted.members i) other ∧
        other ∉ done.map c.sorted.members}.ncard := by
  have hinj : Set.InjOn c.sorted.members {j | j ∈ (c.sorted.required i).filter (· ∉ done)} :=
    fun j hj k _ hjk =>
      h.members_injective (h.lt_size_of_mem_required (List.mem_of_mem_filter hj)) hjk
  have hnodup : ((c.sorted.required i).filter (· ∉ done)).Nodup := (h.nodup_required i).filter _
  rw [← h.image_members_required hi, hinj.ncard_image, Condensation.waiting,
    List.countP_eq_length_filter, ← List.toFinset_card_of_nodup hnodup, ← Set.ncard_coe_finset,
    List.coe_toFinset]

end IsCondensation

/-- The counters are exact before each step of a sort, and no step takes one below zero. -/
theorem sort_counters_exact (hc : g.IsCondensation c) {steps : Nat} (hsteps : steps ≤ c.size) :
    let d := c.sorted
    let s := (Schedule.start d).advance d steps
    s.groups = g.sort.groups.take steps ∧
    (s.ready = ∅ ↔ steps = c.size) ∧
    (∀ i < c.size, s.pending[i]? = some
      {other | other ∈ d.groups ∧ g.GroupRequires (d.members i) other ∧ other ∉ s.groups}.ncard) ∧
    (∀ (n : PackageName) (i : Nat), s.ready[n]? = some i ↔
      i < c.size ∧ d.members i ∉ s.groups ∧ s.pending[i]? = some 0 ∧ n.IsLeastOf (d.members i)) ∧
    (∀ i < c.size, ∃ n : PackageName, n.IsLeastOf (d.members i) ∧
      ∀ j < c.size, n.IsLeastOf (d.members j) → i = j) ∧
    ∀ n, s.ready.minKey? = some n → ∃ k, s.ready[n]? = some k ∧
      let chosen := { s with ready := s.ready.erase n }
      s.step d = Schedule.midway d chosen k (d.consumers k) ∧
      ∀ before i after, d.consumers k = before ++ i :: after →
        ∃ left, (Schedule.midway d chosen k before).pending[i]? = some (left + 1) := by
  intro d s
  have h : d.Orderly := hc.orderly
  have hsize : d.size = c.size := Condensation.size_sorted
  obtain ⟨done, hlen, hdone, hs, hgroups⟩ := Schedule.stands_advance_start h (hsize ▸ hsteps)
  have hsort : (Schedule.finish d).groups = g.sort.groups :=
    congrArg BuildOrder.groups (ofSearches_eq_sort g.isComponents_components hc)
  refine ⟨?_, ?_, ?_, ?_, ?_, ?_⟩
  · rw [hgroups, hsort]
  · rw [hs.ready_eq_empty_iff h hdone, hlen, hsize]
  · intro i hi
    rw [hs.counts.pending i (hsize ▸ hi), hc.waiting_eq_ncard hi, hs.groups]
  · intro n i
    rw [hs.counts.ready, Condensation.head?_members_sorted, hsize, hs.groups, and_assoc, and_assoc]
    refine and_congr_right fun hi => ?_
    rw [hc.mem_map_members_iff hi, hs.counts.pending i (hsize ▸ hi), Option.some_inj]
  · intro i hi
    obtain ⟨n, hn⟩ := h.exists_head i (hsize ▸ hi)
    refine ⟨n, Condensation.head?_members_sorted.1 hn, fun j hj hnj => ?_⟩
    exact h.head_injective i (hsize ▸ hi) j (hsize ▸ hj) n hn
      (Condensation.head?_members_sorted.2 hnj)
  · intro n hmin
    obtain ⟨k, hk, hready, hn⟩ := hs.exists_next hmin
    refine ⟨k, hk, ?_, fun before i after hsplit => ?_⟩
    · exact Schedule.step_eq_midway hmin hk
    · exact hs.exists_pending_midway h hdone hready hn hsplit

def tailedCondensation : Condensation :=
  ⟨[[⟨"a"⟩], [⟨"b"⟩, ⟨"c"⟩], [⟨"d"⟩]], [(0, 1), (2, 0)]⟩

theorem condensation_tailedCycle : tailedCycle.condensation = tailedCondensation := by
  decide +kernel

/-- The schedule after its first step, which has put the cycle in order. -/
def tailedSchedule : Schedule :=
  (Schedule.start tailedCondensation.sorted).advance tailedCondensation.sorted 1

theorem tailedSchedule_eq :
    let d := tailedCondensation.sorted
    let s := Schedule.start d
    tailedSchedule = Schedule.midway d { s with ready := s.ready.erase ⟨"b"⟩ } 1 (d.consumers 1) :=
  Schedule.step_eq_midway (Schedule.minKey?_ready_of_keys (by decide +kernel)) (by decide +kernel)

/-- When the cycle is in order `a` is ready, and `d` waits for it. -/
theorem sort_counters_exact_tailedCycle :
    let d := tailedCondensation.sorted
    let s := tailedSchedule
    tailedCycle.IsCondensation tailedCondensation ∧ 1 ≤ tailedCondensation.size ∧
      s.groups = tailedCycle.sort.groups.take 1 ∧ s.ready ≠ ∅ ∧ d.members 2 = [⟨"d"⟩] ∧
      {other | other ∈ d.groups ∧ tailedCycle.GroupRequires [⟨"d"⟩] other ∧
        other ∉ s.groups}.ncard = 1 ∧
      s.ready[PackageName.mk "a"]? = some 0 ∧
      ∃ left, (Schedule.midway d { s with ready := s.ready.erase ⟨"a"⟩ } 0 []).pending[2]? =
        some (left + 1) := by
  intro d s
  have hc : tailedCycle.IsCondensation tailedCondensation :=
    condensation_tailedCycle ▸ tailedCycle.isCondensation_condensation
  have hsize : 1 ≤ tailedCondensation.size := by decide
  obtain ⟨hgroups, hready, hpending, -, -, hnext⟩ := sort_counters_exact hc hsize
  have hmembers : d.members 2 = [⟨"d"⟩] := by decide +kernel
  have hone : tailedSchedule.pending[2]? = some 1 := by
    rw [tailedSchedule_eq]
    decide +kernel
  have ha : tailedSchedule.ready[PackageName.mk "a"]? = some 0 := by
    rw [tailedSchedule_eq]
    decide +kernel
  have hmin : tailedSchedule.ready.minKey? = some ⟨"a"⟩ := by
    refine Schedule.minKey?_ready_of_keys ?_
    rw [tailedSchedule_eq]
    decide +kernel
  obtain ⟨k, hk, -, hlowered⟩ := hnext ⟨"a"⟩ hmin
  obtain rfl := Option.some.inj (ha.symm.trans hk)
  refine ⟨hc, hsize, hgroups, mt hready.1 (by decide), hmembers, ?_, ha, ?_⟩
  · have hcount := (hpending 2 (by decide)).symm.trans hone
    rw [hmembers] at hcount
    exact Option.some.inj hcount
  · exact hlowered [] 2 [] (by decide)

end Graph

end BuildPlan
