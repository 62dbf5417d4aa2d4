import BuildPlan.Graph.Order
import BuildPlan.Proofs.Graph.Component

/-! # Schedules

A schedule counts, for each group, the groups that it still waits for. The counters are exact before
and after each step, so the ready groups are those whose counter is zero, and the steps put all
groups of a graph without cycles in order, each time the least one that is ready.
-/
namespace BuildPlan

namespace Condensation

variable (c : Condensation)

/-- What putting groups in order relies on. -/
structure Orderly : Prop where
  lt_size : ∀ i j, (i, j) ∈ c.arrows → i < c.size ∧ j < c.size
  acyclic : ∃ rank : Nat → Nat, ∀ i j, (i, j) ∈ c.arrows → rank j < rank i
  exists_head : ∀ i < c.size, ∃ n, (c.members i).head? = some n
  head_injective : ∀ i < c.size, ∀ j < c.size, ∀ n,
    (c.members i).head? = some n → (c.members j).head? = some n → i = j

/-- How many of the groups that a group requires are not in order yet. -/
def waiting (done : List Nat) (i : Nat) : Nat := (c.required i).countP fun j => j ∉ done

/-- The group is not in order yet, and all groups that it requires are. -/
def IsReady (done : List Nat) (i : Nat) : Prop :=
  i < c.size ∧ i ∉ done ∧ ∀ j ∈ c.required i, j ∈ done

/-- The group stands before the other one by the names of their first members. -/
def HeadLE (i j : Nat) : Prop :=
  ∀ a b, (c.members i).head? = some a → (c.members j).head? = some b → (compare a b).isLE

/-- Orders of groups in which each one is the least of those that are ready when its turn comes. -/
inductive Greedy : List Nat → Prop
  | nil : Greedy []
  | concat {done i} : Greedy done → c.IsReady done i → (∀ j, c.IsReady done j → c.HeadLE i j) →
    Greedy (done ++ [i])

variable {c}

theorem mem_required {i j : Nat} : j ∈ c.required i ↔ (i, j) ∈ c.arrows := by
  simp [required]

theorem isReady_iff_waiting {done : List Nat} {i : Nat} :
    c.IsReady done i ↔ i < c.size ∧ i ∉ done ∧ c.waiting done i = 0 := by
  simp [IsReady, waiting, List.countP_eq_zero]

theorem count_required_eq_count_consumers (i j : Nat) :
    (c.required i).count j = (c.consumers j).count i := by
  simp only [required, consumers, List.count, List.countP_map, List.countP_filter]
  exact congrFun (congrArg _ (funext fun a => Bool.and_comm _ _)) _

theorem waiting_concat {done : List Nat} {k : Nat} (hk : k ∉ done) (i : Nat) :
    c.waiting (done ++ [k]) i = c.waiting done i - (c.consumers k).count i := by
  rw [← count_required_eq_count_consumers]
  have key : ∀ l : List Nat, (l.countP fun j => j ∉ done) =
      (l.countP fun j => j ∉ done ++ [k]) + l.count k := by
    intro l
    induction l with
    | nil => rfl
    | cons j l ih =>
      have hj : (if j ∉ done then 1 else 0) =
          (if j ∉ done ++ [k] then 1 else 0) + if j = k then 1 else 0 := by
        by_cases h : j = k <;> simp [h, hk]
      simp only [List.countP_cons, List.count_cons, decide_eq_true_eq, beq_iff_eq, ih, hj]
      omega
  rw [waiting, waiting, key (c.required i)]
  omega

theorem Greedy.nodup {done : List Nat} (h : c.Greedy done) : done.Nodup := by
  induction h with
  | nil => exact List.nodup_nil
  | concat _ hi _ ih => exact List.nodup_append.2 ⟨ih, by simp, by grind [IsReady]⟩

theorem Greedy.lt_size {done : List Nat} (h : c.Greedy done) : ∀ i ∈ done, i < c.size := by
  induction h with
  | nil => simp
  | concat _ hi _ ih => grind [IsReady]

theorem Greedy.mem_of_required {done : List Nat} (h : c.Greedy done) :
    ∀ i ∈ done, ∀ j ∈ c.required i, j ∈ done := by
  induction h with
  | nil => simp
  | concat _ hi _ ih => grind [IsReady]

theorem mem_consumers {i j : Nat} : i ∈ c.consumers j ↔ (i, j) ∈ c.arrows := by
  simp [consumers]

/-- In a graph without cycles some group is ready as long as one is left: among those that are left,
one of least rank. -/
theorem Orderly.exists_isReady (h : c.Orderly) {done : List Nat} {i : Nat} (hi : i < c.size)
    (hdone : i ∉ done) : ∃ k, c.IsReady done k := by
  obtain ⟨rank, hrank⟩ := h.acyclic
  induction hr : rank i using Nat.strong_induction_on generalizing i with
  | _ r ih =>
    by_cases hready : c.IsReady done i
    · exact ⟨i, hready⟩
    · obtain ⟨j, hj, hjd⟩ : ∃ j ∈ c.required i, j ∉ done := by
        by_contra hall
        push Not at hall
        exact hready ⟨hi, hdone, hall⟩
      have harrow := mem_required.1 hj
      exact ih (rank j) (hr ▸ hrank i j harrow) (h.lt_size i j harrow).2 hjd rfl

theorem Greedy.subperm_range {done : List Nat} (h : c.Greedy done) :
    done.Subperm (List.range c.size) :=
  List.subperm_of_subset h.nodup fun i hi => List.mem_range.2 (h.lt_size i hi)

theorem Greedy.length_le {done : List Nat} (h : c.Greedy done) : done.length ≤ c.size := by
  simpa using h.subperm_range.length_le

theorem Greedy.perm_range {done : List Nat} (h : c.Greedy done) (hlen : done.length = c.size) :
    done.Perm (List.range c.size) :=
  h.subperm_range.perm_of_length_le (by simp [hlen])

theorem Orderly.exists_isReady_of_length_lt (h : c.Orderly) {done : List Nat}
    (hlen : done.length < c.size) : ∃ k, c.IsReady done k := by
  obtain ⟨i, hi, hleft⟩ : ∃ i < c.size, i ∉ done := by
    by_contra hall
    push Not at hall
    have hsub := List.subperm_of_subset List.nodup_range fun i hi => hall i (List.mem_range.1 hi)
    have := hsub.length_le
    simp at this
    omega
  exact h.exists_isReady hi hleft

end Condensation

namespace Schedule

open Condensation

variable {c : Condensation}

/-- The counters stand at given values, and the ready groups are those of the rest that stand at
zero, each under its first member. -/
structure Counts (c : Condensation) (done : List Nat) (count : Nat → Nat) (s : Schedule) :
    Prop where
  pending : ∀ i < c.size, s.pending[i]? = some (count i)
  ready : ∀ n i, s.ready[n]? = some i ↔
    (i < c.size ∧ i ∉ done ∧ count i = 0) ∧ (c.members i).head? = some n

/-- The schedule has put some groups in order, and its counters are exact. -/
structure Stands (c : Condensation) (done : List Nat) (s : Schedule) : Prop where
  groups : s.groups = done.map c.members
  order : s.order = s.groups.flatten
  counts : Counts c done (c.waiting done) s

theorem Counts.release (h : c.Orderly) {done : List Nat} {count : Nat → Nat} {s : Schedule}
    (hs : Counts c done count s) {k : Nat} (hk : k < c.size) (hdone : k ∉ done) :
    Counts c done (fun i => count i - if k = i then 1 else 0) (s.release c k) := by
  obtain ⟨n, hn⟩ := h.exists_head k hk
  have hpending : ∀ i < c.size,
      (s.pending.modify k (· - 1))[i]? = some (count i - if k = i then 1 else 0) := by
    intro i hi
    rw [List.getElem?_modify, hs.pending i hi]
    split <;> rfl
  have hleft : (s.pending.modify k (· - 1)).getD k 0 = count k - 1 := by
    rw [List.getD_eq_getElem?_getD, hpending k hk]
    simp
  unfold Schedule.release
  dsimp only
  rw [hleft, hn]
  split
  · next hpos =>
    refine ⟨hpending, fun m i => ?_⟩
    rw [hs.ready]
    refine and_congr_left fun _ => and_congr_right fun _ => and_congr_right fun _ => ?_
    by_cases hki : k = i
    · subst hki
      rw [if_pos rfl]
      omega
    · rw [if_neg hki, Nat.sub_zero]
  · next hpos =>
    refine ⟨hpending, fun m i => ?_⟩
    simp only [Std.ExtTreeMap.getElem?_insert, Std.LawfulEqCmp.compare_eq_iff_eq]
    by_cases hm : n = m
    · subst hm
      rw [if_pos rfl]
      constructor
      · intro hki
        obtain rfl := Option.some.inj hki
        exact ⟨⟨hk, hdone, by rw [if_pos rfl]; omega⟩, hn⟩
      · rintro ⟨⟨hi, -, -⟩, hhead⟩
        rw [h.head_injective k hk i hi n hn hhead]
    · rw [if_neg hm, hs.ready]
      refine and_congr_left fun hhead => ?_
      have hki : k ≠ i := by
        rintro rfl
        exact hm (Option.some.inj (hn.symm.trans hhead))
      rw [if_neg hki, Nat.sub_zero]

theorem release_groups (s : Schedule) (k : Nat) : (s.release c k).groups = s.groups := by
  unfold Schedule.release
  dsimp only
  split
  · rfl
  · split <;> rfl

theorem release_order (s : Schedule) (k : Nat) : (s.release c k).order = s.order := by
  unfold Schedule.release
  dsimp only
  split
  · rfl
  · split <;> rfl

theorem Counts.foldl_release (h : c.Orderly) {done : List Nat} {count : Nat → Nat} {s : Schedule}
    (hs : Counts c done count s) (l : List Nat) (hl : ∀ k ∈ l, k < c.size ∧ k ∉ done) :
    Counts c done (fun i => count i - l.count i) (l.foldl (Schedule.release c) s) ∧
      (l.foldl (Schedule.release c) s).groups = s.groups ∧
        (l.foldl (Schedule.release c) s).order = s.order := by
  induction l generalizing s count with
  | nil => exact ⟨hs, rfl, rfl⟩
  | cons k l ih =>
    have hk := hl k List.mem_cons_self
    obtain ⟨hcounts, hgroups, horder⟩ :=
      ih (hs.release h hk.1 hk.2) fun j hj => hl j (List.mem_cons_of_mem _ hj)
    refine ⟨?_, hgroups.trans (release_groups s k), horder.trans (release_order s k)⟩
    refine cast (congrArg (Counts c done · _) ?_) hcounts
    funext i
    rw [List.count_cons, Nat.sub_sub, Nat.add_comm]
    simp

variable (c) in
/-- A schedule in the middle of a step: it has put a group in order, and some of the groups that
require this one have been released. -/
def midway (s : Schedule) (group : Nat) (released : List Nat) : Schedule :=
  released.foldl (release c)
    { s with order := s.order ++ c.members group, groups := s.groups ++ [c.members group] }

theorem emit_eq_midway (s : Schedule) (group : Nat) :
    s.emit c group = midway c s group (c.consumers group) := rfl

theorem lt_size_and_notMem_of_mem_consumers (h : c.Orderly) {done : List Nat}
    (hdone : c.Greedy done) {k : Nat} (hk : k ∉ done) {i : Nat} (hi : i ∈ c.consumers k) :
    i < c.size ∧ i ∉ done ++ [k] := by
  obtain ⟨rank, hrank⟩ := h.acyclic
  have harrow := mem_consumers.1 hi
  refine ⟨(h.lt_size i k harrow).1, fun hmem => ?_⟩
  rcases List.mem_append.1 hmem with hmem | hmem
  · exact hk (hdone.mem_of_required i hmem k (mem_required.2 harrow))
  · obtain rfl := List.mem_singleton.1 hmem
    exact absurd (hrank i i harrow) (Nat.lt_irrefl _)

/-- In the middle of a step the counters of the groups that were released are lower than before it,
each by as often as its group was. -/
theorem Stands.counts_midway (h : c.Orderly) {done : List Nat} (hdone : c.Greedy done)
    {s : Schedule} (hs : Stands c done s) {k : Nat} (hk : c.IsReady done k) {n : PackageName}
    (hn : (c.members k).head? = some n) {released : List Nat}
    (hreleased : released ⊆ c.consumers k) :
    Counts c (done ++ [k]) (fun i => c.waiting done i - released.count i)
        (midway c { s with ready := s.ready.erase n } k released) ∧
      (midway c { s with ready := s.ready.erase n } k released).groups =
        s.groups ++ [c.members k] ∧
      (midway c { s with ready := s.ready.erase n } k released).order = s.order ++ c.members k := by
  have hstart : Counts c (done ++ [k]) (c.waiting done)
      { s with
        order := s.order ++ c.members k
        groups := s.groups ++ [c.members k]
        ready := s.ready.erase n } := by
    refine ⟨hs.counts.pending, fun m i => ?_⟩
    simp only [Std.ExtTreeMap.getElem?_erase, Std.LawfulEqCmp.compare_eq_iff_eq]
    by_cases hm : n = m
    · subst hm
      simp only [if_true, reduceCtorEq, false_iff]
      rintro ⟨⟨hi, hmem, -⟩, hhead⟩
      obtain rfl := h.head_injective k hk.1 i hi n hn hhead
      exact hmem (by simp)
    · rw [if_neg hm, hs.counts.ready]
      refine and_congr_left fun hhead => and_congr_right fun _ => and_congr_left fun _ => ?_
      have hik : i ≠ k := by
        rintro rfl
        exact hm (Option.some.inj (hn.symm.trans hhead))
      simp [hik]
  exact hstart.foldl_release h released fun i hi =>
    lt_size_and_notMem_of_mem_consumers h hdone hk.2.1 (hreleased hi)

theorem Stands.emit (h : c.Orderly) {done : List Nat} (hdone : c.Greedy done) {s : Schedule}
    (hs : Stands c done s) {k : Nat} (hk : c.IsReady done k) {n : PackageName}
    (hn : (c.members k).head? = some n) :
    Stands c (done ++ [k]) (Schedule.emit c { s with ready := s.ready.erase n } k) := by
  obtain ⟨hcounts, hgroups, horder⟩ := hs.counts_midway h hdone hk hn (List.Subset.refl _)
  rw [emit_eq_midway]
  refine ⟨?_, ?_, ?_⟩
  · rw [hgroups, hs.groups, List.map_append, List.map_singleton]
  · rw [horder, hgroups, hs.order, List.flatten_append, List.flatten_singleton]
  · simp only [← waiting_concat hk.2.1] at hcounts
    exact hcounts

theorem mem_idle {pending : List Nat} {n : PackageName} {i : Nat} :
    (n, i) ∈ idle c pending ↔ pending[i]? = some 0 ∧ (c.members i).head? = some n := by
  simp only [idle, List.mem_filterMap, Prod.exists, List.mk_mem_zipIdx_iff_getElem?,
    Option.ite_none_right_eq_some, Option.map_eq_some_iff, Prod.mk.injEq]
  constructor
  · rintro ⟨count, i, hi, rfl, n, hn, rfl, rfl⟩
    exact ⟨hi, hn⟩
  · rintro ⟨hi, hn⟩
    exact ⟨0, i, hi, rfl, n, hn, rfl, rfl⟩

theorem nodup_idle (h : c.Orderly) {pending : List Nat} (hsize : pending.length = c.size) :
    ((idle c pending).map Prod.fst).Nodup := by
  have hnumbers : ((idle c pending).map Prod.snd).Nodup := by
    rw [List.Nodup, List.pairwise_map, idle, List.pairwise_filterMap]
    refine (List.pairwise_map.1 (List.nodup_zipIdx_map_snd pending)).imp ?_
    rintro ⟨_, i⟩ ⟨_, j⟩ hne p hp q hq
    simp only [Option.ite_none_right_eq_some, Option.map_eq_some_iff] at hp hq
    obtain ⟨-, _, -, rfl⟩ := hp
    obtain ⟨-, _, -, rfl⟩ := hq
    exact hne
  refine List.pairwise_map.2 ((List.pairwise_map.1 hnumbers).imp_of_mem ?_)
  rintro ⟨n, i⟩ ⟨m, j⟩ hp hq hne heq
  obtain ⟨hi, hn⟩ := mem_idle.1 hp
  obtain ⟨hj, hm⟩ := mem_idle.1 hq
  obtain ⟨hi, -⟩ := List.getElem?_eq_some_iff.1 hi
  obtain ⟨hj, -⟩ := List.getElem?_eq_some_iff.1 hj
  dsimp only at heq
  subst heq
  exact hne (h.head_injective i (hsize ▸ hi) j (hsize ▸ hj) n hn hm)

theorem counts_start (h : c.Orderly) : Counts c [] (c.waiting []) (start c) := by
  have hpending : ∀ i < c.size, (start c).pending[i]? = some (c.waiting [] i) := by
    intro i hi
    simp [start, waiting, hi]
  refine ⟨hpending, fun n i => ?_⟩
  have hsize : (start c).pending.length = c.size := by simp [start]
  have hready : (start c).ready = .ofList (idle c (start c).pending) := rfl
  rw [hready, getElem?_ofList_eq_some_iff (nodup_idle h hsize), mem_idle]
  refine and_congr_left fun _ => ⟨fun hi => ?_, fun hi => ?_⟩
  · obtain ⟨hlt, -⟩ := List.getElem?_eq_some_iff.1 hi
    have hlt : i < c.size := hsize ▸ hlt
    exact ⟨hlt, List.not_mem_nil, Option.some.inj ((hpending i hlt).symm.trans hi)⟩
  · rw [hpending i hi.1, hi.2.2]

theorem stands_start (h : c.Orderly) : Stands c [] (start c) := ⟨rfl, rfl, counts_start h⟩

theorem Stands.exists_next {done : List Nat} {s : Schedule} (hs : Stands c done s) {n : PackageName}
    (hmin : s.ready.minKey? = some n) :
    ∃ k, s.ready[n]? = some k ∧ c.IsReady done k ∧ (c.members k).head? = some n := by
  obtain ⟨hmem, -⟩ := Std.ExtTreeMap.minKey?_eq_some_iff_mem_and_forall.1 hmin
  obtain ⟨k, hk⟩ := Option.isSome_iff_exists.1 (Std.ExtTreeMap.mem_iff_isSome_getElem?.1 hmem)
  obtain ⟨hwaiting, hn⟩ := (hs.counts.ready n k).1 hk
  exact ⟨k, hk, isReady_iff_waiting.2 hwaiting, hn⟩

/-- A step puts the least ready group in order, and does nothing if there is none. -/
theorem Stands.step (h : c.Orderly) {done : List Nat} (hdone : c.Greedy done) {s : Schedule}
    (hs : Stands c done s) :
    (∃ k, c.Greedy (done ++ [k]) ∧ Stands c (done ++ [k]) (s.step c)) ∨
      (∀ k, ¬ c.IsReady done k) ∧ s.step c = s := by
  unfold Schedule.step
  cases hmin : s.ready.minKey? with
  | none =>
    refine Or.inr ⟨fun k hk => ?_, rfl⟩
    obtain ⟨n, hn⟩ := h.exists_head k hk.1
    have hget := (hs.counts.ready n k).2 ⟨isReady_iff_waiting.1 hk, hn⟩
    rw [Std.ExtTreeMap.minKey?_eq_none_iff] at hmin
    simp [hmin] at hget
  | some n =>
    obtain ⟨-, hleast⟩ := Std.ExtTreeMap.minKey?_eq_some_iff_mem_and_forall.1 hmin
    obtain ⟨k, hk, hready, hn⟩ := hs.exists_next hmin
    simp only [hk]
    refine Or.inl ⟨k, hdone.concat hready fun j hj a b ha hb => ?_, hs.emit h hdone hready hn⟩
    obtain rfl := Option.some.inj (hn.symm.trans ha)
    have hget := (hs.counts.ready b j).2 ⟨isReady_iff_waiting.1 hj, hb⟩
    exact hleast b (Std.ExtTreeMap.mem_iff_isSome_getElem?.2 (by simp [hget]))

theorem Stands.ready_eq_empty_iff (h : c.Orderly) {done : List Nat} (hdone : c.Greedy done)
    {s : Schedule} (hs : Stands c done s) : s.ready = ∅ ↔ done.length = c.size := by
  constructor
  · intro hempty
    by_contra hne
    obtain ⟨k, hk⟩ := h.exists_isReady_of_length_lt (Nat.lt_of_le_of_ne hdone.length_le hne)
    obtain ⟨n, hn⟩ := h.exists_head k hk.1
    have hget := (hs.counts.ready n k).2 ⟨isReady_iff_waiting.1 hk, hn⟩
    simp [hempty] at hget
  · intro hlen
    refine Std.ExtTreeMap.ext_getElem? fun n => ?_
    rw [Std.ExtTreeMap.getElem?_empty, Option.eq_none_iff_forall_ne_some]
    intro i hi
    obtain ⟨⟨hlt, hleft, -⟩, -⟩ := (hs.counts.ready n i).1 hi
    exact hleft ((hdone.perm_range hlen).mem_iff.2 (List.mem_range.2 hlt))

theorem Stands.advance (h : c.Orderly) {done : List Nat} (hdone : c.Greedy done) {s : Schedule}
    (hs : Stands c done s) (steps : Nat) (hsteps : done.length + steps ≤ c.size) :
    ∃ more, more.length = steps ∧ c.Greedy (done ++ more) ∧
      Stands c (done ++ more) (s.advance c steps) := by
  induction steps generalizing done s with
  | zero =>
    refine ⟨[], rfl, ?_⟩
    rw [List.append_nil]
    exact ⟨hdone, hs⟩
  | succ steps ih =>
    rcases hs.step h hdone with ⟨k, hk, hstep⟩ | ⟨hnone, -⟩
    · obtain ⟨more, hlen, hall⟩ := ih hk hstep (by simp; omega)
      refine ⟨k :: more, by simp [hlen], ?_⟩
      rwa [List.append_assoc] at hall
    · have hlen : done.length < c.size := by omega
      obtain ⟨k, hk⟩ := h.exists_isReady_of_length_lt hlen
      exact absurd hk (hnone k)

/-- The steps put every group in order, and then none is ready. -/
theorem finish_spec (h : c.Orderly) :
    ∃ all, all.Perm (List.range c.size) ∧ c.Greedy all ∧ Stands c all (finish c) ∧
      (finish c).ready = ∅ := by
  obtain ⟨all, hlen, hall, hs⟩ :=
    (stands_start h).advance h .nil c.size (by simp)
  exact ⟨all, hall.perm_range hlen, hall, hs, (hs.ready_eq_empty_iff h hall).2 hlen⟩

end Schedule

end BuildPlan
