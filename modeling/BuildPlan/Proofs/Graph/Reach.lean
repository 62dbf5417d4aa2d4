import BuildPlan.Graph
import BuildPlan.Proofs.Multimap
import Mathlib.Data.List.Induction
import Mathlib.Logic.Relation

/-! # Reachability

Spreading from a node finds exactly what the arrows lead to from it: no path is longer than the
graph has nodes, so the rounds suffice. The arrows of a graph that was built by adding requirements
are those that join two different nodes.
-/
namespace BuildPlan

open Relation

section Spread

variable {next : PackageSet → PackageSet} {r : PackageName → PackageName → Prop}

theorem mem_spread_of_mem {m : PackageName} (rounds : Nat) (frontier seen : PackageSet)
    (hm : m ∈ seen) : m ∈ spread next rounds frontier seen := by
  induction rounds generalizing frontier seen with
  | zero => exact hm
  | succ rounds ih =>
    simp only [spread]
    split
    · exact hm
    · exact ih _ _ (by simp [hm])

variable (hnext : ∀ s m, m ∈ next s ↔ ∃ n ∈ s, r n m)
include hnext

theorem reaches_of_mem_spread {a m : PackageName} (rounds : Nat) (frontier seen : PackageSet)
    (hf : ∀ n ∈ frontier, ReflTransGen r a n) (hs : ∀ n ∈ seen, ReflTransGen r a n)
    (hm : m ∈ spread next rounds frontier seen) : ReflTransGen r a m := by
  induction rounds generalizing frontier seen with
  | zero => exact hs m hm
  | succ rounds ih =>
    simp only [spread] at hm
    split at hm
    · exact hs m hm
    · have hfresh : ∀ n ∈ next frontier \ seen, ReflTransGen r a n := by
        intro n hn
        rw [Std.ExtTreeSet.mem_diff_iff, hnext] at hn
        obtain ⟨⟨b, hb, hbn⟩, -⟩ := hn
        exact (hf b hb).tail hbn
      refine ih _ _ hfresh (fun n hn => ?_) hm
      exact (Std.ExtTreeSet.mem_union_iff.1 hn).elim (hs n) (hfresh n)

/-- What spreading ends with is closed, if it cannot run out of rounds before it runs out of new
nodes: each round but the last finds one. -/
theorem spread_closed {nodes : List PackageName} (hu : ∀ n m, r n m → m ∈ nodes)
    (rounds : Nat) (frontier seen : PackageSet) (hf : ∀ n ∈ frontier, n ∈ seen)
    (hs : ∀ n ∈ seen, n ∈ nodes)
    (hold : ∀ n ∈ seen, n ∉ frontier → ∀ m, r n m → m ∈ seen)
    (hrounds : nodes.length < seen.size + rounds) {n m : PackageName}
    (hn : n ∈ spread next rounds frontier seen) (hnm : r n m) :
    m ∈ spread next rounds frontier seen := by
  induction rounds generalizing frontier seen with
  | zero =>
    have := size_le_length hs
    omega
  | succ rounds ih =>
    simp only [spread] at hn ⊢
    have hnew : ∀ n ∈ frontier, ∀ m, r n m → m ∈ seen ∨ m ∈ next frontier \ seen := by
      intro n hn m hnm
      by_cases hm : m ∈ seen
      · exact Or.inl hm
      · exact Or.inr (Std.ExtTreeSet.mem_diff_iff.2 ⟨(hnext _ _).2 ⟨n, hn, hnm⟩, hm⟩)
    split at hn
    · next hempty =>
      rw [if_pos hempty]
      by_cases hfn : n ∈ frontier
      · exact (hnew n hfn m hnm).resolve_right (isEmpty_iff_forall_notMem.1 hempty m)
      · exact hold n hn hfn m hnm
    · next hempty =>
      rw [if_neg hempty]
      obtain ⟨b, hb⟩ : ∃ b, b ∈ next frontier \ seen := by
        by_contra h
        exact hempty (isEmpty_iff_forall_notMem.2 fun b hb => h ⟨b, hb⟩)
      have hgrow : seen.size < (seen ∪ (next frontier \ seen)).size :=
        size_lt_size (fun a ha => by simp [ha]) (Std.ExtTreeSet.mem_diff_iff.1 hb).2
          (Std.ExtTreeSet.mem_union_iff.2 (Or.inr hb))
      refine ih _ _ (fun n hn => Std.ExtTreeSet.mem_union_iff.2 (Or.inr hn)) ?_ ?_ (by omega) hn
      · intro n hn
        rcases Std.ExtTreeSet.mem_union_iff.1 hn with hn | hn
        · exact hs n hn
        · obtain ⟨b, -, hbn⟩ := (hnext _ _).1 (Std.ExtTreeSet.mem_diff_iff.1 hn).1
          exact hu b n hbn
      · intro n hn hfn m hnm
        have hseen := (Std.ExtTreeSet.mem_union_iff.1 hn).resolve_right hfn
        rw [Std.ExtTreeSet.mem_union_iff]
        by_cases hfront : n ∈ frontier
        · exact hnew n hfront m hnm
        · exact Or.inl (hold n hseen hfront m hnm)

theorem mem_spread_iff {nodes : List PackageName} (hu : ∀ n m, r n m → m ∈ nodes)
    {a m : PackageName} (ha : a ∈ nodes) :
    m ∈ spread next nodes.length (.ofList [a]) (.ofList [a]) ↔ ReflTransGen r a m := by
  have hstart : ∀ n, n ∈ (.ofList [a] : PackageSet) ↔ n = a := by
    intro n
    simpa using eq_comm
  constructor
  · refine reaches_of_mem_spread hnext _ _ _ ?_ ?_
    all_goals
      intro n hn
      rw [(hstart n).1 hn]
  · intro h
    induction h with
    | refl => exact mem_spread_of_mem _ _ _ ((hstart a).2 rfl)
    | tail _ hbc ih =>
      refine spread_closed hnext hu _ _ _ (fun n hn => hn) ?_ ?_ ?_ ih hbc
      · intro n hn
        rwa [(hstart n).1 hn]
      · exact fun n hn hfn => absurd hn hfn
      · simp [Std.ExtTreeSet.size_insert]

end Spread

namespace Graph

variable (g : Graph)

def Requires (a b : PackageName) : Prop := b ∈ g.requiredSet a

/-- A path of arrows, which may be empty. -/
abbrev Reaches : PackageName → PackageName → Prop := ReflTransGen g.Requires

theorem mem_requires {a b : PackageName} : b ∈ g.requires a ↔ g.Requires a b :=
  Std.ExtTreeSet.mem_toList

theorem contains_iff_mem_nodes {n : PackageName} : g.contains n = true ↔ n ∈ g.nodes := by
  simp [contains, nodes]

theorem nodup_nodes : g.nodes.Nodup := by
  refine g.arrows.distinct_keys.imp fun h e => h ?_
  rw [e]
  exact Std.ReflCmp.compare_self

variable {g} in
theorem Requires.closed {a b : PackageName} (h : g.Requires a b) :
    a ∈ g.nodes ∧ b ∈ g.nodes ∧ b ≠ a := by
  obtain ⟨s, hs, hb⟩ := SetMap.mem_values.1 h
  obtain ⟨hmem, hne⟩ := g.arrows_closed a s hs b hb
  have ha : a ∈ g.arrows := Std.ExtTreeMap.mem_iff_isSome_getElem?.2 (by simp [hs])
  exact ⟨by simpa [nodes] using ha, by simpa [nodes] using hmem, hne⟩

theorem mem_requiredByAny {s : PackageSet} {m : PackageName} :
    m ∈ g.requiredByAny s ↔ ∃ n ∈ s, g.Requires n m := by
  rw [requiredByAny, Std.ExtTreeSet.foldl_eq_foldl_toList, mem_foldl_union]
  simp [Requires]

theorem mem_downward {a m : PackageName} :
    m ∈ g.downward a ↔ a ∈ g.nodes ∧ g.Reaches a m := by
  have hsize : g.size = g.nodes.length := by simp [size, nodes]
  rw [downward]
  split
  · next h =>
    have ha := (g.contains_iff_mem_nodes).1 h
    rw [hsize, mem_spread_iff (fun _ _ => g.mem_requiredByAny)
      (fun n m h => h.closed.2.1) ha]
    simp [ha]
  · next h =>
    have ha : a ∉ g.nodes := fun ha => h (g.contains_iff_mem_nodes.2 ha)
    simp [ha]

/-! ### Graphs built by adding requirements -/

theorem mem_nodes_ofNodes {s : PackageSet} {n : PackageName} : n ∈ (ofNodes s).nodes ↔ n ∈ s := by
  have key : ∀ (l : List PackageName) (m : Std.ExtTreeMap PackageName PackageSet),
      n ∈ l.foldl (fun m n => m.insert n ∅) m ↔ n ∈ l ∨ n ∈ m := by
    intro l
    induction l with
    | nil => simp
    | cons a l ih => grind
  simp [nodes, ofNodes, key]

theorem not_requires_ofNodes {s : PackageSet} {a b : PackageName} : ¬ (ofNodes s).Requires a b := by
  intro h
  obtain ⟨t, ht, hb⟩ := SetMap.mem_values.1 h
  have hfold : (ofNodes s).arrows =
      (s.toList.map fun n => (n, (∅ : PackageSet))).foldl (fun m p => m.insert p.1 p.2) ∅ := by
    rw [List.foldl_map]
    rfl
  rw [hfold] at ht
  rcases mem_of_getElem?_foldl_insert ht with ht | ht
  · obtain ⟨n, -, hn⟩ := List.mem_map.1 ht
    obtain ⟨rfl, rfl⟩ := Prod.mk.inj hn
    simp at hb
  · simp at ht

theorem accepts_iff {a b : PackageName} :
    g.accepts a b = true ↔ a ≠ b ∧ a ∈ g.nodes ∧ b ∈ g.nodes ∧ ¬ g.Requires a b := by
  simp [accepts, Requires, nodes, contains, and_assoc, ← Std.ExtTreeSet.contains_iff_mem]

theorem mem_nodes_addRequirement {a b n : PackageName} :
    n ∈ (g.addRequirement a b).nodes ↔ n ∈ g.nodes := by
  rw [addRequirement]
  split
  · next h =>
    have ha := (g.accepts_iff.1 h).2.1
    simp only [nodes, Std.ExtTreeMap.mem_keys] at ha ⊢
    rw [Std.ExtTreeMap.mem_insert]
    constructor
    · rintro (h | h)
      · exact Std.LawfulEqCmp.eq_of_compare h ▸ ha
      · exact h
    · exact Or.inr
  · rfl

theorem requires_addRequirement {a b x y : PackageName} :
    (g.addRequirement a b).Requires x y ↔
      g.Requires x y ∨ (x, y) = (a, b) ∧ a ∈ g.nodes ∧ b ∈ g.nodes ∧ a ≠ b := by
  rw [addRequirement]
  split
  · next h =>
    obtain ⟨hne, ha, hb, -⟩ := g.accepts_iff.1 h
    simp only [Requires, requiredSet, SetMap.values, Std.ExtTreeMap.getElem?_insert,
      Std.LawfulEqCmp.compare_eq_iff_eq]
    by_cases hx : a = x
    · subst hx
      simp [ha, hb, hne, or_comm, @eq_comm _ y]
    · simp [hx, Ne.symm hx]
  · next h =>
    rw [g.accepts_iff] at h
    constructor
    · exact Or.inl
    · rintro (hxy | ⟨hxy, ha, hb, hne⟩)
      · exact hxy
      · obtain ⟨rfl, rfl⟩ := Prod.mk.inj hxy
        by_contra hnot
        exact h ⟨hne, ha, hb, hnot⟩

/-- The graph of some nodes after requirements were added to it one after the other. -/
def ofRequirements (nodes : PackageSet) (pairs : List (PackageName × PackageName)) : Graph :=
  pairs.foldl (fun g p => g.addRequirement p.1 p.2) (.ofNodes nodes)

/-- The pairs that make an arrow: they join two different nodes. -/
def Effective (nodes : PackageSet) (pairs : List (PackageName × PackageName))
    (a b : PackageName) : Prop := (a, b) ∈ pairs ∧ a ∈ nodes ∧ b ∈ nodes ∧ a ≠ b

theorem ofRequirements_spec (nodes : PackageSet) (pairs : List (PackageName × PackageName)) :
    (∀ n, n ∈ (ofRequirements nodes pairs).nodes ↔ n ∈ nodes) ∧
      ∀ a b, (ofRequirements nodes pairs).Requires a b ↔ Effective nodes pairs a b := by
  induction pairs using List.reverseRecOn with
  | nil =>
    refine ⟨fun n => mem_nodes_ofNodes, fun a b => ?_⟩
    simp only [Effective, List.not_mem_nil, false_and, iff_false]
    exact not_requires_ofNodes
  | append_singleton pairs p ih =>
    have hstep : ofRequirements nodes (pairs ++ [p]) =
        (ofRequirements nodes pairs).addRequirement p.1 p.2 := by simp [ofRequirements]
    rw [hstep]
    refine ⟨fun n => (mem_nodes_addRequirement _).trans (ih.1 n), fun a b => ?_⟩
    rw [requires_addRequirement, ih.1, ih.1, ih.2]
    simp only [Effective, List.mem_append, List.mem_singleton]
    constructor
    · rintro (⟨h, h'⟩ | ⟨h, h'⟩)
      · exact ⟨Or.inl h, h'⟩
      · obtain ⟨rfl, rfl⟩ := Prod.mk.inj h
        exact ⟨Or.inr rfl, h'⟩
    · rintro ⟨h | h, h'⟩
      · exact Or.inl ⟨h, h'⟩
      · obtain rfl := h
        exact Or.inr ⟨rfl, h'⟩

theorem mem_nodes_ofRequirements {nodes : PackageSet} {pairs : List (PackageName × PackageName)}
    {n : PackageName} : n ∈ (ofRequirements nodes pairs).nodes ↔ n ∈ nodes :=
  (ofRequirements_spec nodes pairs).1 n

theorem requires_ofRequirements (nodes : PackageSet) (pairs : List (PackageName × PackageName)) :
    (ofRequirements nodes pairs).Requires = Effective nodes pairs := by
  funext a b
  exact propext ((ofRequirements_spec nodes pairs).2 a b)

end Graph

end BuildPlan
