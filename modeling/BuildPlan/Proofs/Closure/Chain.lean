import BuildPlan.Name
import BuildPlan.Proofs.Multimap
import Mathlib.Logic.Relation
import Mathlib.Order.Bounds.Basic
import Mathlib.Order.Lattice.Nat

/-! # Chains

A chain begins with a seed and goes on along a relation. The rank of a name is the length of the
shortest chains to it. Ranks leave no gaps, and what has a rank is the least set that holds the
seeds and is closed under the relation. From seeds taken together a rank is the least of those from
their parts.
-/
namespace BuildPlan

/-- A chain of so many names, of which the first is a seed and this one is the last. -/
inductive Chain (seeds : PackageSet) (r : PackageName → PackageName → Prop) :
    Nat → PackageName → Prop where
  | seed {s : PackageName} : s ∈ seeds → Chain seeds r 1 s
  | step {k : Nat} {n m : PackageName} : Chain seeds r k n → r n m → Chain seeds r (k + 1) m

/-- The number of names in the shortest chains to a name. -/
def IsRank (seeds : PackageSet) (r : PackageName → PackageName → Prop) (k : Nat)
    (m : PackageName) : Prop :=
  IsLeast {k | Chain seeds r k m} k

/-- A set that holds the seeds and everything that its members lead to. -/
structure IsClosed (seeds : PackageSet) (r : PackageName → PackageName → Prop)
    (s : Set PackageName) : Prop where
  seed : ∀ n ∈ seeds, n ∈ s
  step : ∀ n ∈ s, ∀ m, r n m → m ∈ s

variable {seeds : PackageSet} {r : PackageName → PackageName → Prop} {j k : Nat}
  {n m : PackageName}

theorem Chain.pos (h : Chain seeds r k m) : 0 < k := by
  cases h <;> omega

theorem Chain.mem_seeds (h : Chain seeds r 1 m) : m ∈ seeds := by
  cases h with
  | seed h => exact h
  | step h _ => exact absurd h.pos (by omega)

theorem Chain.exists_isRank (h : Chain seeds r k m) : ∃ j, j ≤ k ∧ IsRank seeds r j m := by
  have hne : {k | Chain seeds r k m}.Nonempty := ⟨k, h⟩
  exact ⟨sInf {k | Chain seeds r k m}, Nat.sInf_le h, Nat.sInf_mem hne, fun _ => Nat.sInf_le⟩

theorem Chain.mono {r' : PackageName → PackageName → Prop} (hr : ∀ n m, r n m → r' n m)
    (h : Chain seeds r k m) : Chain seeds r' k m := by
  induction h with
  | seed hs => exact .seed hs
  | step _ hnm ih => exact .step ih (hr _ _ hnm)

theorem Chain.exists_seed (h : Chain seeds r k m) :
    ∃ s ∈ seeds, Relation.ReflTransGen r s m := by
  induction h with
  | seed hs => exact ⟨_, hs, .refl⟩
  | step _ hnm ih =>
    obtain ⟨s, hs, hsn⟩ := ih
    exact ⟨s, hs, hsn.tail hnm⟩

namespace IsRank

theorem pos (h : IsRank seeds r k m) : 0 < k := h.1.pos

theorem unique (h : IsRank seeds r j m) (h' : IsRank seeds r k m) : j = k := IsLeast.unique h h'

theorem one_iff : IsRank seeds r 1 m ↔ m ∈ seeds := by
  constructor
  · exact fun h => h.1.mem_seeds
  · exact fun h => ⟨.seed h, fun _ hk => Chain.pos hk⟩

theorem of_chain {r' : PackageName → PackageName → Prop} (h : IsRank seeds r k m)
    (hr : ∀ n m, r' n m → r n m) (hchain : Chain seeds r' k m) : IsRank seeds r' k m :=
  ⟨hchain, fun _ hj => h.2 (Chain.mono hr hj)⟩

theorem two_le (h : IsRank seeds r k m) (hm : m ∉ seeds) : 2 ≤ k := by
  have hne : k ≠ 1 := fun e => hm (one_iff.1 (e ▸ h))
  have := h.pos
  omega

theorem notMem_seeds (h : IsRank seeds r k m) (hk : 2 ≤ k) : m ∉ seeds := by
  intro hm
  have := h.unique (one_iff.2 hm)
  omega

theorem exists_prev (h : IsRank seeds r (k + 1) m) (hk : 0 < k) :
    ∃ n, IsRank seeds r k n ∧ r n m := by
  obtain ⟨hchain, hleast⟩ := h
  cases hchain with
  | seed => omega
  | @step _ n _ hn hnm =>
    obtain ⟨j, hj, hrank⟩ := hn.exists_isRank
    have hle : k + 1 ≤ j + 1 := hleast (Chain.step hrank.1 hnm)
    obtain rfl : j = k := by omega
    exact ⟨n, hrank, hnm⟩

/-- The names of the next rank are those that names of this rank lead to, apart from those that have
a rank already. -/
theorem succ_iff (hk : 0 < k) : IsRank seeds r (k + 1) m ↔
    (∃ n, IsRank seeds r k n ∧ r n m) ∧ ∀ j ≤ k, ¬ IsRank seeds r j m := by
  constructor
  · intro h
    refine ⟨h.exists_prev hk, fun j hj hrank => ?_⟩
    have := h.unique hrank
    omega
  · rintro ⟨⟨n, hn, hnm⟩, hnew⟩
    refine ⟨Chain.step hn.1 hnm, fun i hi => ?_⟩
    obtain ⟨j, hj, hrank⟩ := Chain.exists_isRank hi
    by_contra hlt
    exact hnew j (by omega) hrank

theorem exists_of_le (h : IsRank seeds r k m) (hj : 0 < j) (hjk : j ≤ k) :
    ∃ n, IsRank seeds r j n := by
  induction k, hjk using Nat.le_induction generalizing m with
  | base => exact ⟨m, h⟩
  | succ k hjk ih =>
    obtain ⟨n, hn, -⟩ := h.exists_prev (by omega)
    exact ih hn

theorem le_size {names : PackageSet} (hnames : ∀ n m, r n m → m ∈ names)
    (h : IsRank seeds r k m) : k ≤ names.size + 1 := by
  have key : ∀ k, ∀ m, IsRank seeds r (k + 1) m → ∃ l : List PackageName, l.length = k ∧
      l.Nodup ∧ ∀ n ∈ l, n ∈ names ∧ ∃ j ≤ k + 1, IsRank seeds r j n := by
    intro k
    induction k with
    | zero => exact fun _ _ => ⟨[], by simp⟩
    | succ k ih =>
      intro m hm
      obtain ⟨n, hn, hnm⟩ := hm.exists_prev (by omega)
      obtain ⟨l, hlen, hnodup, hl⟩ := ih n hn
      refine ⟨m :: l, by simp [hlen], List.nodup_cons.2 ⟨fun hml => ?_, hnodup⟩, ?_⟩
      · obtain ⟨-, j, hj, hrank⟩ := hl m hml
        have := hm.unique hrank
        omega
      · rintro x (_ | ⟨_, hx⟩)
        · exact ⟨hnames n m hnm, k + 1 + 1, le_rfl, hm⟩
        · obtain ⟨hmem, j, hj, hrank⟩ := hl x hx
          exact ⟨hmem, j, by omega, hrank⟩
  obtain ⟨k, rfl⟩ : ∃ i, k = i + 1 := ⟨k - 1, by have := h.pos; omega⟩
  obtain ⟨l, hlen, hnodup, hl⟩ := key k m h
  have := length_le_size hnodup fun n hn => (hl n hn).1
  omega

end IsRank

/-! ### Parts of the seeds -/

/-- Seeds that are some of others, with a relation that says no more than theirs, and just as much
about these seeds and about names that are no seeds at all. -/
structure IsPart (part : PackageSet) (r' : PackageName → PackageName → Prop) (seeds : PackageSet)
    (r : PackageName → PackageName → Prop) : Prop where
  mem_seeds : ∀ n ∈ part, n ∈ seeds
  mono : ∀ n m, r' n m → r n m
  of_rel : ∀ n m, n ∈ part ∨ n ∉ seeds → r n m → r' n m

section Parts

variable {part seeds₁ seeds₂ : PackageSet} {r' r₁ r₂ : PackageName → PackageName → Prop}

theorem IsPart.chain (h : IsPart part r' seeds r) (hm : Chain part r' k m) : Chain seeds r k m := by
  induction hm with
  | seed hs => exact .seed (h.mem_seeds _ hs)
  | step _ hnm ih => exact .step ih (h.mono _ _ hnm)

/-- A shortest chain from a part of the seeds goes on as it does from all of them, since it meets no
other seed on its way. -/
theorem IsPart.step (h : IsPart part r' seeds r) (hrank : IsRank seeds r k n)
    (hn : Chain part r' k n) (hnm : r n m) : Chain part r' (k + 1) m := by
  refine .step hn (h.of_rel n m ?_ hnm)
  by_cases hk : k = 1
  · subst hk
    exact Or.inl hn.mem_seeds
  · have := hn.pos
    exact Or.inr (hrank.notMem_seeds (by omega))

variable (h₁ : IsPart seeds₁ r₁ seeds r) (h₂ : IsPart seeds₂ r₂ seeds r)
  (hseeds : ∀ n ∈ seeds, n ∈ seeds₁ ∨ n ∈ seeds₂)
include h₁ h₂ hseeds

theorem IsRank.chain_or_chain (h : IsRank seeds r k m) :
    Chain seeds₁ r₁ k m ∨ Chain seeds₂ r₂ k m := by
  induction k generalizing m with
  | zero => exact absurd h.pos (by omega)
  | succ k ih =>
    by_cases hk : k = 0
    · subst hk
      exact (hseeds m (IsRank.one_iff.1 h)).imp .seed .seed
    · obtain ⟨n, hn, hnm⟩ := h.exists_prev (by omega)
      exact (ih hn).imp (fun hchain => h₁.step hn hchain hnm) fun hchain => h₂.step hn hchain hnm

/-- If two parts make up the seeds, a rank is the smaller of the ranks from the parts. -/
theorem isRank_iff_isLeast_parts : IsRank seeds r k m ↔
    IsLeast {j | IsRank seeds₁ r₁ j m ∨ IsRank seeds₂ r₂ j m} k := by
  have hmin : ∀ k, IsRank seeds r k m →
      IsLeast {j | IsRank seeds₁ r₁ j m ∨ IsRank seeds₂ r₂ j m} k := by
    intro k h
    have hle₁ : ∀ j, Chain seeds₁ r₁ j m → k ≤ j := fun j hj => h.2 (h₁.chain hj)
    have hle₂ : ∀ j, Chain seeds₂ r₂ j m → k ≤ j := fun j hj => h.2 (h₂.chain hj)
    constructor
    · exact (h.chain_or_chain h₁ h₂ hseeds).imp (fun hchain => ⟨hchain, hle₁⟩)
        fun hchain => ⟨hchain, hle₂⟩
    · rintro j (hj | hj)
      · exact hle₁ j hj.1
      · exact hle₂ j hj.1
  constructor
  · exact hmin k
  · intro h
    have hchain : Chain seeds r k m := h.1.elim (fun hk => h₁.chain hk.1) fun hk => h₂.chain hk.1
    obtain ⟨j, -, hj⟩ := hchain.exists_isRank
    rwa [h.unique (hmin j hj)]

end Parts

/-! ### Closed sets -/

theorem IsClosed.mem_of_chain {s : Set PackageName} (hs : IsClosed seeds r s)
    (h : Chain seeds r k m) : m ∈ s := by
  induction h with
  | seed h => exact hs.seed _ h
  | step _ hnm ih => exact hs.step _ ih _ hnm

/-- What has a rank is the least closed set. -/
theorem isLeast_isClosed : IsLeast {s | IsClosed seeds r s} {m | ∃ k, IsRank seeds r k m} := by
  constructor
  · constructor
    · exact fun n hn => ⟨1, IsRank.one_iff.2 hn⟩
    · rintro n ⟨k, hk⟩ m hnm
      obtain ⟨j, -, hj⟩ := (Chain.step hk.1 hnm).exists_isRank
      exact ⟨j, hj⟩
  · rintro s hs m ⟨k, hk⟩
    exact IsClosed.mem_of_chain hs hk.1

end BuildPlan
