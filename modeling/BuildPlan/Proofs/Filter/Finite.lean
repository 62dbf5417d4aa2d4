import BuildPlan.Filter
import BuildPlan.Proofs.Graph.Reach
import Mathlib.Order.WellFounded
import Mathlib.Data.Set.Finite.List

/-! # The tops of a result

The packages of a result that no other one of it requires are its tops. Going back from a package
to one that requires it, and on from there, leads to a top or round a cycle. So a result without
cycles is what its tops reach.
-/
namespace BuildPlan

open Relation

def Inside (emitted : PackageSet) (r : PackageName → PackageName → Prop) (a b : PackageName) :
    Prop := a ∈ emitted ∧ b ∈ emitted ∧ r a b

section Inside

variable {emitted : PackageSet} {r : PackageName → PackageName → Prop} {a b : PackageName}

theorem mem_of_reaches_inside (ha : a ∈ emitted) (h : ReflTransGen (Inside emitted r) a b) :
    b ∈ emitted := by
  cases h with
  | refl => exact ha
  | tail _ harrow => exact harrow.2.1

variable (emitted r) in
/-- The first member reaches the second and is not reached by it. -/
def Above (a b : { n // n ∈ emitted }) : Prop :=
  ReflTransGen (Inside emitted r) a b ∧ ¬ ReflTransGen (Inside emitted r) b a

/-- The way up ends, since there are finitely many members. -/
theorem wellFounded_above : WellFounded (Above emitted r) := by
  have hmembers : Set.Finite {n | n ∈ emitted} := by
    simpa using List.finite_toSet emitted.toList
  have hfinite : Finite { n // n ∈ emitted } := hmembers.to_subtype
  have htrans : IsTrans { n // n ∈ emitted } (Above emitted r) :=
    ⟨fun a b c hab hbc => ⟨hab.1.trans hbc.1, fun hca => hab.2 (hbc.1.trans hca)⟩⟩
  have hirrefl : Std.Irrefl (Above emitted r) := ⟨fun a haa => haa.2 haa.1⟩
  exact Finite.wellFounded_of_trans_of_irrefl _

/-- Every member is reached from one to which no arrow leads, or from one on a cycle. -/
theorem exists_top_or_cycle (hb : b ∈ emitted) :
    ∃ a ∈ emitted, ReflTransGen (Inside emitted r) a b ∧
      ((∀ m ∈ emitted, ¬ r m a) ∨ TransGen (Inside emitted r) a a) := by
  induction hmember : (⟨b, hb⟩ : { n // n ∈ emitted })
    using (wellFounded_above (r := r)).induction generalizing b with
  | _ _ ih =>
    subst hmember
    by_cases hrequired : ∃ m ∈ emitted, r m b
    · obtain ⟨m, hm, hmb⟩ := hrequired
      have harrow : Inside emitted r m b := ⟨hm, hb, hmb⟩
      -- a way from `b` to what requires it is a cycle, and without one the way back goes up
      by_cases hcycle : ReflTransGen (Inside emitted r) b m
      · exact ⟨b, hb, .refl, Or.inr (TransGen.tail' hcycle harrow)⟩
      · obtain ⟨a, ha, ham, hrole⟩ := ih ⟨m, hm⟩ ⟨.single harrow, hcycle⟩ hm rfl
        exact ⟨a, ha, ham.tail harrow, hrole⟩
    · exact ⟨b, hb, .refl, Or.inl fun m hm hmb => hrequired ⟨m, hm, hmb⟩⟩

end Inside

namespace Graph

variable {g : Graph} {emitted : PackageSet} {n : PackageName}

theorem mem_finitePackages : n ∈ finitePackages g emitted ↔
    n ∈ emitted ∧ ∀ m ∈ emitted, ¬ g.Requires m n := by
  simp only [finitePackages, Std.ExtTreeSet.mem_filter, Std.ExtTreeSet.get_eq, requiredBy,
    Bool.not_eq_true', List.any_eq_false, List.mem_filter, Std.ExtTreeSet.contains_iff_mem,
    exists_prop]
  refine and_congr_right fun _ => ⟨fun h m hm hmn => ?_, fun h m hmn hm => ?_⟩
  · exact h m ⟨hmn.closed.1, hmn⟩ hm
  · exact h m hm hmn.2

/-- The tops of a result, with the cycles in it, reach all of it. -/
theorem finitePackages_covers (nodes : PackageSet) (pairs : List (PackageName × PackageName))
    (emitted : PackageSet) :
    let kept := finitePackages (ofRequirements nodes pairs) emitted
    let Arrow := Inside emitted (Effective nodes pairs)
    (∀ n, n ∈ kept ↔ n ∈ emitted ∧ ∀ m ∈ emitted, m ≠ n → ¬ Effective nodes pairs m n) ∧
    (∀ b ∈ emitted, ∃ a ∈ emitted, ReflTransGen Arrow a b ∧ (a ∈ kept ∨ TransGen Arrow a a)) ∧
    ((∀ n, ¬ TransGen Arrow n n) →
      ((∃ n, n ∈ emitted) → ∃ n, n ∈ kept) ∧
        ∀ n, n ∈ emitted ↔ ∃ a ∈ kept, ReflTransGen Arrow a n) := by
  intro kept Arrow
  have hkept : ∀ n, n ∈ kept ↔ n ∈ emitted ∧ ∀ m ∈ emitted, ¬ Effective nodes pairs m n := by
    intro n
    rw [mem_finitePackages, requires_ofRequirements]
  have hcovers : ∀ b ∈ emitted, ∃ a ∈ emitted, ReflTransGen Arrow a b ∧
      (a ∈ kept ∨ TransGen Arrow a a) := by
    intro b hb
    obtain ⟨a, ha, hab, htop | hcycle⟩ := exists_top_or_cycle (r := Effective nodes pairs) hb
    · exact ⟨a, ha, hab, Or.inl ((hkept a).2 ⟨ha, htop⟩)⟩
    · exact ⟨a, ha, hab, Or.inr hcycle⟩
  refine ⟨?_, hcovers, ?_⟩
  · intro n
    rw [hkept]
    refine and_congr_right fun _ => forall₂_congr fun m _ => ?_
    constructor
    · exact fun harrow _ => harrow
    · exact fun hother harrow => hother harrow.2.2.2 harrow
  · intro hacyclic
    have hreached : ∀ b ∈ emitted, ∃ a ∈ kept, ReflTransGen Arrow a b := by
      intro b hb
      obtain ⟨a, -, hab, hkept | hcycle⟩ := hcovers b hb
      · exact ⟨a, hkept, hab⟩
      · exact absurd hcycle (hacyclic a)
    constructor
    · intro ⟨n, hn⟩
      obtain ⟨a, ha, -⟩ := hreached n hn
      exact ⟨a, ha⟩
    · intro n
      constructor
      · exact hreached n
      · intro ⟨a, ha, han⟩
        exact mem_of_reaches_inside ((hkept a).1 ha).1 han

/-- `b` is required by `a` and `c`, and `seed` is not part of the result. -/
theorem finitePackages_covers_fork :
    let nodes : PackageSet := .ofList (["a", "b", "c", "seed"].map PackageName.mk)
    let pairs : List (PackageName × PackageName) :=
      [(⟨"seed"⟩, ⟨"a"⟩), (⟨"a"⟩, ⟨"b"⟩), (⟨"c"⟩, ⟨"b"⟩)]
    let emitted : PackageSet := .ofList (["a", "b", "c"].map PackageName.mk)
    let kept := finitePackages (ofRequirements nodes pairs) emitted
    ⟨"a"⟩ ∈ kept ∧ ⟨"b"⟩ ∉ kept ∧ ⟨"c"⟩ ∈ kept ∧
      ∃ a ∈ kept, ReflTransGen (Inside emitted (Effective nodes pairs)) a ⟨"b"⟩ := by
  intro nodes pairs emitted kept
  have harrow : ∀ m n, Inside emitted (Effective nodes pairs) m n → m ≠ ⟨"b"⟩ ∧ n = ⟨"b"⟩ := by
    rintro m n ⟨hm, -, hpair, -⟩
    simp only [pairs, List.mem_cons, Prod.mk.injEq, List.not_mem_nil, or_false] at hpair
    rcases hpair with ⟨rfl, -⟩ | ⟨rfl, rfl⟩ | ⟨rfl, rfl⟩
    · exact absurd hm (by decide +kernel)
    · decide
    · decide
  have hacyclic : ∀ n, ¬ TransGen (Inside emitted (Effective nodes pairs)) n n := by
    intro n hcycle
    obtain ⟨m, hnm, -⟩ := TransGen.head'_iff.1 hcycle
    obtain ⟨k, -, hkn⟩ := TransGen.tail'_iff.1 hcycle
    exact (harrow n m hnm).1 (harrow k n hkn).2
  obtain ⟨hkept, -, hunion⟩ := finitePackages_covers nodes pairs emitted
  obtain ⟨-, hreached⟩ := hunion hacyclic
  refine ⟨by decide +kernel, ?_, by decide +kernel, (hreached ⟨"b"⟩).1 (by decide +kernel)⟩
  intro hb
  exact ((hkept ⟨"b"⟩).1 hb).2 ⟨"a"⟩ (by decide +kernel) (by decide)
    ⟨by decide, by decide +kernel, by decide +kernel, by decide⟩

/-- A cycle has no top. -/
example :
    let nodes : PackageSet := .ofList (["b", "c"].map PackageName.mk)
    let g := ofRequirements nodes [(⟨"b"⟩, ⟨"c"⟩), (⟨"c"⟩, ⟨"b"⟩)]
    (finitePackages g nodes).isEmpty = true := by
  decide +kernel

end Graph

end BuildPlan
