import BuildPlan.Proofs.Closure.Rounds
import BuildPlan.Proofs.Resolution.Outcome

/-! # How many rounds a full closure takes

What a full closure can find are the binaries of its branch that its scope admits. It takes at most
one round more than these have names that are not seeds, and no depth is greater than that. The
count that a resolver gives it, which goes by all names of the universe, is never used up.
-/
namespace BuildPlan

def BranchIndex.binaryNames (index : BranchIndex) (scope : Scope) : PackageSet :=
  .ofList ((index.packages.filter fun p => !p.isSource && scope.admits p.arch).map (·.name))

/-- The names of the binaries in the branch of a scope that the scope admits; none if there is no
such branch. -/
def Universe.binaryNames (u : Universe) (scope : Scope) : PackageSet :=
  match u.branches[scope.branch]? with
  | some index => index.binaryNames scope
  | none => ∅

section Names

variable {u : Universe} {index : BranchIndex} {scope : Scope} {n : PackageName}

theorem BranchIndex.mem_binaryNames : n ∈ index.binaryNames scope ↔
    ∃ p ∈ index.packages, p.isSource = false ∧ scope.admits p.arch = true ∧ p.name = n := by
  simp [binaryNames, and_assoc]

theorem Universe.binaryNames_of_branch (h : u.branch scope.branch = .ok index) :
    u.binaryNames scope = index.binaryNames scope := by
  rw [binaryNames, branch_eq_ok_iff.1 h]

theorem Universe.mem_packageNames_of_mem_binaryNames (h : n ∈ u.binaryNames scope) :
    n ∈ u.packageNames := by
  unfold binaryNames at h
  split at h
  · next index hlookup =>
    obtain ⟨p, hp, -, -, hname⟩ := BranchIndex.mem_binaryNames.1 h
    exact mem_packageNames.2 ⟨_, index, hlookup, p, hp, hname⟩
  · simp at h

end Names

variable {skipDebuginfo : Bool} {s : Snapshot} {u : Universe}

namespace Expansion

theorem mem_binaryNames_of_mem_found (hu : Universe.ofSnapshot skipDebuginfo s = .ok u)
    {scope : Scope} {index : BranchIndex} (hbranch : u.branch scope.branch = .ok index)
    (reading : NameReading) (frontier : PackageSet) (n : PackageName)
    (hn : n ∈ (full scope).found index reading frontier) : n ∈ u.binaryNames scope := by
  obtain ⟨b, -, -, rfl⟩ := Universe.exists_of_branch hu (Universe.branch_eq_ok_iff.1 hbranch)
  obtain ⟨m, -, a, -, hprovides⟩ := mem_found.1 hn
  obtain ⟨p, hp, hname, hbinary, hadmits⟩ :=
    BranchIndex.exists_package_of_mem_providersOfCapability hprovides
  rw [Universe.binaryNames_of_branch hbranch]
  exact BranchIndex.mem_binaryNames.2 ⟨p, hp, hbinary, hadmits rfl, hname⟩

theorem exists_growsFor_full (hu : Universe.ofSnapshot skipDebuginfo s = .ok u) (scope : Scope)
    (seeds : PackageSet) : let bound := 1 + (u.binaryNames scope \ seeds).size
    ∃ rounds ≤ bound, ∃ ending,
      (full scope).GrowsFor u rounds (full scope).seedReading 2 seeds (.ofSeeds seeds) ending ∧
        ∀ c, ending = .ok c → ∀ (n : PackageName) k, c.levels[n]? = some k → k ≤ bound := by
  intro bound
  cases hbranch : u.branch scope.branch with
  | ok index =>
    obtain ⟨rounds, hrounds, c, hgrows, hlevels⟩ := exists_growsFor_ofSeeds
      (x := full scope) hbranch (mem_binaryNames_of_mem_found hu hbranch) seeds
    exact ⟨rounds, hrounds, _, hgrows, fun c' hc => Except.ok.inj hc ▸ hlevels⟩
  | error e =>
    obtain ⟨rounds, hrounds, ending, hgrows, hending⟩ := exists_growsFor_of_error
      (x := full scope) hbranch (full scope).seedReading 2 seeds (.ofSeeds seeds)
    refine ⟨rounds, hrounds.trans (Nat.le_add_right ..), ending, hgrows, fun c hc n k hk => ?_⟩
    rcases hending with rfl | rfl
    · obtain rfl := Except.ok.inj hc
      rw [(Closure.getElem?_levels_ofSeeds.1 hk).2]
      exact Nat.le_add_right ..
    · cases hc

end Expansion

/-- A full closure whose rounds nothing counts ends, and it takes at most one round more than the
binaries of its branch that its scope admits have names besides the seeds. The closure of every full
request is this one, and its result reports no greater depth. -/
theorem Resolver.resolve_full_rounds_le (hu : Universe.ofSnapshot skipDebuginfo s = .ok u)
    (scope : Scope) (seeds : PackageSet) :
    let x := Expansion.full scope
    let bound := 1 + (u.binaryNames scope \ seeds).size
    ∃ rounds ≤ bound, ∃ ending,
      (∀ rounds' ending', x.GrowsFor u rounds' x.seedReading 2 seeds (.ofSeeds seeds) ending' ↔
        rounds' = rounds ∧ ending' = ending) ∧
      (∀ c, ending = .ok c → ∀ n k, c.level? n = some k → k ≤ bound) ∧
      ∀ (config : Config) (withAcl : Bool) (filters : Filters),
        let resolver := ofUniverse u config withAcl
        let checked : CheckedRequest := ⟨.full, seeds, scope, filters⟩
        (checked.closure resolver.horizon).eval u = ending ∧
        ∀ request p result, request.check config = .ok checked →
          (resolver.resolve u.world request p).1 = .resolved result →
          ∀ q ∈ result.packages, q.depth ≤ bound := by
  intro x bound
  obtain ⟨rounds, hrounds, ending, hgrows, hlevels⟩ :=
    Expansion.exists_growsFor_full hu scope seeds
  have hbound : bound ≤ u.packageNames.size + 1 := by
    have : (u.binaryNames scope \ seeds).size ≤ u.packageNames.size := size_le_size fun n hn =>
      Universe.mem_packageNames_of_mem_binaryNames (Std.ExtTreeSet.mem_diff_iff.1 hn).1
    omega
  have hunique : ∀ rounds' ending', x.GrowsFor u rounds' x.seedReading 2 seeds (.ofSeeds seeds)
      ending' ↔ rounds' = rounds ∧ ending' = ending := by
    intro rounds' ending'
    constructor
    · exact hgrows.unique
    · rintro ⟨rfl, rfl⟩
      exact hgrows
  refine ⟨rounds, hrounds, ending, hunique, hlevels, fun config withAcl filters => ?_⟩
  intro resolver checked
  have hclosure : (checked.closure resolver.horizon).eval u = ending :=
    hgrows.eval_grow rfl (hrounds.trans hbound)
  refine ⟨hclosure, fun request p result hcheck hresolve q hq => ?_⟩
  obtain ⟨checked', index, c, kept, packages, haccepted, hfinds, hemits, rfl⟩ :=
    exists_emits_of_resolve hresolve
  obtain rfl : checked' = checked := Except.ok.inj (haccepted.check_eq.symm.trans hcheck)
  exact hlevels c (hclosure.symm.trans hfinds.eval_closure) q.name q.depth (hemits.level_eq hq)

/-- In the small universe three names can be found from `c`, one after the other, so that the last
of them is as deep as can be. A name that is unknown makes no difference. -/
theorem Resolver.resolve_full_rounds_le_cycle :
    let seeds : PackageSet := .ofList [(⟨"c"⟩ : PackageName), ⟨"unknown"⟩]
    let bound := 1 + (cycleUniverse.binaryNames cycleScope \ seeds).size
    bound = 4 ∧ ∃ rounds ≤ bound, ∃ c,
      (Expansion.full cycleScope).GrowsFor cycleUniverse rounds .either 2 seeds
        (.ofSeeds seeds) (.ok c) ∧ c.level? ⟨"libc"⟩ = some bound := by
  intro seeds bound
  have hbound : bound = 4 := by decide +kernel
  obtain ⟨rounds, hrounds, ending, hgrows, -, hrequests⟩ :=
    resolve_full_rounds_le ofSnapshot_cycleBranch cycleScope seeds
  obtain ⟨hclosure, -⟩ := hrequests .default false ⟨none, false, none⟩
  have hscope : cycleUniverse.checkScope cycleScope = .ok () := by decide +kernel
  obtain ⟨index, c, hfinds⟩ :=
    CheckedRequest.exists_finds (r := ⟨.full, seeds, cycleScope, _⟩) hscope _
  obtain rfl := hclosure.symm.trans hfinds.eval_closure
  have hlevel : c.level? ⟨"libc"⟩ = some 4 :=
    eq_of_map_eq_ok (f := (·.level? ⟨"libc"⟩)) hclosure (by decide +kernel)
  exact ⟨hbound, rounds, hrounds, c, (hgrows _ _).2 ⟨rfl, rfl⟩, hbound ▸ hlevel⟩

end BuildPlan
