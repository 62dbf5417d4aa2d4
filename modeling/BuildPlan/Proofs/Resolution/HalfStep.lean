import BuildPlan.Proofs.Resolution.Outcome
import BuildPlan.Proofs.Universe.Records

/-! # Half steps

A half step is a closure of three levels, of which the last is pruned: there only those stay that a
source package of the second level requires something from. The first two levels are not touched.
Where nothing but the requirements of sources is followed there is nothing to prune.

The depth that is asked for makes no difference to a half step, but a request for it is still
refused when the depth is out of range.
-/
namespace BuildPlan

namespace Expansion

variable {u : Universe} {index : BranchIndex} {x y : Expansion}

theorem eval_grow_congr (hreading : x.reading = y.reading)
    (hround : ∀ last frontier c, frontier.isEmpty = false →
      (x.candidates x.reading last frontier c).eval u =
        (y.candidates x.reading last frontier c).eval u)
    (rounds level : Nat) (frontier : PackageSet) (c : Closure) :
    (x.grow rounds x.reading level frontier c).eval u =
      (y.grow rounds x.reading level frontier c).eval u := by
  induction rounds generalizing level frontier c with
  | zero => rfl
  | succ rounds ih =>
    unfold grow
    split
    · rfl
    · next hfrontier =>
      rw [Program.eval_bind, Program.eval_bind,
        hround (rounds == 0) frontier c (Bool.not_eq_true _ ▸ hfrontier), ← hreading]
      exact bind_congr fun _ => ih ..

variable {scope : Scope}

/-- A half step prunes nothing if the scope follows the requirements of sources only. -/
theorem pruned_build_of_source (h : scope.dependencyType = .source) (halfStep last : Bool)
    (frontier : PackageSet) : (build scope halfStep).pruned index .source last frontier =
      (build scope halfStep).found index .source frontier := by
  have hscope : scope.withDependencyType .source = scope := by rw [← h]; rfl
  have hwanted : (build scope halfStep).wanted index frontier =
      (build scope halfStep).found index .source frontier := by
    change (build (scope.withDependencyType .source) false).found index .source frontier = _
    rw [hscope]
    rfl
  apply Std.ExtTreeSet.ext_mem
  intro m
  rw [mem_pruned, hwanted]
  exact and_iff_left_of_imp fun hm _ _ => hm

theorem eval_closure_build_halfStep
    (h : scope.dependencyType = .source ∨ ∃ e, u.branch scope.branch = .error e) (rounds : Nat)
    (seeds : PackageSet) : ((build scope true).closure rounds seeds).eval u =
      ((build scope false).closure rounds seeds).eval u := by
  refine eval_grow_congr (x := build scope true) (y := build scope false) rfl ?_ rounds 2 seeds
    (.ofSeeds seeds)
  intro last frontier c hfrontier
  cases hbranch : u.branch scope.branch with
  | error e =>
    have hfail : ∀ halfStep, ((build scope halfStep).candidates .source last frontier c).eval u =
        .error (.accessor e) := fun halfStep =>
      eval_candidates_of_error hbranch .source last hfrontier c
    exact (hfail true).trans (hfail false).symm
  | ok index =>
    have hsource : scope.dependencyType = .source := by
      apply h.resolve_right
      rintro ⟨e, herror⟩
      cases hbranch.symm.trans herror
    have hround : ∀ halfStep,
        ((build scope halfStep).candidates .source last frontier c).eval u =
          .ok ((build scope false).learn index .source frontier c,
            (build scope false).found index .source frontier) := by
      intro halfStep
      rw [eval_candidates hbranch, pruned_build_of_source hsource]
      rfl
    exact (hround true).trans (hround false).symm

end Expansion

namespace CheckedRequest

variable {skipDebuginfo : Bool} {s : Snapshot}

/-- A half step finds the levels of a closure of depth three, whatever depth is asked for. On its
third level it keeps what binaries provide that a source package of the second level requires. -/
theorem closure_halfStep_eq_pruned (hu : Universe.ofSnapshot skipDebuginfo s = .ok u)
    (depth : UInt32) (seeds : PackageSet) (scope : Scope) (filters : Filters) (horizon : Nat) :
    let half := (closure ⟨.build depth true, seeds, scope, filters⟩ horizon).eval u
    let plain := (closure ⟨.build 3 false, seeds, scope, filters⟩ horizon).eval u
    (scope.dependencyType = .source ∨ s.branch? scope.branch = none → half = plain) ∧
      ∀ b, s.branch? scope.branch = some b →
        let packages := BranchIndex.keptPackages skipDebuginfo b
        ∃ c c', half = .ok c ∧ plain = .ok c' ∧
          (∀ m ∈ c.members, ∃ k, c.level? m = some k ∧ k ∈ [1, 2, 3]) ∧
          (∀ m, c.level? m = some 1 ↔ m ∈ seeds) ∧
          (∀ m, c.level? m = some 2 ↔ c'.level? m = some 2) ∧
          ∀ m, c.level? m = some 3 ↔ c'.level? m = some 3 ∧ ∃ n, c.level? n = some 2 ∧
            ∃ p ∈ packages, p.isSource = true ∧ p.name = n ∧ ∃ a, b.States .require p a ∧
              ∃ q ∈ packages, q.isSource = false ∧ scope.admits q.arch = true ∧
                b.Provides q a ∧ (q.source? packages).map (·.name) = some m := by
  intro half plain
  have hlookup := Universe.getElem?_branches hu scope.branch
  constructor
  · intro h
    apply Expansion.eval_closure_build_halfStep
    refine h.imp_right fun hnone => ?_
    rw [hnone] at hlookup
    exact ⟨_, by rw [Universe.branch, hlookup]; rfl⟩
  · intro b hb packages
    rw [hb] at hlookup
    have hhash := Universe.nodup_hash_of_branch? hu hb
    have hbranch : u.branch scope.branch = .ok (.ofPackages packages b) :=
      Universe.branch_eq_ok_iff.2 hlookup
    obtain ⟨c, heval, -, hlevels⟩ :=
      Expansion.exists_levels (x := .build scope true) hbranch 2 seeds
    obtain ⟨c', heval', -, hlevels'⟩ :=
      Expansion.closure_spec (x := .build scope false) hbranch rfl 2 seeds
    have hsecond : ∀ n, c.level? n = some 2 ↔
        IsRank seeds ((Expansion.build scope false).Leads (.ofPackages packages b) seeds) 2 n := by
      intro n
      rw [Closure.level?, hlevels, Expansion.inLevel_iff_isRank (.inr (by omega))]
      exact and_iff_right (by omega)
    refine ⟨c, c', heval, heval', ?_, ?_, ?_, ?_⟩
    · intro m hm
      obtain ⟨k, hk⟩ := Closure.mem_members.1 hm
      obtain ⟨hle, hin⟩ := (hlevels m k).1 hk
      have hpos := hin.rank.pos
      refine ⟨k, hk, ?_⟩
      simp only [List.mem_cons, List.not_mem_nil, or_false]
      omega
    · intro m
      rw [Closure.level?, hlevels, Expansion.inLevel_one_iff]
      exact and_iff_right (by omega)
    · intro m
      rw [hsecond, Closure.level?, hlevels']
      exact (and_iff_right (by omega)).symm
    · intro m
      rw [Closure.level?, Closure.level?, hlevels, hlevels']
      constructor
      · rintro ⟨hle, hin⟩
        obtain ⟨n, hn, hneeds⟩ := hin.exists_wants rfl rfl (by omega)
        exact ⟨⟨hle, hin.rank⟩, n, (hsecond n).2 hn,
          (BranchIndex.needs_withDependencyType_source_iff hhash).1 hneeds⟩
      · rintro ⟨⟨hle, hrank⟩, n, hn, hneeds⟩
        refine ⟨hle, hrank, fun _ _ _ => ⟨n, (hsecond n).1 hn, ?_⟩⟩
        exact (BranchIndex.needs_withDependencyType_source_iff hhash).2 hneeds

/-- The source `c` requires nothing, so that a half step leaves `b` out, which its library needs. -/
theorem closure_halfStep_eq_pruned_cycle :
    let scope := cycleScope.withDependencyType .binary
    let seeds := (cycleRequest .full).seedSet
    ∃ c c', (closure ⟨.build 9 true, seeds, scope, ⟨none, false, none⟩⟩ 0).eval cycleUniverse =
          .ok c ∧
        (closure ⟨.build 3 false, seeds, scope, ⟨none, false, none⟩⟩ 0).eval cycleUniverse =
          .ok c' ∧
        c.level? ⟨"c"⟩ = some 2 ∧ c'.level? ⟨"b"⟩ = some 3 ∧ c.level? ⟨"b"⟩ = none := by
  intro scope seeds
  have hname : Text.lowerCase cycleBranch.name = scope.branch := by decide +kernel
  obtain ⟨c, c', heval, heval', -, -, hsecond, -⟩ :=
    (closure_halfStep_eq_pruned ofSnapshot_cycleBranch 9 seeds scope ⟨none, false, none⟩ 0).2 _
      (Snapshot.branch?_singleton hname)
  have hc : c'.level? ⟨"c"⟩ = some 2 :=
    eq_of_map_eq_ok (f := (·.level? ⟨"c"⟩)) heval' (by decide +kernel)
  have hb : c'.level? ⟨"b"⟩ = some 3 :=
    eq_of_map_eq_ok (f := (·.level? ⟨"b"⟩)) heval' (by decide +kernel)
  have hpruned : c.level? ⟨"b"⟩ = none :=
    eq_of_map_eq_ok (f := (·.level? ⟨"b"⟩)) heval (by decide +kernel)
  exact ⟨c, c', heval, heval', (hsecond _).2 hc, hb, hpruned⟩

/-! ### The depth that is asked for -/

theorem program_congr {r r' : CheckedRequest} (resolver : Resolver) (hscope : r.scope = r'.scope)
    (hfilters : r.filters = r'.filters) (hsource : r.asSource = r'.asSource)
    (hclosure : r.closure resolver.horizon = r'.closure resolver.horizon) :
    r.program resolver = r'.program resolver := by
  obtain ⟨goal, seeds, scope, filters⟩ := r
  obtain ⟨goal', seeds', scope', filters'⟩ := r'
  obtain rfl : scope = scope' := hscope
  obtain rfl : filters = filters' := hfilters
  have hrecord : record ⟨goal, seeds, scope, filters⟩ = record ⟨goal', seeds', scope, filters⟩ :=
    rfl
  simp only [program, completeClosure, hclosure, reading, hsource, hrecord, annotate]

end CheckedRequest

namespace Resolver

/-- Half steps of any two depths that may be asked for are the same run. Any other depth is refused,
though a half step has no use for it. -/
theorem resolve_halfStep_of_depth (resolver : Resolver) (world : World) (request : Request)
    (p : Progress) :
    let half (depth : UInt32) := { request with goal := .build depth true }
    let limit := resolver.config.maxDepth.toNat
    let allowed (depth : UInt32) := 1 ≤ depth.toNat ∧ depth.toNat ≤ limit
    (∀ depth depth', allowed depth → allowed depth' →
      resolver.resolve world (half depth) p = resolver.resolve world (half depth') p) ∧
    ∀ depth, ¬ allowed depth → resolver.resolve world (half depth) p =
      (.failed (.invalid (.depthOutOfRange depth.toNat limit)), p) := by
  intro half limit allowed
  constructor
  · intro depth depth' h h'
    have hgoal : (half depth).checkGoal resolver.config = .ok () :=
      Request.checkDepth_eq_ok_iff.2 h
    have hgoal' : (half depth').checkGoal resolver.config = .ok () :=
      Request.checkDepth_eq_ok_iff.2 h'
    refine resolve_withGoal hgoal' hgoal ?_ world p
    rintro ⟨_, seeds, scope, filters⟩ rfl
    exact CheckedRequest.program_congr resolver rfl rfl rfl rfl
  · intro depth h
    have hgoal : (half depth).checkGoal resolver.config =
        .error (.depthOutOfRange depth.toNat limit) := Request.checkDepth_eq_error h
    exact resolve_of_check_eq_error (Request.check_of_checkGoal_eq_error hgoal) world

theorem resolve_halfStep_of_depth_cycle :
    let resolver := ofUniverse cycleUniverse .default false
    let half (depth : UInt32) := cycleRequest (.build depth true)
    resolver.resolve cycleUniverse.world (half 1) ⟨[], 0⟩ =
        resolver.resolve cycleUniverse.world (half 5) ⟨[], 0⟩ ∧
      resolver.resolve cycleUniverse.world (half 0) ⟨[], 0⟩ =
        (.failed (.invalid (.depthOutOfRange 0 5)), ⟨[], 0⟩) := by
  intro resolver half
  obtain ⟨hsame, hrefused⟩ :=
    resolver.resolve_halfStep_of_depth cycleUniverse.world (cycleRequest .full) ⟨[], 0⟩
  exact ⟨hsame 1 5 (by decide) (by decide), hrefused 0 (by decide)⟩

/-- A half step is resolved when it is asked for with depth 1, and refused with depth 6. -/
theorem halfStep_refused_of_depth :
    let resolver := ofUniverse cycleUniverse .default false
    let half (depth : UInt32) := cycleRequest (.build depth true)
    (∃ result, (resolver.resolve cycleUniverse.world (half 1) ⟨[], 0⟩).1 = .resolved result) ∧
      (resolver.resolve cycleUniverse.world (half 6) ⟨[], 0⟩).1 =
        .failed (.invalid (.depthOutOfRange 6 5)) := by
  intro resolver half
  have haccepted : (half 1).Accepted cycleUniverse .default 0 _ := accepted_cycleRequest rfl
  obtain ⟨result, -, hresolve, -⟩ := haccepted.exists_resolved resolver (p := ⟨[], 0⟩)
    ofSnapshot_cycleBranch rfl
  exact ⟨⟨result, hresolve⟩, by decide +kernel⟩

end Resolver

end BuildPlan
