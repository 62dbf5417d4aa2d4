import BuildPlan.Proofs.Resolution.Calls
import BuildPlan.Proofs.Resolution.Depth
import BuildPlan.Proofs.Resolution.Faults
import BuildPlan.Proofs.Universe.Trimming

/-! # Resolutions without what is not seen

A resolution does not tell what its scope does not see. It puts no call to the universe but about
the scope. The number of rounds of a full closure, for which all names in the universe count, is no
exception: there are more than enough for those that can be found.
-/
namespace BuildPlan

theorem Call.Concerns.about {scope : Scope} {c : Call} (h : c.Concerns scope) : c.About scope := by
  cases h <;> rfl

namespace CheckedRequest

variable {r : CheckedRequest} {u : Universe} {index : BranchIndex} {c c' : Closure}
  {horizon horizon' : Nat}

theorem rounds_eq_or (r : CheckedRequest) (horizon horizon' : Nat) :
    r.rounds horizon = r.rounds horizon' ∨ r.goal = .full := by
  obtain ⟨⟨depth, _ | _⟩ | _, seeds, scope, filters⟩ := r
  · exact Or.inl rfl
  · exact Or.inl rfl
  · exact Or.inr rfl

/-- Two horizons give a closure the same levels if there are enough rounds for all ranks. -/
theorem Finds.levels_eq_of_horizons (h : r.Finds u horizon index c)
    (h' : r.Finds u horizon' index c')
    (henough : ∀ k m, IsRank r.seeds (r.expansion.Leads index r.seeds) k m →
      k ≤ horizon + 1 ∧ k ≤ horizon' + 1) (m : PackageName) : c.levels[m]? = c'.levels[m]? := by
  apply Option.ext
  intro k
  rcases r.rounds_eq_or horizon horizon' with hrounds | hgoal
  · rw [h.levels_iff, h'.levels_iff, hrounds]
  · have hbuild : ∀ depth, r.goal ≠ .build depth true := by simp [hgoal]
    have hfull : ∀ horizon, r.rounds horizon = horizon + 1 := by simp [rounds, hgoal]
    rw [h.levels_iff_isRank hbuild, h'.levels_iff_isRank hbuild, hfull, hfull]
    refine and_congr_left fun hrank => ?_
    obtain ⟨hle, hle'⟩ := henough k m hrank
    omega

theorem Finds.eval_program_eq {resolver resolver' : Resolver}
    (h : r.Finds u resolver.horizon index c) (h' : r.Finds u resolver'.horizon index c')
    (hlevels : ∀ n : PackageName, c.levels[n]? = c'.levels[n]?)
    (hacl : resolver.withAcl = resolver'.withAcl) :
    (r.program resolver).eval u = (r.program resolver').eval u := by
  rw [eval_program_eq_bind resolver h.checkScope_eq h.branch_eq h.eval_closure,
    eval_program_eq_bind resolver' h'.checkScope_eq h'.branch_eq h'.eval_closure,
    h.graph_eq h' rfl rfl rfl hlevels, h.discovered_eq h' rfl hlevels,
    funext fun kept => h.records_eq h' rfl rfl rfl hlevels kept, hacl]

theorem allCalls_about (r : CheckedRequest) (resolver : Resolver) :
    (r.program resolver).AllCalls fun c => ∃ t, c.About (r.scope.withDependencyType t) := by
  obtain ⟨next, hprogram, hnext⟩ := r.exists_program_eq_ask resolver
  rw [hprogram]
  constructor
  · exact ⟨r.scope.dependencyType, rfl⟩
  · intro answer
    apply (hnext answer).mono
    rintro c (hc | ⟨-, hc⟩)
    · exact ⟨r.scope.dependencyType, hc.about⟩
    · exact ⟨.source, hc.about⟩

end CheckedRequest

namespace Snapshot.Trimmed

variable {skipDebuginfo : Bool} {scope : Scope} {s s' : Snapshot} {u u' : Universe}
  (h : s.Trimmed skipDebuginfo scope s') (hu : Universe.ofSnapshot skipDebuginfo s = .ok u)
include h hu

theorem eval_program_eq (hu' : Universe.ofSnapshot skipDebuginfo s' = .ok u') {r : CheckedRequest}
    (hscope : r.scope = scope) (config : Config) (withAcl : Bool) :
    (r.program (.ofUniverse u config withAcl)).eval u =
      (r.program (.ofUniverse u' config withAcl)).eval u' := by
  have hcalls : (r.program (.ofUniverse u' config withAcl)).eval u =
      (r.program (.ofUniverse u' config withAcl)).eval u' := by
    refine (Program.eval_calls_congr (fun c ⟨t, hc⟩ => ?_) (r.allCalls_about _)).1
    exact h.answer_eq hu hu' (hscope ▸ hc)
  rw [← hcalls]
  cases hcheck : u.checkScope r.scope with
  | error e =>
    rw [CheckedRequest.eval_program_of_checkScope_eq_error hcheck,
      CheckedRequest.eval_program_of_checkScope_eq_error hcheck]
  | ok _ =>
    obtain ⟨index, c, hfinds⟩ :=
      CheckedRequest.exists_finds hcheck (Resolver.ofUniverse u config withAcl).horizon
    obtain ⟨index', c', hfinds'⟩ :=
      CheckedRequest.exists_finds hcheck (Resolver.ofUniverse u' config withAcl).horizon
    obtain rfl := hfinds.index_unique hfinds' rfl
    refine hfinds.eval_program_eq hfinds' (hfinds.levels_eq_of_horizons hfinds' ?_) rfl
    intro k m hrank
    constructor
    · exact hfinds.isRank_le_size hu hrank
    · apply hrank.le_size
      intro n m hnm
      have hneeds := hfinds.leads_iff.1 hnm
      rw [hscope, h.needs_iff hu hu'] at hneeds
      exact hneeds.mem_packageNames hu'

end Snapshot.Trimmed

/-- What a scope does not see cannot change how a resolution in it ends. -/
theorem Snapshot.Trimmed.resolve_outcome_eq {skipDebuginfo : Bool} {scope : Scope}
    {s s' : Snapshot} {u : Universe} (h : s.Trimmed skipDebuginfo scope s')
    (hu : Universe.ofSnapshot skipDebuginfo s = .ok u) {config : Config} {request : Request}
    (hscope : config.resolveScope request.scope.branch request.scope.archs
      request.scope.dependencyType = .ok scope) :
    ∃ u', Universe.ofSnapshot skipDebuginfo s' = .ok u' ∧ ∀ (withAcl : Bool) (p : Progress),
      ((Resolver.ofUniverse u' config withAcl).resolve u'.world request p).1 =
        ((Resolver.ofUniverse u config withAcl).resolve u.world request p).1 := by
  obtain ⟨u', hu'⟩ := h.exists_ofSnapshot hu
  refine ⟨u', hu', ?_⟩
  intro withAcl p
  let resolver (v : Universe) : Resolver := .ofUniverse v config withAcl
  cases hcheck : request.check config with
  | error e =>
    have hcheck (v : Universe) : request.check (resolver v).config = .error e := hcheck
    rw [Resolver.resolve_of_check_eq_error (hcheck u'),
      Resolver.resolve_of_check_eq_error (hcheck u)]
  | ok checked =>
    obtain ⟨-, -, _, scope', -, hscope', hchecked⟩ := Request.check_eq_ok_iff.1 hcheck
    obtain rfl := Except.ok.inj (hscope.symm.trans hscope')
    have hcheck (v : Universe) : request.check (resolver v).config = .ok checked := hcheck
    cases hstart : Allowance.start? p.now request.deadline config.accessorTimeout with
    | none =>
      rw [Resolver.resolve_of_start_eq_none (hcheck u') hstart,
        Resolver.resolve_of_start_eq_none (hcheck u) hstart]
    | some allowance =>
      rw [Resolver.resolve_of_start_eq_some (hcheck u') hstart,
        Resolver.resolve_of_start_eq_some (hcheck u) hstart, Program.run_world, Program.run_world,
        h.eval_program_eq hu hu' (by rw [hchecked])]

/-! ### A branch with much that is not seen -/

/-- Beside the small branch there are a binary for another architecture, debug symbols, and facts
that no index looks at. -/
def noisyBranch : BranchSnapshot :=
  let b := (SnapshotBuilder.start "Sisyphus"
    |>.source "a" ["b"] |>.binary "a" "a" .x86_64 ["c"] []
    |>.source "b" ["c"] |>.binary "b" "b" .noarch ["a"] []
    |>.source "c" [] |>.binary "c" "libc" .x86_64 ["b"] ["c"]
    |>.binary "a" "a-devel" .aarch64 ["libc"] ["b"]
    |>.binary "b" "b-debuginfo" .noarch ["libc"] ["c"]).current
  { b with dependencies := b.dependencies ++
      [⟨⟨1⟩, ⟨"c"⟩, "", 0, .conflict⟩, ⟨⟨2⟩, ⟨"c"⟩, "", 0, .obsolete⟩,
        ⟨⟨1⟩, ⟨"c"⟩, "", 0, .provide⟩, ⟨⟨9⟩, ⟨"c"⟩, "", 0, .provide⟩] }

theorem Snapshot.trimmed_noisyBranch :
    Trimmed true cycleScope ⟨[.empty "p10", noisyBranch]⟩ ⟨[cycleBranch]⟩ := by
  let named (b : BranchSnapshot) : Bool := Text.lowerCase b.name == cycleScope.branch
  have hother : ¬ named (.empty "p10") = true := by decide +kernel
  refine ⟨[noisyBranch], .cons _ (.refl _), ?_, .cons ?_ .nil⟩
  · exact (List.filter_cons_of_neg (p := named) hother).symm
  · constructor
    · rfl
    · rfl
    · rfl
    · decide +kernel
    · decide +kernel
    · decide +kernel
    · decide +kernel

theorem Snapshot.Trimmed.resolve_outcome_eq_noisy : ∃ u result,
    Universe.ofSnapshot true ⟨[.empty "p10", noisyBranch]⟩ = .ok u ∧
      ((Resolver.ofUniverse u .default true).resolve u.world (cycleRequest .full) ⟨[], 0⟩).1 =
        .resolved result ∧ ⟨"libc"⟩ ∈ result.names := by
  obtain ⟨u, hu⟩ : ∃ u, Universe.ofSnapshot true ⟨[.empty "p10", noisyBranch]⟩ = .ok u :=
    Universe.exists_ofSnapshot (by decide +kernel)
  let request := cycleRequest .full
  have hscope : Config.default.resolveScope request.scope.branch request.scope.archs
      request.scope.dependencyType = .ok cycleScope := by decide +kernel
  obtain ⟨u', hu', hsame⟩ := Snapshot.trimmed_noisyBranch.resolve_outcome_eq hu hscope
  obtain rfl : cycleUniverse = u' := Except.ok.inj (ofSnapshot_cycleBranch.symm.trans hu')
  obtain ⟨result, hresolve, hlibc⟩ := exists_resolved_cycleRequest
  refine ⟨u, result, hu, ?_, hlibc⟩
  rw [← hsame true ⟨[], 0⟩]
  exact hresolve

end BuildPlan
