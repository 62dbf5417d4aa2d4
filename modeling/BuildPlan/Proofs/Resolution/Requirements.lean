import BuildPlan.Proofs.Resolution.Outcome

/-! # What packages are said to require

The facts behind a closure are learnt piece by piece, and those about its last level at the very
end. All the same each of its members is said to require exactly the other members that it needs.
-/
namespace BuildPlan

/-- The names are, in order, those of the other members of a closure that a member needs. -/
def CheckedRequest.ListsNeeds (r : CheckedRequest) (u : Universe) (members : PackageSet)
    (n : PackageName) (names : List PackageName) : Prop :=
  PackageName.Ascending names ∧
    ∀ m, m ∈ names ↔ m ∈ members ∧ m ≠ n ∧ u.Needs r.scope (r.readingOf n) r.asSource n m

variable {u : Universe} {skipDebuginfo : Bool} {s : Snapshot}

namespace CheckedRequest

variable {index : BranchIndex} {r : CheckedRequest} {c : Closure} {horizon : Nat}

theorem Finds.listsNeeds (h : r.Finds u horizon index c) {n : PackageName} (hn : n ∈ c.members) :
    r.ListsNeeds u c.members n ((r.graph index c).requires n) := by
  refine ⟨Std.ExtTreeSet.ordered_toList, fun m => ?_⟩
  rw [Graph.mem_requires, h.requires_graph]
  grind

end CheckedRequest

namespace Request.Accepted

variable {config : Config} {request : Request} {checked : CheckedRequest} {p : Progress}

/-- Every member of a closure, be it a seed or not, requires in the graph just the other members
that it needs, and so do the records. -/
theorem resolve_requires_eq_needs (withAcl : Bool)
    (hu : Universe.ofSnapshot skipDebuginfo s = .ok u)
    (h : request.Accepted u config p.now checked) :
    ∃ c, (checked.completeClosure u.packageNames.size).eval u = .ok c ∧
      (∀ n, n ∈ c.members ↔ n ∈ checked.seeds ∨ n ∈ c.discovered) ∧
      (∀ n ∈ c.members, checked.ListsNeeds u c.members n (c.graph.requires n)) ∧
      ((∃ leaf, checked.filters.leaf = some leaf ∧ leaf ∉ c.members ∧
          ((Resolver.ofUniverse u config withAcl).resolve u.world request p).1 =
            .failed (.invalid (.leafNotInClosure leaf))) ∨
        ∃ result, ((Resolver.ofUniverse u config withAcl).resolve u.world request p).1 =
            .resolved result ∧
          (checked.filters.isActive = false → ∀ n ∈ c.discovered, n ∈ result.names) ∧
          ∀ q ∈ result.packages, q.name ∈ c.discovered ∧
            checked.ListsNeeds u c.members q.name q.requires) := by
  obtain ⟨index, c, hfinds⟩ := CheckedRequest.exists_finds h.checkScope_eq u.packageNames.size
  have hmembers : ∀ n, n ∈ c.members ↔ n ∈ checked.seeds ∨ n ∈ c.discovered := by
    intro n
    rw [hfinds.mem_discovered]
    have := hfinds.grown.mem_of_mem_seeds n
    tauto
  refine ⟨_, hfinds.eval_completeClosure, hmembers, fun n hn => hfinds.listsNeeds hn, ?_⟩
  have hresolve := Resolver.resolve_world (.ofUniverse u config withAcl) h
  by_cases hleaf : ∀ leaf, checked.filters.leaf = some leaf → leaf ∈ c.members
  · obtain ⟨kept, packages, hemits, heval⟩ :=
      hfinds.exists_emits (.ofUniverse u config withAcl) hu hleaf
    rw [heval] at hresolve
    refine Or.inr ⟨_, hresolve, fun hactive n hn => ?_, fun q hq => ?_⟩
    · exact (hemits.mem_names_annotated withAcl).2
        ((hemits.mem_kept n).2 ⟨hn, Filters.keeps_of_not_isActive hactive⟩)
    · have hfound :=
        hemits.mem_discovered (CheckedRequest.mem_of_mem_annotated hemits.records_eq hq).2
      have hrecord := ((CheckedRequest.annotated_records hemits.records_eq withAcl).2 q hq).1
      refine ⟨hfound, ?_⟩
      rw [(CheckedRequest.record_shows hrecord).2]
      exact hfinds.listsNeeds ((hmembers q.name).2 (Or.inr hfound))
  · push Not at hleaf
    obtain ⟨leaf, hl, hmem⟩ := hleaf
    refine Or.inl ⟨leaf, hl, hmem, ?_⟩
    rw [hresolve, hfinds.eval_program_of_leaf_notMem (.ofUniverse u config withAcl) hl hmem]
    rfl

/-- The expansion has not asked about `b`, which is on the last level. -/
theorem resolve_requires_eq_needs_cycle : ∃ result,
    ((Resolver.ofUniverse cycleUniverse .default true).resolve cycleUniverse.world
        (cycleRequest (.build 2 false)) ⟨[], 0⟩).1 = .resolved result ∧
      ∃ q ∈ result.packages, q.name = ⟨"b"⟩ ∧ ⟨"a"⟩ ∈ q.requires ∧ ⟨"c"⟩ ∈ q.requires := by
  have hgoal : (cycleRequest (.build 2 false)).checkGoal .default = .ok () := by decide +kernel
  obtain ⟨c, heval, hmembers, -, hend⟩ := resolve_requires_eq_needs true (p := ⟨[], 0⟩)
    ofSnapshot_cycleBranch (accepted_cycleRequest hgoal)
  have hdiscovered : c.discovered.toList = [⟨"b"⟩, ⟨"c"⟩] :=
    eq_of_map_eq_ok (f := (·.discovered.toList)) heval (by decide +kernel)
  have hfound : ∀ n, n ∈ c.discovered ↔ n = ⟨"b"⟩ ∨ n = ⟨"c"⟩ := fun n => by
    rw [← Std.ExtTreeSet.mem_toList, hdiscovered]
    simp
  have hseed : (⟨"a"⟩ : PackageName) ∈ (cycleRequest (.build 2 false)).seedSet := by
    decide +kernel
  have hneeds : cycleUniverse.Needs cycleScope .source true ⟨"b"⟩ ⟨"a"⟩ ∧
      cycleUniverse.Needs cycleScope .source true ⟨"b"⟩ ⟨"c"⟩ :=
    ⟨⟨_, rfl, ⟨"a"⟩, by decide +kernel, _, rfl, by decide +kernel⟩,
      ⟨_, rfl, ⟨"c"⟩, by decide +kernel, _, rfl, by decide +kernel⟩⟩
  rcases hend with ⟨_, hleaf, -⟩ | ⟨result, hresolve, hall, hrecords⟩
  · cases hleaf
  · obtain ⟨q, hq, hname⟩ := List.mem_map.1 (hall rfl ⟨"b"⟩ ((hfound _).2 (Or.inl rfl)))
    obtain ⟨-, -, hrequires⟩ := hrecords q hq
    rw [hname] at hrequires
    have ha := (hmembers ⟨"a"⟩).2 (Or.inl hseed)
    have hc := (hmembers ⟨"c"⟩).2 (Or.inr ((hfound _).2 (Or.inr rfl)))
    exact ⟨result, hresolve, q, hq, hname, (hrequires _).2 ⟨ha, by decide, hneeds.1⟩,
      (hrequires _).2 ⟨hc, by decide, hneeds.2⟩⟩

end Request.Accepted

end BuildPlan
