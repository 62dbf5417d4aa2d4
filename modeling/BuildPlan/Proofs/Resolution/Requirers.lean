import BuildPlan.Proofs.Resolution.Depth

/-! # Who requires some binaries

The filter for binaries asks anew what the packages of a result require and who provides it. In a
full closure it could as well read the records: whoever a member needs is a member too, so that what
it requires is listed, unless it requires itself.
-/
namespace BuildPlan

theorem RequirementFilter.matches_packages_iff {names : PackageSet} {index : BranchIndex}
    {scope : Scope} {reading : NameReading} {n : PackageName} :
    (packages names).Matches index scope reading n ↔
      ∃ m ∈ names, index.Needs scope reading false n m := by
  simp only [Matches, binariesIn, BranchIndex.Needs]
  grind

theorem FilterRequest.mem_packages_of_validate {f : FilterRequest} {leaf : Option PackageName}
    {finitePackage : Bool} {names : PackageSet}
    (h : f.validate = .ok ⟨leaf, finitePackage, some (.packages names)⟩) {n : PackageName} :
    n ∈ names ↔ ∃ text ∈ f.filterByPackage, n = .ofText text ∧ n.text ≠ "" := by
  have hconflict : ¬ f.Conflicting := exists_validate_iff.1 ⟨_, h⟩
  rw [validate_of_not_conflicting hconflict] at h
  obtain ⟨-, -, hrequirement⟩ := Filters.mk.inj (Except.ok.inj h)
  unfold requirement? at hrequirement
  dsimp only at hrequirement
  split at hrequirement
  · cases hsource : f.filterBySource.bind PackageName.ofText? <;> simp [hsource] at hrequirement
  · obtain rfl := RequirementFilter.packages.inj (Option.some.inj hrequirement)
    simp [PackageName.ofText?_eq_some_iff]

namespace CheckedRequest.Finds

variable {u : Universe} {skipDebuginfo : Bool} {s : Snapshot} {index : BranchIndex}
  {r : CheckedRequest} {c : Closure} {n m : PackageName}

theorem mem_members_of_full (hu : Universe.ofSnapshot skipDebuginfo s = .ok u)
    (h : r.Finds u u.packageNames.size index c) (hgoal : r.goal = .full) (hn : n ∈ c.members)
    (hnm : u.Needs r.scope (r.readingOf n) r.asSource n m) : m ∈ c.members := by
  obtain ⟨k, hk⟩ := Closure.mem_members.1 hn
  have hchain : Chain r.seeds (r.expansion.Leads index r.seeds) (k + 1) m :=
    .step (h.isRank_of_level hk).1 (h.leads_iff.2 hnm)
  obtain ⟨j, -, hj⟩ := hchain.exists_isRank
  exact Closure.mem_members.2 ⟨j, (h.levels_iff_isRank_of_full hu hgoal).2 hj⟩

end CheckedRequest.Finds

namespace Request

variable {u : Universe} {skipDebuginfo : Bool} {s : Snapshot} {request : Request}
  {checked : CheckedRequest} {p : Progress} {names : PackageSet}

/-- A record of a full closure lists a name just if its package needs it and has another name. -/
theorem Unfiltered.mem_requires_of_full {resolver : Resolver} {base : Resolution}
    {index : BranchIndex} {c : Closure} (hu : Universe.ofSnapshot skipDebuginfo s = .ok u)
    (hhorizon : resolver.horizon = u.packageNames.size)
    (h : request.Unfiltered u resolver p base checked index c) (hgoal : checked.goal = .full)
    {q : ResolvedPackage} (hq : q ∈ base.packages) {m : PackageName} :
    m ∈ q.requires ↔ m ≠ q.name ∧ u.Needs checked.scope .binary false q.name m := by
  obtain ⟨hseed, hlevel, hrequires⟩ := h.record_spec hq
  have hmem : q.name ∈ c.members := Closure.mem_members.2 ⟨q.depth, hlevel⟩
  have hsource : checked.asSource = false := by rw [CheckedRequest.asSource, hgoal]
  have hreading : checked.readingOf q.name = .binary := by
    simp [CheckedRequest.readingOf, hsource, hseed]
  have hfinds := h.finds
  rw [hhorizon] at hfinds
  rw [hrequires, Graph.mem_requires, hfinds.requires_graph, hreading, hsource]
  constructor
  · rintro ⟨-, -, hne, hneeds⟩
    exact ⟨hne.symm, hneeds⟩
  · rintro ⟨hne, hneeds⟩
    refine ⟨hmem, ?_, hne.symm, hneeds⟩
    apply hfinds.mem_members_of_full hu hgoal hmem
    rwa [hreading, hsource]

/-- In a full closure the filter for binaries keeps the packages whose records list one of them, and
those of the binaries themselves that require something which they provide. -/
theorem Accepted.resolve_full_packages_eq_requirers {config : Config} (withAcl : Bool)
    (hu : Universe.ofSnapshot skipDebuginfo s = .ok u)
    (h : request.Accepted u config p.now checked) (hgoal : request.goal = .full)
    (hfilters : checked.filters = ⟨none, false, some (.packages names)⟩) :
    let resolver := Resolver.ofUniverse u config withAcl
    (∀ n, n ∈ names ↔
        ∃ text ∈ request.filters.filterByPackage, n = .ofText text ∧ n.text ≠ "") ∧
      ∃ base result, (resolver.resolve u.world { request with filters := .none } p).1 =
          .resolved base ∧ (resolver.resolve u.world request p).1 = .resolved result ∧
        ∀ q, q ∈ result.packages ↔ q ∈ base.packages ∧ ((∃ m ∈ names, m ∈ q.requires) ∨
          q.name ∈ names ∧ u.Needs checked.scope .binary false q.name q.name) := by
  intro resolver
  have hvalid := h.validate_eq
  rw [hfilters] at hvalid
  refine ⟨fun n => FilterRequest.mem_packages_of_validate hvalid, ?_⟩
  have hgoal' : checked.goal = .full := h.goal_eq.trans hgoal
  have hnone := h.withFilters FilterRequest.validate_none
  obtain ⟨base, index, c, hbase, hunfiltered⟩ := hnone.exists_unfiltered resolver hu rfl
  obtain ⟨kept, hkept, hresolve⟩ := hunfiltered.exists_filtered hvalid (by simp)
  refine ⟨base, _, hbase, hresolve, fun q => ?_⟩
  have hreading : CheckedRequest.reading { checked with filters := ⟨none, false, none⟩ } =
      .binary := by
    simp [CheckedRequest.reading, CheckedRequest.asSource, hgoal']
  have hbranch : u.branch checked.scope.branch = .ok index := hunfiltered.finds.branch_eq
  rw [List.mem_filter, Std.ExtTreeSet.contains_iff_mem, hkept]
  apply and_congr_right
  intro hq
  have hfound := hunfiltered.mem_names.1 (List.mem_map_of_mem hq)
  have hrequires : ∀ m, m ∈ q.requires ↔
      m ≠ q.name ∧ u.Needs checked.scope .binary false q.name m :=
    fun m => hunfiltered.mem_requires_of_full hu rfl hgoal' hq
  simp only [Filters.Keeps, hfound, hreading, true_and, reduceCtorEq, false_imp_iff, implies_true,
    Option.some.injEq, forall_eq', RequirementFilter.matches_packages_iff, hrequires,
    ← Universe.needs_iff hbranch]
  constructor
  · rintro ⟨m, hm, hneeds⟩
    by_cases hself : m = q.name
    · subst hself
      exact Or.inr ⟨hm, hneeds⟩
    · exact Or.inl ⟨m, hm, hself, hneeds⟩
  · intro hlisted
    rcases hlisted with ⟨m, hm, -, hneeds⟩ | ⟨hm, hneeds⟩
    · exact ⟨m, hm, hneeds⟩
    · exact ⟨q.name, hm, hneeds⟩

/-- The package `b` requires the seed `a`, which is not part of the result itself. -/
theorem Accepted.resolve_full_packages_eq_requirers_cycle :
    let filters := { FilterRequest.none with filterByPackage := [" a", ""] }
    ∃ result, ((Resolver.ofUniverse cycleUniverse .default true).resolve cycleUniverse.world
        { cycleRequest .full with filters } ⟨[], 0⟩).1 = .resolved result ∧
      ⟨"b"⟩ ∈ result.names := by
  intro filters
  let names : PackageSet := .ofList [(⟨"a"⟩ : PackageName)]
  have hvalid : filters.validate = .ok ⟨none, false, some (.packages names)⟩ := by
    decide +kernel
  have haccepted : (cycleRequest .full).Accepted cycleUniverse .default 0 _ :=
    accepted_cycleRequest rfl
  obtain ⟨-, base, result, hbase, hresult, hrecords⟩ :=
    resolve_full_packages_eq_requirers true (p := ⟨[], 0⟩) ofSnapshot_cycleBranch
      (haccepted.withFilters hvalid) rfl rfl
  obtain ⟨base', index, c, hbase', hunfiltered⟩ := haccepted.exists_unfiltered
    (.ofUniverse cycleUniverse .default true) (p := ⟨[], 0⟩) ofSnapshot_cycleBranch rfl
  obtain rfl : base' = base := Outcome.resolved.inj (hbase'.symm.trans hbase)
  have hfound : (CheckedRequest.completed _ index c).discovered.contains ⟨"b"⟩ = true :=
    eq_of_map_eq_ok (f := (·.discovered.contains ⟨"b"⟩)) hunfiltered.finds.eval_completeClosure
      (by decide +kernel)
  have hname := hunfiltered.mem_names.2 (Std.ExtTreeSet.contains_iff_mem.1 hfound)
  obtain ⟨q, hq, hb⟩ := List.mem_map.1 hname
  have hneeds : cycleUniverse.Needs cycleScope .binary false ⟨"b"⟩ ⟨"a"⟩ :=
    ⟨_, rfl, ⟨"a"⟩, by decide +kernel, _, rfl, by decide +kernel⟩
  have hlists : (⟨"a"⟩ : PackageName) ∈ q.requires := by
    rw [hunfiltered.mem_requires_of_full ofSnapshot_cycleBranch rfl rfl hq, hb]
    exact ⟨by decide, hneeds⟩
  refine ⟨result, hresult, hb ▸ List.mem_map_of_mem ((hrecords q).2 ⟨hq, Or.inl ?_⟩)⟩
  exact ⟨⟨"a"⟩, by decide +kernel, hlists⟩

end Request

end BuildPlan
