import BuildPlan.Proofs.Resolution.View
import BuildPlan.Proofs.Universe.Records

/-! # Consumers of a source

The filter for a source goes by names: it keeps what requires something that a binary provides whose
name is that of a binary of the source. Every consumer of the binaries of the source is kept, and
nothing else as long as no other source has a binary of such a name.
-/
namespace BuildPlan

namespace Package

/-- A binary has the name of one that was built from a source. -/
def NamedAsBuiltFrom (packages : List Package) (scope : Scope) (source : PackageName)
    (q : Package) : Prop :=
  ∃ q' : Package, q'.IsBinaryIn packages scope ∧ q'.BuiltFrom packages source ∧ q'.name = q.name

end Package

/-- A source requires something that is provided by a binary of the scope with some property. -/
def Universe.Consumes (u : Universe) (b : BranchSnapshot) (packages : List Package)
    (scope : Scope) (P : Package → Prop) (n : PackageName) : Prop :=
  ∃ requirements, u.requirementsOf (.ofList [n]) .source scope = .ok requirements ∧
    ∃ a ∈ SetMap.range requirements, ∃ q : Package,
      q.IsBinaryIn packages scope ∧ b.Provides q a ∧ P q

theorem Universe.Consumes.mono {u : Universe} {b : BranchSnapshot} {packages : List Package}
    {scope : Scope} {n : PackageName} {P Q : Package → Prop}
    (hPQ : ∀ q : Package, q.IsBinaryIn packages scope → P q → Q q)
    (h : u.Consumes b packages scope P n) : u.Consumes b packages scope Q n := by
  obtain ⟨requirements, hrequirements, a, ha, q, hq, hprovides, hP⟩ := h
  exact ⟨requirements, hrequirements, a, ha, q, hq, hprovides, hPQ q hq hP⟩

section Answers

variable {u : Universe} {b : BranchSnapshot} {packages : List Package} {scope : Scope}
  {n source : PackageName} (hbranch : u.branch scope.branch = .ok (.ofPackages packages b))
include hbranch

theorem Universe.consumes_iff {P : Package → Prop} : u.Consumes b packages scope P n ↔
    ∃ a ∈ (BranchIndex.ofPackages packages b).requirementsOfName .source scope n,
      ∃ q : Package, q.IsBinaryIn packages scope ∧ b.Provides q a ∧ P q := by
  simp [Consumes, requirementsOf_eq hbranch, BranchIndex.mem_range_requirementsOf]

variable (hhash : (packages.map (·.hash)).Nodup)
include hhash

theorem Universe.consumes_builtFrom_iff_needs :
    u.Consumes b packages scope (Package.BuiltFrom packages source) n ↔
      (BranchIndex.ofPackages packages b).Needs scope .source true n source := by
  rw [consumes_iff hbranch, BranchIndex.Needs]
  refine exists_congr fun a => and_congr_right fun _ => ?_
  simp only [BranchIndex.mem_providersOfCapability_iff hhash, if_true]
  constructor
  · rintro ⟨q, hq, hprovides, hsource⟩
    exact ⟨q, hq.mem, hq.binary, hq.admits, hprovides, hsource⟩
  · rintro ⟨q, hmem, hbinary, hadmits, hprovides, hsource⟩
    exact ⟨q, ⟨hmem, hbinary, hadmits⟩, hprovides, hsource⟩

theorem RequirementFilter.matches_builtFrom_iff :
    (builtFrom source).Matches (.ofPackages packages b) scope .source n ↔
      u.Consumes b packages scope (Package.NamedAsBuiltFrom packages scope source) n := by
  rw [Universe.consumes_iff hbranch]
  refine exists_congr fun a => and_congr_right fun _ => ?_
  simp only [binariesIn, BranchIndex.mem_binariesOf,
    BranchIndex.mem_providersOfCapability_iff hhash, Bool.false_eq_true, if_false,
    Option.some.injEq]
  constructor
  · rintro ⟨m, ⟨q, hmem, hbinary, hadmits, hprovides, rfl⟩, q', hmem', hbinary', hsource, hadmits',
      hname⟩
    exact ⟨q, ⟨hmem, hbinary, hadmits⟩, hprovides, q', ⟨hmem', hbinary', hadmits'⟩, hsource, hname⟩
  · rintro ⟨q, hq, hprovides, q', hq', hsource, hname⟩
    exact ⟨q.name, ⟨q, hq.mem, hq.binary, hq.admits, hprovides, rfl⟩, q', hq'.mem, hq'.binary,
      hsource, hq'.admits, hname⟩

end Answers

namespace Request.Accepted

variable {u : Universe} {skipDebuginfo : Bool} {s : Snapshot} {request : Request}
  {checked : CheckedRequest} {p : Progress} {source : PackageName} {depth : UInt32}
  {halfStep : Bool}

theorem exists_builtFrom (resolver : Resolver) (hu : Universe.ofSnapshot skipDebuginfo s = .ok u)
    (h : request.Accepted u resolver.config p.now checked)
    (hgoal : request.goal = .build depth halfStep)
    (hfilters : checked.filters = ⟨none, false, some (.builtFrom source)⟩) :
    ∃ base result, (resolver.resolve u.world { request with filters := .none } p).1 =
        .resolved base ∧ (resolver.resolve u.world request p).1 = .resolved result ∧
      ∃ b, s.branch? checked.scope.branch = some b ∧
        let packages := BranchIndex.keptPackages skipDebuginfo b
        u.branch checked.scope.branch = .ok (.ofPackages packages b) ∧
          (packages.map (·.hash)).Nodup ∧
          ∀ n, n ∈ result.names ↔ n ∈ base.names ∧ u.Consumes b packages checked.scope
            (Package.NamedAsBuiltFrom packages checked.scope source) n := by
  have hreading : CheckedRequest.reading { checked with filters := ⟨none, false, none⟩ } =
      .source := by
    simp [CheckedRequest.reading, CheckedRequest.asSource, h.goal_eq, hgoal]
  have hvalid := h.validate_eq
  rw [hfilters] at hvalid
  have hnone := h.withFilters FilterRequest.validate_none
  obtain ⟨base, index, c, hbase, hunfiltered⟩ := hnone.exists_unfiltered resolver hu rfl
  have hindex : u.branch checked.scope.branch = .ok index := hunfiltered.finds.branch_eq
  obtain ⟨b, hb, rfl⟩ := Universe.exists_branch? hu hindex
  have hhash := Universe.nodup_hash_of_branch? hu hb
  obtain ⟨kept, hkept, hresolve⟩ := hunfiltered.exists_filtered hvalid (by simp)
  refine ⟨base, _, hbase, hresolve, b, hb, hindex, hhash, fun n => ?_⟩
  rw [Resolution.mem_names_filter, hkept, ← RequirementFilter.matches_builtFrom_iff hindex hhash]
  refine and_congr_right fun hn => ?_
  have hdiscovered := hunfiltered.mem_names.1 hn
  simp [Filters.Keeps, hdiscovered, hreading]

/-- The filter for a source keeps what consumes a binary with the name of one of its binaries, and
so all that consumes one of its binaries. It keeps nothing else if the names are its own. -/
theorem resolve_builtFrom_eq_consumers {config : Config} (withAcl : Bool)
    (hu : Universe.ofSnapshot skipDebuginfo s = .ok u)
    (h : request.Accepted u config p.now checked) (hgoal : request.goal = .build depth halfStep)
    (hfilters : checked.filters = ⟨none, false, some (.builtFrom source)⟩) :
    let resolver := Resolver.ofUniverse u config withAcl
    ∃ base result, (resolver.resolve u.world { request with filters := .none } p).1 =
        .resolved base ∧ (resolver.resolve u.world request p).1 = .resolved result ∧
      ∃ b, s.branch? checked.scope.branch = some b ∧
        let packages := BranchIndex.keptPackages skipDebuginfo b
        let consumes := u.Consumes b packages checked.scope
        (∀ n, n ∈ result.names ↔ n ∈ base.names ∧
          consumes (Package.NamedAsBuiltFrom packages checked.scope source) n) ∧
        (∀ n ∈ base.names, consumes (Package.BuiltFrom packages source) n → n ∈ result.names) ∧
        ((∀ q : Package, q.IsBinaryIn packages checked.scope →
            q.NamedAsBuiltFrom packages checked.scope source → q.BuiltFrom packages source) →
          ∀ n, n ∈ result.names ↔
            n ∈ base.names ∧ consumes (Package.BuiltFrom packages source) n) := by
  intro resolver
  obtain ⟨base, result, hbase, hresult, b, hb, -, -, hnames⟩ :=
    h.exists_builtFrom resolver hu hgoal hfilters
  refine ⟨base, result, hbase, hresult, b, hb, hnames, ?_, ?_⟩
  · intro n hn hconsumes
    apply (hnames n).2
    exact ⟨hn, hconsumes.mono fun q hq hsource => ⟨q, hq, hsource, rfl⟩⟩
  · intro hown n
    rw [hnames]
    apply and_congr_right
    intro _
    constructor
    · exact fun hconsumes => hconsumes.mono hown
    · exact fun hconsumes => hconsumes.mono fun q hq hsource => ⟨q, hq, hsource, rfl⟩

/-- The source `b` requires what `libc` provides, which was built from `c`. -/
theorem resolve_builtFrom_eq_consumers_cycle :
    let filters := { FilterRequest.none with filterBySource := some "c" }
    ∃ result, ((Resolver.ofUniverse cycleUniverse .default true).resolve cycleUniverse.world
        { cycleRequest (.build 3 false) with filters } ⟨[], 0⟩).1 = .resolved result ∧
      ⟨"b"⟩ ∈ result.names := by
  intro filters
  have hgoal : (cycleRequest (.build 3 false)).checkGoal .default = .ok () := by decide +kernel
  have hvalid : filters.validate = .ok ⟨none, false, some (.builtFrom ⟨"c"⟩)⟩ := by
    decide +kernel
  have haccepted := (accepted_cycleRequest hgoal).withFilters hvalid
  obtain ⟨base, result, hbase, hresult, b, hb, -, hconsumers, -⟩ :=
    resolve_builtFrom_eq_consumers true (p := ⟨[], 0⟩) ofSnapshot_cycleBranch haccepted rfl rfl
  have hname : Text.lowerCase cycleBranch.name = cycleScope.branch := by decide +kernel
  obtain rfl : cycleBranch = b := Option.some.inj ((Snapshot.branch?_singleton hname).symm.trans hb)
  obtain ⟨base', c, hbase', heval, -, hnames, -⟩ :=
    (accepted_cycleRequest hgoal).exists_resolved (.ofUniverse cycleUniverse .default true)
      (p := ⟨[], 0⟩) ofSnapshot_cycleBranch rfl
  obtain rfl : base' = base := Outcome.resolved.inj (hbase'.symm.trans hbase)
  have hfound : c.discovered.contains ⟨"b"⟩ = true :=
    eq_of_map_eq_ok (f := (·.discovered.contains ⟨"b"⟩)) heval (by decide +kernel)
  have hneeds : (BranchIndex.ofPackages (BranchIndex.keptPackages true cycleBranch)
      cycleBranch).Needs cycleScope .source true ⟨"b"⟩ ⟨"c"⟩ :=
    ⟨⟨"c"⟩, by decide +kernel, by decide +kernel⟩
  refine ⟨result, hresult, hconsumers _ ?_ ?_⟩
  · exact (hnames _).2 (Std.ExtTreeSet.contains_iff_mem.1 hfound)
  · have hhash := Universe.nodup_hash_of_branch? ofSnapshot_cycleBranch hb
    exact (Universe.consumes_builtFrom_iff_needs rfl hhash).2 hneeds

end Request.Accepted

/-! ### Two libraries of one name -/

/-- Two sources have a library of the same name. Only that of `two` provides what `b` requires. -/
def twinBranch : BranchSnapshot :=
  (SnapshotBuilder.start "Sisyphus"
    |>.source "a" ["b"] |>.package "b" ["cap"]
    |>.source "one" [] |>.binary "one" "lib" .x86_64 [] []
    |>.source "two" [] |>.binary "two" "lib" .noarch [] ["cap"]).current

def twinUniverse : Universe :=
  ⟨.ofList [("sisyphus",
    BranchIndex.ofPackages (BranchIndex.keptPackages true twinBranch) twinBranch)]⟩

theorem ofSnapshot_twinBranch : Universe.ofSnapshot true ⟨[twinBranch]⟩ = .ok twinUniverse :=
  Universe.ofSnapshot_singleton (by decide +kernel) (by decide +kernel)

theorem accepted_twinUniverse {goal : Goal}
    (h : (cycleRequest goal).checkGoal .default = .ok ()) :
    (cycleRequest goal).Accepted twinUniverse .default 0
      ⟨goal, (cycleRequest goal).seedSet, cycleScope, ⟨none, false, none⟩⟩ :=
  accepted_of_cycleScope h (by decide +kernel)

/-- The filter for `one` keeps `b`, which consumes nothing that was built from `one`. -/
theorem filterBySource_keeps_consumer_of_twin :
    let resolver := Resolver.ofUniverse twinUniverse .default true
    let request := cycleRequest (.build 2 false)
    let filters := { FilterRequest.none with filterBySource := some "one" }
    let packages := BranchIndex.keptPackages true twinBranch
    ∃ base result,
      (resolver.resolve twinUniverse.world request ⟨[], 0⟩).1 = .resolved base ∧
      (resolver.resolve twinUniverse.world { request with filters } ⟨[], 0⟩).1 =
        .resolved result ∧
      ⟨"b"⟩ ∈ base.names ∧ ⟨"b"⟩ ∈ result.names ∧
      ¬ twinUniverse.Consumes twinBranch packages cycleScope
        (Package.BuiltFrom packages ⟨"one"⟩) ⟨"b"⟩ := by
  intro resolver request filters packages
  have hgoal : request.checkGoal .default = .ok () := by decide +kernel
  have hvalid : filters.validate = .ok ⟨none, false, some (.builtFrom ⟨"one"⟩)⟩ := by
    decide +kernel
  have haccepted := accepted_twinUniverse hgoal
  obtain ⟨base, result, hbase, hresult, b, hb, hbranch, hhash, hkept⟩ :=
    (haccepted.withFilters hvalid).exists_builtFrom resolver (p := ⟨[], 0⟩)
      ofSnapshot_twinBranch rfl rfl
  have hname : Text.lowerCase twinBranch.name = cycleScope.branch := by decide +kernel
  obtain rfl : twinBranch = b := Option.some.inj ((Snapshot.branch?_singleton hname).symm.trans hb)
  obtain ⟨base', c, hbase', heval, -, hnames, -⟩ :=
    haccepted.exists_resolved resolver (p := ⟨[], 0⟩) ofSnapshot_twinBranch rfl
  obtain rfl : base' = base := Outcome.resolved.inj (hbase'.symm.trans hbase)
  have hfound : c.discovered.contains ⟨"b"⟩ = true :=
    eq_of_map_eq_ok (f := (·.discovered.contains ⟨"b"⟩)) heval (by decide +kernel)
  have hemitted := (hnames _).2 (Std.ExtTreeSet.contains_iff_mem.1 hfound)
  have hmatches : (RequirementFilter.builtFrom ⟨"one"⟩).Matches (.ofPackages packages twinBranch)
      cycleScope .source ⟨"b"⟩ :=
    ⟨⟨"cap"⟩, by decide +kernel, ⟨"lib"⟩, by decide +kernel, by decide +kernel⟩
  refine ⟨base', result, hbase, hresult, hemitted, (hkept _).2 ⟨hemitted, ?_⟩, ?_⟩
  · exact (RequirementFilter.matches_builtFrom_iff hbranch hhash).1 hmatches
  · rw [Universe.consumes_builtFrom_iff_needs hbranch hhash]
    rintro ⟨a, ha, hone⟩
    have hrequired : ((BranchIndex.ofPackages packages twinBranch).requirementsOfName .source
        cycleScope ⟨"b"⟩).toList = [⟨"cap"⟩] := by decide +kernel
    rw [← Std.ExtTreeSet.mem_toList, hrequired, List.mem_singleton] at ha
    subst ha
    exact absurd hone (by decide +kernel)

end BuildPlan
