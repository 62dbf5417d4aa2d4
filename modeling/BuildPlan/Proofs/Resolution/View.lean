import BuildPlan.Proofs.Resolution.Outcome

/-! # Filters as views

Filters leave records out and change none of those that they keep: what a package requires, its
cycle and its depth are those of the whole closure. Together they keep what each of them keeps
alone.
-/
namespace BuildPlan

namespace CheckedRequest

variable {u : Universe} {index : BranchIndex} {r : CheckedRequest} {c : Closure} {horizon : Nat}
  {kept part : PackageSet} {packages : List ResolvedPackage}

theorem recordOf_congr {n : PackageName} (hpart : n ∈ part) (hkept : n ∈ kept) :
    r.recordOf index c kept n = r.recordOf index c part n := by
  unfold recordOf record
  rw [BranchIndex.getElem?_describe_of_mem hpart, BranchIndex.getElem?_describe_of_mem hkept]

theorem records_of_subset (h : r.records index c kept = .ok packages)
    (hpart : ∀ n ∈ part, n ∈ kept) :
    r.records index c part = .ok (packages.filter fun q => part.contains q.name) := by
  have horder : (r.graph index c).sort.order.filter part.contains =
      ((r.graph index c).sort.order.filter kept.contains).filter part.contains := by
    rw [List.filter_filter]
    refine List.filter_congr fun n _ => ?_
    have := hpart n
    grind
  rw [records, horder]
  refine mapM_filter (fun n q hq => ?_) (fun n hn => ?_) h
  · rw [(record_eq_ok hq).1]
  · have hn := Std.ExtTreeSet.contains_iff_mem.1 hn
    exact recordOf_congr hn (hpart n hn)

theorem annotated_filter (withAcl : Bool) (packages : List ResolvedPackage)
    (p : PackageName → Bool) :
    annotated index withAcl (packages.filter fun q => p q.name) =
      (annotated index withAcl packages).filter fun q => p q.name := by
  unfold annotated
  split
  · rw [List.filter_map]
    rfl
  · rfl

theorem Finds.withFilters (h : r.Finds u horizon index c) (filters : Filters) :
    { r with filters }.Finds u horizon index c :=
  ⟨h.checkScope_eq, h.branch_eq, h.eval_closure, h.grown⟩

end CheckedRequest

namespace FilterRequest

theorem validate_none : none.validate = .ok ⟨.none, false, .none⟩ := by decide +kernel

/-! ### One filter alone -/

/-- The filter for a leaf alone. -/
def leafOnly (f : FilterRequest) : FilterRequest := { none with leaf := f.leaf }

/-- The filter for what nothing else requires alone. -/
def finiteOnly (f : FilterRequest) : FilterRequest := { none with finitePackage := f.finitePackage }

/-- The requirement filters alone. -/
def requirementOnly (f : FilterRequest) : FilterRequest :=
  { none with filterByPackage := f.filterByPackage, filterBySource := f.filterBySource }

theorem not_conflicting_of_filterBySource {f : FilterRequest} (h : f.filterBySource = .none) :
    ¬ f.Conflicting := by
  rintro ⟨-, text, htext, -⟩
  rw [h] at htext
  cases htext

theorem validate_leafOnly (f : FilterRequest) :
    f.leafOnly.validate = .ok ⟨f.leaf.bind PackageName.ofText?, false, .none⟩ :=
  validate_of_not_conflicting (not_conflicting_of_filterBySource rfl)

theorem validate_finiteOnly (f : FilterRequest) :
    f.finiteOnly.validate = .ok ⟨.none, f.finitePackage, .none⟩ :=
  validate_of_not_conflicting (not_conflicting_of_filterBySource rfl)

theorem validate_requirementOnly {f : FilterRequest} (h : ¬ f.Conflicting) :
    f.requirementOnly.validate = .ok ⟨.none, false, f.requirement?⟩ :=
  validate_of_not_conflicting (r := f.requirementOnly) h

end FilterRequest

theorem Resolution.mem_names_filter_iff {base : Resolution} {keep : PackageName → Bool}
    {n : PackageName} :
    n ∈ ({ base with packages := base.packages.filter fun q => keep q.name } :
      Resolution).names ↔ n ∈ base.names ∧ keep n = true := by
  simp only [names, List.mem_map, List.mem_filter]
  constructor
  · rintro ⟨q, ⟨hq, hkept⟩, rfl⟩
    exact ⟨⟨q, hq, rfl⟩, hkept⟩
  · rintro ⟨⟨q, hq, rfl⟩, hkept⟩
    exact ⟨q, ⟨hq, hkept⟩, rfl⟩

theorem Resolution.mem_names_filter {base : Resolution} {kept : PackageSet} {n : PackageName} :
    n ∈ ({ base with packages := base.packages.filter fun q => kept.contains q.name } :
      Resolution).names ↔ n ∈ base.names ∧ n ∈ kept := by
  rw [mem_names_filter_iff, Std.ExtTreeSet.contains_iff_mem]

theorem Resolution.contains_names_filter {base : Resolution} {q : ResolvedPackage}
    (hq : q ∈ base.packages) (kept : PackageSet) :
    ({ base with packages := base.packages.filter fun q => kept.contains q.name } :
      Resolution).names.contains q.name = kept.contains q.name := by
  rw [Bool.eq_iff_iff, List.contains_iff_mem, mem_names_filter, Std.ExtTreeSet.contains_iff_mem]
  exact and_iff_right (List.mem_map_of_mem hq)

namespace Request

variable {u : Universe} {resolver : Resolver} {request : Request} {checked : CheckedRequest}
  {p : Progress}

theorem Accepted.withFilters {config : Config} {now : Nat}
    (h : request.Accepted u config now checked) {f : FilterRequest} {filters : Filters}
    (hf : f.validate = .ok filters) :
    { request with filters := f }.Accepted u config now { checked with filters } where
  check_eq := by
    obtain ⟨hgoal, hseeds, _, scope, -, hscope, rfl⟩ := check_eq_ok_iff.1 h.check_eq
    exact check_eq_ok_iff.2 ⟨hgoal, hseeds, filters, scope, hf, hscope, rfl⟩
  starts := h.starts
  checkScope_eq := h.checkScope_eq

theorem Accepted.filters_eq {config : Config} {now : Nat}
    (h : { request with filters := .none }.Accepted u config now checked) :
    checked.filters = ⟨none, false, none⟩ := by
  obtain ⟨-, -, filters, _, hfilters, -, rfl⟩ := check_eq_ok_iff.1 h.check_eq
  exact Except.ok.inj (hfilters.symm.trans FilterRequest.validate_none)

/-- A request that is resolved without its filters, with what it finds. -/
structure Unfiltered (request : Request) (u : Universe) (resolver : Resolver) (p : Progress)
    (base : Resolution) (checked : CheckedRequest) (index : BranchIndex) (c : Closure) : Prop where
  accepted : { request with filters := .none }.Accepted u resolver.config p.now checked
  finds : checked.Finds u resolver.horizon index c
  exists_records : ∃ packages, checked.records index c c.discovered = .ok packages ∧
    base = ⟨checked.scope.branch, CheckedRequest.annotated index resolver.withAcl packages⟩

variable {base : Resolution} {index : BranchIndex} {c : Closure}

theorem exists_unfiltered
    (h : (resolver.resolve u.world { request with filters := .none } p).1 = .resolved base) :
    ∃ checked index c, request.Unfiltered u resolver p base checked index c := by
  obtain ⟨checked, index, c, kept, packages, haccepted, hfinds, hemits, hbase⟩ :=
    Resolver.exists_emits_of_resolve h
  obtain rfl := hemits.kept_eq (Filters.isActive_eq_false_iff.2 haccepted.filters_eq)
  exact ⟨checked, index, c, haccepted, hfinds, packages, hemits.records_eq, hbase⟩

theorem Accepted.exists_unfiltered (resolver : Resolver) {skipDebuginfo : Bool} {s : Snapshot}
    (hu : Universe.ofSnapshot skipDebuginfo s = .ok u)
    (h : request.Accepted u resolver.config p.now checked)
    (hfilters : checked.filters.isActive = false) : ∃ base index c,
      (resolver.resolve u.world request p).1 = .resolved base ∧
        request.Unfiltered u resolver p base checked index c := by
  obtain ⟨index, c, hfinds⟩ := CheckedRequest.exists_finds h.checkScope_eq resolver.horizon
  have hnone := Filters.isActive_eq_false_iff.1 hfilters
  have hleaf : ∀ leaf, checked.filters.leaf = some leaf → leaf ∈ c.members := by simp [hnone]
  obtain ⟨kept, packages, hemits, heval⟩ := hfinds.exists_emits resolver hu hleaf
  obtain rfl := hemits.kept_eq hfilters
  have haccepted := h.withFilters FilterRequest.validate_none
  rw [← hnone] at haccepted
  refine ⟨_, index, c, ?_, haccepted, hfinds, packages, hemits.records_eq, rfl⟩
  rw [Resolver.resolve_world resolver h, heval]
  rfl

namespace Unfiltered

variable (h : request.Unfiltered u resolver p base checked index c) {f : FilterRequest}
  {filters : Filters}
include h

theorem mem_names {n : PackageName} : n ∈ base.names ↔ n ∈ c.discovered := by
  obtain ⟨packages, hrecords, rfl⟩ := h.exists_records
  refine CheckedRequest.mem_names_annotated hrecords resolver.withAcl fun m hm => ?_
  exact (h.finds.mem_discovered.1 hm).1

theorem mem_members {n : PackageName} : n ∈ c.members ↔ n ∈ checked.seeds ∨ n ∈ base.names := by
  rw [h.mem_names, h.finds.mem_discovered]
  have := h.finds.grown.mem_of_mem_seeds n
  tauto

theorem exists_record {n : PackageName} (hn : n ∈ c.members) (hseed : n ∉ checked.seeds) :
    ∃ q ∈ base.packages, q.name = n :=
  List.mem_map.1 (h.mem_names.2 (h.finds.mem_discovered.2 ⟨hn, hseed⟩))

/-- A record says at which level its package is, and what the graph says that it requires. -/
theorem record_spec {q : ResolvedPackage} (hq : q ∈ base.packages) :
    q.name ∉ checked.seeds ∧ c.levels[q.name]? = some q.depth ∧
      q.requires = (checked.graph index c).requires q.name := by
  have hname := h.mem_names.1 (List.mem_map_of_mem hq)
  obtain ⟨packages, hrecords, rfl⟩ := h.exists_records
  obtain ⟨hrecord, -⟩ := (CheckedRequest.annotated_records hrecords resolver.withAcl).2 q hq
  refine ⟨(h.finds.mem_discovered.1 hname).2, ?_, (CheckedRequest.record_shows hrecord).2⟩
  exact CheckedRequest.level_of_mem_annotated hrecords
    (fun n hn => (h.finds.mem_discovered.1 hn).1) hq

theorem cycle_eq {q : ResolvedPackage} (hq : q ∈ base.packages) :
    q.cycle = (checked.graph index c).sort.cycleMembers q.name := by
  obtain ⟨packages, hrecords, rfl⟩ := h.exists_records
  obtain ⟨hrecord, -⟩ := (CheckedRequest.annotated_records hrecords resolver.withAcl).2 q hq
  exact (CheckedRequest.record_shows hrecord).1

theorem agrees {request' : Request} {base' : Resolution} {checked' : CheckedRequest} {c' : Closure}
    (h' : request'.Unfiltered u resolver p base' checked' index c')
    (hscope : checked'.scope = checked.scope) (hsource : checked'.asSource = checked.asSource)
    {q q' : ResolvedPackage} (hq : q ∈ base.packages) (hq' : q' ∈ base'.packages)
    (hname : q'.name = q.name) (hdepth : q'.depth = q.depth) :
    q = { q' with cycle := q.cycle, requires := q.requires } := by
  have hfound := h.mem_names.1 (List.mem_map_of_mem hq)
  have hfound' := h'.mem_names.1 (List.mem_map_of_mem hq')
  have hlevel := (h.record_spec hq).2.1
  have hlevel' := (h'.record_spec hq').2.1
  obtain ⟨packages, hrecords, rfl⟩ := h.exists_records
  obtain ⟨packages', hrecords', rfl⟩ := h'.exists_records
  obtain ⟨hrecord, hacl⟩ := (CheckedRequest.annotated_records hrecords resolver.withAcl).2 q hq
  obtain ⟨hrecord', hacl'⟩ :=
    (CheckedRequest.annotated_records hrecords' resolver.withAcl).2 q' hq'
  rw [hname] at hrecord' hacl' hfound' hlevel'
  have hagrees := CheckedRequest.record_agrees hrecord hrecord' (by rw [hscope])
    (by rw [BranchIndex.getElem?_describe_of_mem hfound,
      BranchIndex.getElem?_describe_of_mem hfound', hscope, hsource])
    (hlevel'.trans (by rw [hdepth, ← hlevel]; rfl))
  have hacl : q.acl = q'.acl := hacl.trans hacl'.symm
  cases q
  cases q'
  simp_all

theorem exists_depth_iff {n : PackageName} {k : Nat} (hseed : n ∉ checked.seeds) :
    (∃ q ∈ base.packages, q.name = n ∧ q.depth = k) ↔ c.levels[n]? = some k := by
  constructor
  · rintro ⟨q, hq, rfl, rfl⟩
    exact (h.record_spec hq).2.1
  · intro hk
    obtain ⟨q, hq, rfl⟩ := h.exists_record (Closure.mem_members.2 ⟨k, hk⟩) hseed
    have hdepth := (h.record_spec hq).2.1
    exact ⟨q, hq, rfl, Option.some.inj (hdepth.symm.trans hk)⟩

/-- With filters the result is a part of what it is without them. -/
theorem exists_filtered (hf : f.validate = .ok filters)
    (hleaf : ∀ leaf, filters.leaf = some leaf → leaf ∈ c.members) : ∃ kept : PackageSet,
    (∀ n, n ∈ kept ↔ n ∈ c.discovered ∧ filters.Keeps index checked.scope checked.reading
      (checked.graph index c) c.discovered n) ∧
    (resolver.resolve u.world { request with filters := f } p).1 =
      .resolved { base with packages := base.packages.filter fun q => kept.contains q.name } := by
  obtain ⟨packages, hrecords, rfl⟩ := h.exists_records
  obtain ⟨kept, hkept, heval⟩ := (h.finds.withFilters filters).exists_kept resolver hleaf
  refine ⟨kept, hkept, ?_⟩
  have hpart : ({ checked with filters } : CheckedRequest).records index c kept = _ :=
    CheckedRequest.records_of_subset hrecords fun n hn => ((hkept n).1 hn).1
  have hresolve := Resolver.resolve_world resolver (h.accepted.withFilters hf)
  rwa [heval, hpart, ok_bind, CheckedRequest.annotated_filter _ _ kept.contains] at hresolve

theorem mem_names_iff_keeps (hf : f.validate = .ok filters)
    (hleaf : ∀ leaf, filters.leaf = some leaf → leaf ∈ c.members) {result : Resolution}
    (hresult : (resolver.resolve u.world { request with filters := f } p).1 = .resolved result)
    {n : PackageName} : n ∈ result.names ↔ n ∈ base.names ∧ filters.Keeps index checked.scope
      checked.reading (checked.graph index c) c.discovered n := by
  obtain ⟨kept, hkept, hresolve⟩ := h.exists_filtered hf hleaf
  obtain rfl := Outcome.resolved.inj (hresolve.symm.trans hresult)
  rw [Resolution.mem_names_filter, hkept, h.mem_names, and_self_left]

theorem resolve_of_leaf_notMem (hf : f.validate = .ok filters) {leaf : PackageName}
    (hleaf : filters.leaf = some leaf) (hmem : leaf ∉ c.members) :
    (resolver.resolve u.world { request with filters := f } p).1 =
      .failed (.invalid (.leafNotInClosure leaf)) := by
  have hresolve := Resolver.resolve_world resolver (h.accepted.withFilters hf)
  rwa [(h.finds.withFilters filters).eval_program_of_leaf_notMem resolver hleaf hmem]
    at hresolve

end Unfiltered

/-- A request whose leaf is not in the closure fails. Otherwise its result is a part of what it is
without filters, with the names that each filter alone would keep. -/
theorem resolve_filters_eq_inter
    (hbase : (resolver.resolve u.world { request with filters := .none } p).1 = .resolved base)
    (hfilters : ¬ request.filters.Conflicting) :
    ∃ checked c, request.check resolver.config = .ok checked ∧
      (checked.completeClosure resolver.horizon).eval u = .ok c ∧
      (∀ text, request.filters.leaf = some text → Text.trim text ≠ "" →
        .ofText text ∉ c.members → (resolver.resolve u.world request p).1 =
          .failed (.invalid (.leafNotInClosure (.ofText text)))) ∧
      ((∀ text, request.filters.leaf = some text → Text.trim text ≠ "" →
          .ofText text ∈ c.members) →
        ∃ byLeaf byFinite byRequirement : Resolution,
          (resolver.resolve u.world { request with filters := request.filters.leafOnly } p).1 =
            .resolved byLeaf ∧
          (resolver.resolve u.world { request with filters := request.filters.finiteOnly } p).1 =
            .resolved byFinite ∧
          (resolver.resolve u.world
              { request with filters := request.filters.requirementOnly } p).1 =
            .resolved byRequirement ∧
          (resolver.resolve u.world request p).1 =
            .resolved { base with packages := base.packages.filter fun q =>
              byLeaf.names.contains q.name && byFinite.names.contains q.name &&
                byRequirement.names.contains q.name }) := by
  obtain ⟨checked, index, c, h⟩ := exists_unfiltered hbase
  have hvalid := FilterRequest.validate_of_not_conflicting hfilters
  refine ⟨_, _, (h.accepted.withFilters hvalid).check_eq, h.finds.eval_completeClosure,
    fun text htext hne => ?_, fun hleaf => ?_⟩
  · exact h.resolve_of_leaf_notMem hvalid
      (FilterRequest.bind_ofText?_eq_some_iff.2 ⟨text, htext, hne, rfl⟩)
  · have hmembers : ∀ leaf, request.filters.leaf.bind PackageName.ofText? = some leaf →
        leaf ∈ c.members := by
      intro leaf hl
      obtain ⟨text, htext, hne, rfl⟩ := FilterRequest.bind_ofText?_eq_some_iff.1 hl
      exact hleaf text htext hne
    obtain ⟨kept, hkept, hresolve⟩ := h.exists_filtered hvalid hmembers
    obtain ⟨byLeaf, hbyLeaf, hresolveLeaf⟩ :=
      h.exists_filtered (FilterRequest.validate_leafOnly _) hmembers
    obtain ⟨byFinite, hbyFinite, hresolveFinite⟩ :=
      h.exists_filtered (FilterRequest.validate_finiteOnly _) (by simp)
    obtain ⟨byRequirement, hbyRequirement, hresolveRequirement⟩ :=
      h.exists_filtered (FilterRequest.validate_requirementOnly hfilters) (by simp)
    refine ⟨_, _, _, hresolveLeaf, hresolveFinite, hresolveRequirement, hresolve.trans ?_⟩
    congr 2
    refine List.filter_congr fun q hq => ?_
    rw [Resolution.contains_names_filter hq, Resolution.contains_names_filter hq,
      Resolution.contains_names_filter hq, Bool.eq_iff_iff]
    simp only [Bool.and_eq_true, Std.ExtTreeSet.contains_iff_mem]
    rw [hkept, hbyLeaf, hbyFinite, hbyRequirement, Filters.keeps_iff_alone]
    tauto

/-- The packages `b` and `c` require `d`, and `a` requires both of them. -/
def layeredBranch : BranchSnapshot :=
  (SnapshotBuilder.start "Sisyphus"
    |>.source "a" ["b", "c"] |>.package "b" ["d"] |>.package "c" ["d"] |>.package "d" []).current

def layeredUniverse : Universe :=
  ⟨.ofList [("sisyphus",
    BranchIndex.ofPackages (BranchIndex.keptPackages true layeredBranch) layeredBranch)]⟩

theorem ofSnapshot_layeredBranch :
    Universe.ofSnapshot true ⟨[layeredBranch]⟩ = .ok layeredUniverse :=
  Universe.ofSnapshot_singleton (by decide +kernel) (by decide +kernel)

/-- The leaf removes `c`, and `d` is removed because others require it. Only `b` is left. -/
theorem resolve_filters_eq_inter_layered :
    let filters := { FilterRequest.none with leaf := " b", finitePackage := true }
    let request := { cycleRequest (.build 3 false) with filters }
    let resolver := Resolver.ofUniverse layeredUniverse .default true
    let outcome := fun filters =>
      (resolver.resolve layeredUniverse.world { request with filters } ⟨[], 0⟩).1
    ∃ base byLeaf byFinite result, outcome .none = .resolved base ∧
      outcome filters.leafOnly = .resolved byLeaf ∧
      outcome filters.finiteOnly = .resolved byFinite ∧
      (resolver.resolve layeredUniverse.world request ⟨[], 0⟩).1 = .resolved result ∧
      ⟨"b"⟩ ∈ result.names ∧
      (⟨"c"⟩ ∈ base.names ∧ ⟨"c"⟩ ∉ byLeaf.names ∧ ⟨"c"⟩ ∈ byFinite.names ∧
        ⟨"c"⟩ ∉ result.names) ∧
      ⟨"d"⟩ ∈ base.names ∧ ⟨"d"⟩ ∈ byLeaf.names ∧ ⟨"d"⟩ ∉ byFinite.names ∧
        ⟨"d"⟩ ∉ result.names := by
  intro filters request resolver outcome
  have haccepted : (cycleRequest (.build 3 false)).Accepted layeredUniverse .default 0 _ :=
    accepted_of_cycleScope rfl (by decide +kernel)
  obtain ⟨base, index, c, hbase, h⟩ := haccepted.exists_unfiltered resolver (p := ⟨[], 0⟩)
    ofSnapshot_layeredBranch rfl
  have hvalid : filters.validate = .ok ⟨some ⟨"b"⟩, true, none⟩ := by decide +kernel
  obtain ⟨checked, closure, hcheck, heval, -, hinter⟩ :=
    @resolve_filters_eq_inter _ resolver request _ _ hbase
      (FilterRequest.not_conflicting_of_filterBySource rfl)
  obtain rfl := Except.ok.inj ((haccepted.withFilters hvalid).check_eq.symm.trans hcheck)
  have hclosure := Except.ok.inj (h.finds.eval_completeClosure.symm.trans heval)
  have hshown : (closure.discovered.toList, (closure.graph.downward ⟨"b"⟩).toList,
      closure.graph.requires ⟨"b"⟩, closure.graph.requires ⟨"c"⟩,
      closure.graph.requires ⟨"d"⟩) =
        ([⟨"b"⟩, ⟨"c"⟩, ⟨"d"⟩], [⟨"b"⟩, ⟨"d"⟩], [⟨"d"⟩], [⟨"d"⟩], []) :=
    eq_of_map_eq_ok (f := fun c : Closure => (c.discovered.toList,
      (c.graph.downward ⟨"b"⟩).toList, c.graph.requires ⟨"b"⟩, c.graph.requires ⟨"c"⟩,
      c.graph.requires ⟨"d"⟩)) heval (by decide +kernel)
  simp only [Prod.mk.injEq] at hshown
  obtain ⟨hfound, hdown, hb, hc, hd⟩ := hshown
  have hdiscovered : c.discovered = closure.discovered :=
    Closure.discovered_completed.symm.trans (congrArg Closure.discovered hclosure)
  have hgraph : CheckedRequest.graph _ index c = closure.graph := congrArg Closure.graph hclosure
  have hnames : ∀ n, n ∈ base.names ↔ n ∈ [⟨"b"⟩, ⟨"c"⟩, ⟨"d"⟩] := fun n => by
    rw [h.mem_names, hdiscovered, ← Std.ExtTreeSet.mem_toList, hfound]
  have hmember : ⟨"b"⟩ ∈ c.members :=
    (h.finds.mem_discovered.1 (h.mem_names.1 ((hnames ⟨"b"⟩).2 (by decide)))).1
  have hleaf : ∀ text, filters.leaf = some text → Text.trim text ≠ "" →
      .ofText text ∈ closure.members := by
    rintro _ ⟨⟩ -
    have hname : PackageName.ofText " b" = ⟨"b"⟩ := by decide +kernel
    rw [hname, ← hclosure]
    exact hmember
  obtain ⟨byLeaf, byFinite, byRequirement, hbyLeaf, hbyFinite, hbyRequirement, hresult⟩ :=
    hinter hleaf
  have hleafNames : ∀ n, n ∈ byLeaf.names ↔ n ∈ base.names ∧ n ∈ [⟨"b"⟩, ⟨"d"⟩] := by
    intro n
    have hvalid : filters.leafOnly.validate = .ok ⟨some ⟨"b"⟩, false, none⟩ := by decide +kernel
    have hnode : ⟨"b"⟩ ∈ closure.graph.nodes := Closure.mem_nodes_graph.2 (hclosure ▸ hmember)
    rw [h.mem_names_iff_keeps hvalid (by rintro _ ⟨⟩; exact hmember) hbyLeaf, hgraph, ← hdown,
      Std.ExtTreeSet.mem_toList, Graph.mem_downward]
    simp [Filters.Keeps, hnode]
  have hfiniteNames : ∀ n, n ∈ byFinite.names ↔ n ∈ base.names ∧ n ∈ [⟨"b"⟩, ⟨"c"⟩] := by
    intro n
    have hvalid : filters.finiteOnly.validate = .ok ⟨none, true, none⟩ := by decide +kernel
    have hrequired : (∀ m ∈ closure.discovered, ¬ closure.graph.Requires m n) ↔ n ≠ ⟨"d"⟩ := by
      simp only [← Std.ExtTreeSet.mem_toList, hfound, ← Graph.mem_requires]
      simp [hb, hc, hd]
    rw [h.mem_names_iff_keeps hvalid (by rintro _ ⟨⟩) hbyFinite, hgraph, hdiscovered, hnames]
    simp only [Filters.Keeps, hrequired, List.mem_cons]
    grind
  have hrequirementNames : ∀ n, n ∈ byRequirement.names ↔ n ∈ base.names := by
    intro n
    have hvalid : filters.requirementOnly.validate = .ok ⟨none, false, none⟩ := by decide +kernel
    rw [h.mem_names_iff_keeps hvalid (by rintro _ ⟨⟩) hbyRequirement]
    simp [Filters.Keeps]
  let keep : PackageName → Bool := fun n =>
    byLeaf.names.contains n && byFinite.names.contains n && byRequirement.names.contains n
  have hkept : ∀ n, n ∈ Resolution.names
      { base with packages := base.packages.filter fun q => keep q.name } ↔ n = ⟨"b"⟩ := by
    intro n
    refine Resolution.mem_names_filter_iff.trans ?_
    simp only [keep, Bool.and_eq_true, List.contains_iff_mem, hleafNames, hfiniteNames,
      hrequirementNames, hnames, List.mem_cons]
    grind
  refine ⟨base, byLeaf, byFinite,
    { base with packages := base.packages.filter fun q => keep q.name },
    hbase, hbyLeaf, hbyFinite, hresult, ?_⟩
  simp [hkept, hleafNames, hfiniteNames, hnames]

end Request

end BuildPlan
