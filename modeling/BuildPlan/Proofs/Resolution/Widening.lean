import BuildPlan.Proofs.Resolution.Depth
import BuildPlan.Proofs.Universe.Widening

/-! # Widening the scope

In a wider scope every chain of needs is still there. So a closure loses no member, and no member
moves to a greater level, while the graph gains arrows only. A half step is no exception, although
it prunes: its second level cannot lose a name to a level before, where there are seeds alone.
-/
namespace BuildPlan

variable {u : Universe}

namespace CheckedRequest

variable {r : CheckedRequest} {wide : Scope} {index : BranchIndex} {c c' : Closure}
  {horizon k : Nat} {n m : PackageName}

theorem rounds_of_halfStep (h : r.expansion.halfStep = true) (horizon : Nat) :
    r.rounds horizon = 2 := by
  obtain ⟨⟨depth, _ | _⟩ | _, seeds, scope, filters⟩ := r
  · cases h
  · rfl
  · cases h

@[simp] theorem halfStep_expansion_withScope :
    { r with scope := wide }.expansion.halfStep = r.expansion.halfStep := by
  obtain ⟨⟨depth, _ | _⟩ | _, seeds, scope, filters⟩ := r <;> rfl

namespace Finds

variable (h : r.Finds u horizon index c) (h' : { r with scope := wide }.Finds u horizon index c')
  (hwide : wide.Widens r.scope)
include h h' hwide

theorem leads_of_widens (hnm : r.expansion.Leads index r.seeds n m) :
    { r with scope := wide }.expansion.Leads index r.seeds n m := by
  have hneeds := h.leads_iff.1 hnm
  rw [Universe.needs_iff h.branch_eq] at hneeds
  apply h'.leads_iff.2
  rw [Universe.needs_iff h'.branch_eq]
  exact hneeds.of_widens hwide

/-- A member of the closure in the narrow scope is one in the wide scope, at no greater level. -/
theorem exists_level_le (hm : c.levels[m]? = some k) : ∃ j ≤ k, c'.levels[m]? = some j := by
  obtain ⟨hle, hin⟩ := h.levels_iff.1 hm
  have hleads := fun n m => h.leads_of_widens h' hwide (n := n) (m := m)
  obtain ⟨j, hj, hrank⟩ := (hin.rank.1.mono hleads).exists_isRank
  refine ⟨j, hj, h'.levels_iff.2 ⟨hj.trans hle, hrank, ?_⟩⟩
  intro hhalf hlast hge
  rw [halfStep_expansion_withScope] at hhalf
  have hrounds := rounds_of_halfStep hhalf horizon
  have hlast : j = r.rounds horizon + 1 := hlast
  obtain rfl : j = k := by omega
  obtain ⟨n, hn, hneeds⟩ := hin.exists_wants hhalf hlast hge
  have hseed : n ∉ r.seeds := hn.notMem_seeds (by omega)
  obtain ⟨i, hi, hrank'⟩ := (hn.1.mono hleads).exists_isRank
  have htwo := hrank'.two_le hseed
  obtain rfl : i = j - 1 := by omega
  rw [scope_expansion] at hneeds ⊢
  exact ⟨n, hrank', hneeds.of_widens (hwide.withDependencyType .source)⟩

theorem mem_members_of_widens (hm : m ∈ c.members) : m ∈ c'.members := by
  obtain ⟨k, hk⟩ := Closure.mem_members.1 hm
  obtain ⟨j, -, hj⟩ := h.exists_level_le h' hwide hk
  exact Closure.mem_members.2 ⟨j, hj⟩

theorem requires_of_widens (hnm : (r.graph index c).Requires n m) :
    ({ r with scope := wide }.graph index c').Requires n m := by
  obtain ⟨hn, hm, hne, hneeds⟩ := h.requires_graph.1 hnm
  have hleads := h.leads_of_widens h' hwide (h.leads_iff.2 hneeds)
  exact h'.requires_graph.2 ⟨h.mem_members_of_widens h' hwide hn,
    h.mem_members_of_widens h' hwide hm, hne, h'.leads_iff.1 hleads⟩

theorem cycleMembers_subset_of_widens : (r.graph index c).sort.cycleMembers n ⊆
    ({ r with scope := wide }.graph index c').sort.cycleMembers n := by
  have hmono := fun a b => h.requires_of_widens h' hwide (n := a) (m := b)
  intro m hm
  rw [Graph.mem_cycleMembers_sort, mem_nodes_graph] at hm ⊢
  obtain ⟨hn, hne, hjoined⟩ := hm
  refine ⟨h.mem_members_of_widens h' hwide hn, hne, ?_⟩
  exact ⟨Relation.ReflTransGen.mono hmono _ _ hjoined.1,
    Relation.ReflTransGen.mono hmono _ _ hjoined.2⟩

end Finds

end CheckedRequest

namespace Request

variable {skipDebuginfo : Bool} {s : Snapshot} {request : Request} {checked : CheckedRequest}
  {config : Config} {p : Progress} {scopeRequest : ScopeRequest} {wide : Scope}

theorem Accepted.withScope_eq {now : Nat} {checked' : CheckedRequest}
    (h : request.Accepted u config now checked)
    (h' : { request with scope := scopeRequest }.Accepted u config now checked') :
    checked' = { checked with scope := checked'.scope } := by
  obtain ⟨-, -, filters, _, hfilters, -, rfl⟩ := check_eq_ok_iff.1 h.check_eq
  obtain ⟨-, -, filters', _, hfilters', -, rfl⟩ := check_eq_ok_iff.1 h'.check_eq
  obtain rfl := Except.ok.inj (hfilters.symm.trans hfilters')
  rfl

namespace Unfiltered

variable {resolver : Resolver} {base base' : Resolution} {index : BranchIndex} {c c' : Closure}

theorem exists_description (h : request.Unfiltered u resolver p base checked index c)
    {q : ResolvedPackage} (hq : q ∈ base.packages) :
    ∃ d, index.describeName? checked.scope checked.asSource q.name = some d ∧
      q.archs = d.archs := by
  obtain ⟨packages, hrecords, rfl⟩ := h.exists_records
  obtain ⟨hrecord, -⟩ := (CheckedRequest.annotated_records hrecords resolver.withAcl).2 q hq
  obtain ⟨d, hd, -, harchs⟩ := CheckedRequest.exists_description_of_record hrecord
  exact ⟨d, (BranchIndex.getElem?_describe.1 hd).2, harchs⟩

theorem exists_wider (h : request.Unfiltered u resolver p base checked index c)
    (h' : { request with scope := scopeRequest }.Unfiltered u resolver p base'
      { checked with scope := wide } index c')
    (hwide : wide.Widens checked.scope) {q : ResolvedPackage} (hq : q ∈ base.packages) :
    ∃ q' ∈ base'.packages, q'.name = q.name ∧ q'.depth ≤ q.depth ∧
      (∀ a ∈ q.archs, a ∈ q'.archs) ∧ q.requires ⊆ q'.requires ∧ q.cycle ⊆ q'.cycle := by
  obtain ⟨hseed, hlevel, hrequires⟩ := h.record_spec hq
  obtain ⟨j, hj, hlevel'⟩ := h.finds.exists_level_le h'.finds hwide hlevel
  obtain ⟨q', hq', hname, rfl⟩ := (h'.exists_depth_iff hseed).2 hlevel'
  refine ⟨q', hq', hname, hj, ?_, ?_, ?_⟩
  · intro a ha
    obtain ⟨d, hd, harchs⟩ := h.exists_description hq
    obtain ⟨d', hd', harchs'⟩ := h'.exists_description hq'
    rw [hname] at hd'
    rw [harchs] at ha
    rw [harchs']
    exact BranchIndex.mem_archs_of_widens hwide hd hd' ha
  · intro m hm
    rw [hrequires, Graph.mem_requires] at hm
    rw [(h'.record_spec hq').2.2, hname, Graph.mem_requires]
    exact h.finds.requires_of_widens h'.finds hwide hm
  · rw [h.cycle_eq hq, h'.cycle_eq hq', hname]
    exact h.finds.cycleMembers_subset_of_widens h'.finds hwide

end Unfiltered

/-- A wider scope shows all that a narrow one does, no deeper, and says no less about it. -/
theorem Accepted.resolve_wider (withAcl : Bool) (hu : Universe.ofSnapshot skipDebuginfo s = .ok u)
    {checked' : CheckedRequest} (h : request.Accepted u config p.now checked)
    (h' : { request with scope := scopeRequest }.Accepted u config p.now checked')
    (hfilters : checked.filters.isActive = false) (hwide : checked'.scope.Widens checked.scope) :
    let resolver := Resolver.ofUniverse u config withAcl
    ∃ result wider,
      (resolver.resolve u.world request p).1 = .resolved result ∧
      (resolver.resolve u.world { request with scope := scopeRequest } p).1 = .resolved wider ∧
      ∀ q ∈ result.packages, ∃ q' ∈ wider.packages, q'.name = q.name ∧ q'.depth ≤ q.depth ∧
        (∀ a ∈ q.archs, a ∈ q'.archs) ∧ q.requires ⊆ q'.requires ∧ q.cycle ⊆ q'.cycle := by
  intro resolver
  rw [h.withScope_eq h'] at h'
  obtain ⟨result, index, c, hresolve, hbase⟩ := h.exists_unfiltered resolver hu hfilters
  obtain ⟨wider, index', c', hresolve', hbase'⟩ := h'.exists_unfiltered resolver hu hfilters
  obtain rfl := hbase.finds.index_unique hbase'.finds hwide.branch_eq
  exact ⟨result, wider, hresolve, hresolve', fun q hq => hbase.exists_wider hbase' hwide hq⟩

/-- The half step for `noarch` packages and the requirements of sources finds `b`, and so does the
one for all. -/
theorem Accepted.resolve_wider_cycle :
    let resolver := Resolver.ofUniverse cycleUniverse .default true
    let outcome request := (resolver.resolve cycleUniverse.world request ⟨[], 0⟩).1
    let request := cycleRequest (.build 3 true)
    ∃ result wider,
      outcome { request with scope := ⟨"Sisyphus", ["noarch"], .source⟩ } = .resolved result ∧
      outcome request = .resolved wider ∧ ∃ q ∈ wider.packages, q.name = ⟨"b"⟩ ∧ q.depth ≤ 2 := by
  intro resolver outcome request
  have hgoal : request.checkGoal .default = .ok () := by decide +kernel
  have hwide : request.Accepted cycleUniverse .default 0 _ := accepted_cycleRequest hgoal
  have hnarrow : { request with scope := ⟨"Sisyphus", ["noarch"], .source⟩ }.Accepted cycleUniverse
      .default 0 ⟨.build 3 true, request.seedSet, .ofArchs "sisyphus" [] .source,
        ⟨none, false, none⟩⟩ := by
    constructor
    · apply check_eq_ok_iff.2
      exact ⟨hgoal, by decide +kernel, ⟨none, false, none⟩, _, by decide +kernel,
        by decide +kernel, rfl⟩
    · rfl
    · decide +kernel
  have hwidens : cycleScope.Widens (.ofArchs "sisyphus" [] .source) := by
    have harchs : ∀ a ∈ (Scope.ofArchs "sisyphus" [] .source).archs.toList,
        cycleScope.archs.contains a = true := by decide +kernel
    refine ⟨rfl, ?_, Or.inr rfl⟩
    intro a ha
    exact Std.ExtTreeSet.contains_iff_mem.1 (harchs a (Std.ExtTreeSet.mem_toList.2 ha))
  obtain ⟨result, wider, hresult, hwider, hrecords⟩ :=
    hnarrow.resolve_wider true (p := ⟨[], 0⟩) ofSnapshot_cycleBranch hwide rfl hwidens
  obtain ⟨result', hresult', q, hq, hname, hdepth⟩ :=
    hnarrow.exists_record_of_eval resolver (p := ⟨[], 0⟩) ofSnapshot_cycleBranch rfl (n := ⟨"b"⟩)
      (k := 2) (by decide +kernel)
  obtain rfl : result' = result := Outcome.resolved.inj (hresult'.symm.trans hresult)
  obtain ⟨q', hq', hname', hle, -⟩ := hrecords q hq
  exact ⟨result', wider, hresult, hwider, q', hq', hname'.trans hname, hdepth ▸ hle⟩

end Request

end BuildPlan
