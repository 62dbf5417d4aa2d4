import BuildPlan.Proofs.Resolution.Depth

/-! # Going deeper

A deeper build closure holds a shallower one, at the same levels. Between the members of the
shallower one it has the same arrows, although those of the last level are learnt only when the
closure is completed. So going deeper adds packages, and what the others say grows by them alone.
Once a level is empty there is nothing left to add.
-/
namespace BuildPlan

variable {u : Universe}

/-- The same request for a build closure of some depth, without a half step. -/
def Request.atDepth (request : Request) (depth : UInt32) : Request :=
  { request with goal := .build depth false }

namespace CheckedRequest

def atDepth (r : CheckedRequest) (depth : UInt32) : CheckedRequest :=
  { r with goal := .build depth false }

variable {r : CheckedRequest} {depth depth' : UInt32} {index : BranchIndex} {c c' : Closure}
  {horizon k : Nat} {n m : PackageName}

theorem Finds.levels_iff_atDepth (h : (r.atDepth depth).Finds u horizon index c)
    (hpos : 1 ≤ depth.toNat) : c.levels[m]? = some k ↔ k ≤ depth.toNat ∧
      IsRank r.seeds ((Expansion.build r.scope false).Leads index r.seeds) k m := by
  have hlevels := h.levels_iff_isRank (m := m) (k := k) fun _ hgoal => by cases hgoal
  rwa [rounds, atDepth, Nat.sub_add_cancel hpos] at hlevels

namespace Finds

variable (h : (r.atDepth depth).Finds u horizon index c)
  (h' : (r.atDepth depth').Finds u horizon index c') (hpos : 1 ≤ depth.toNat)
  (hle : depth.toNat ≤ depth'.toNat)
include h h' hpos hle

theorem levels_iff_deeper :
    c.levels[m]? = some k ↔ k ≤ depth.toNat ∧ c'.levels[m]? = some k := by
  rw [h.levels_iff_atDepth hpos, h'.levels_iff_atDepth (hpos.trans hle)]
  constructor
  · intro ⟨hk, hrank⟩
    exact ⟨hk, hk.trans hle, hrank⟩
  · intro ⟨hk, _, hrank⟩
    exact ⟨hk, hrank⟩

theorem mem_members_deeper (hm : m ∈ c.members) : m ∈ c'.members := by
  obtain ⟨k, hk⟩ := Closure.mem_members.1 hm
  exact Closure.mem_members.2 ⟨k, ((h.levels_iff_deeper h' hpos hle).1 hk).2⟩

/-- The graph of the shallower closure is the part of the deeper one between its members. -/
theorem requires_iff_deeper : ((r.atDepth depth).graph index c).Requires n m ↔
    n ∈ c.members ∧ m ∈ c.members ∧ ((r.atDepth depth').graph index c').Requires n m := by
  rw [h.requires_graph, h'.requires_graph]
  constructor
  · intro ⟨hn, hm, hne, hneeds⟩
    exact ⟨hn, hm, h.mem_members_deeper h' hpos hle hn, h.mem_members_deeper h' hpos hle hm, hne,
      hneeds⟩
  · intro ⟨hn, hm, _, _, hne, hneeds⟩
    exact ⟨hn, hm, hne, hneeds⟩

theorem joined_deeper (hnm : ((r.atDepth depth).graph index c).Joined n m) :
    ((r.atDepth depth').graph index c').Joined n m := by
  have hmono : ∀ a b, ((r.atDepth depth).graph index c).Requires a b →
      ((r.atDepth depth').graph index c').Requires a b :=
    fun a b hab => ((h.requires_iff_deeper h' hpos hle).1 hab).2.2
  exact ⟨Relation.ReflTransGen.mono hmono _ _ hnm.1, Relation.ReflTransGen.mono hmono _ _ hnm.2⟩

theorem requires_eq_deeper (hn : n ∈ c.members) {p : PackageName → Bool}
    (hp : ∀ m, p m = true ↔ m ∈ c.members) : ((r.atDepth depth).graph index c).requires n =
      (((r.atDepth depth').graph index c').requires n).filter p := by
  apply PackageName.Ascending.eq_of_mem_iff
  · exact Std.ExtTreeSet.ordered_toList
  · exact List.Pairwise.filter _ Std.ExtTreeSet.ordered_toList
  · intro m
    rw [List.mem_filter, Graph.mem_requires, Graph.mem_requires, hp,
      h.requires_iff_deeper h' hpos hle, and_iff_right hn, and_comm]

theorem cycleMembers_subset_deeper : ((r.atDepth depth).graph index c).sort.cycleMembers n ⊆
    ((r.atDepth depth').graph index c').sort.cycleMembers n := by
  intro m hm
  rw [Graph.mem_cycleMembers_sort, mem_nodes_graph] at hm ⊢
  obtain ⟨hn, hne, hjoined⟩ := hm
  exact ⟨h.mem_members_deeper h' hpos hle hn, hne, h.joined_deeper h' hpos hle hjoined⟩

/-! ### Empty levels -/

variable (hempty : ∀ m : PackageName, c.levels[m]? ≠ some depth.toNat)
include hempty

theorem levels_eq_deeper (m : PackageName) : c.levels[m]? = c'.levels[m]? := by
  apply Option.ext
  intro k
  rw [h.levels_iff_deeper h' hpos hle]
  apply and_iff_right_of_imp
  intro hk
  by_contra hlt
  have hrank := ((h'.levels_iff_atDepth (hpos.trans hle)).1 hk).2
  obtain ⟨n, hn⟩ := hrank.exists_of_le (j := depth.toNat) hpos (by omega)
  exact hempty n ((h.levels_iff_atDepth hpos).2 ⟨le_rfl, hn⟩)

end Finds

end CheckedRequest

namespace Request

variable {skipDebuginfo : Bool} {s : Snapshot} {request : Request} {checked : CheckedRequest}
  {config : Config} {p : Progress} {depth depth' : UInt32}

theorem Accepted.withDepth {now : Nat}
    (h : (request.atDepth depth').Accepted u config now checked) (hpos : 1 ≤ depth.toNat)
    (hmax : depth.toNat ≤ config.maxDepth.toNat) :
    (request.atDepth depth).Accepted u config now (checked.atDepth depth) where
  check_eq := by
    obtain ⟨-, hseeds, filters, scope, hfilters, hscope, rfl⟩ := check_eq_ok_iff.1 h.check_eq
    exact check_eq_ok_iff.2 ⟨checkDepth_eq_ok_iff.2 ⟨hpos, hmax⟩, hseeds, filters, scope,
      hfilters, hscope, rfl⟩
  starts := h.starts
  checkScope_eq := h.checkScope_eq

theorem Accepted.atDepth {now : Nat}
    (h : (request.atDepth depth').Accepted u config now checked) (hpos : 1 ≤ depth.toNat)
    (hle : depth.toNat ≤ depth'.toNat) :
    (request.atDepth depth).Accepted u config now (checked.atDepth depth) :=
  h.withDepth hpos (hle.trans (checkDepth_eq_ok_iff.1 h.checkGoal_eq).2)

namespace Unfiltered

variable {resolver : Resolver} {base base' : Resolution} {index : BranchIndex} {c c' : Closure}
  (h : (request.atDepth depth).Unfiltered u resolver p base (checked.atDepth depth) index c)
  (h' : (request.atDepth depth').Unfiltered u resolver p base' (checked.atDepth depth') index c')
  (hpos : 1 ≤ depth.toNat) (hle : depth.toNat ≤ depth'.toNat)
include h h' hpos hle

theorem exists_deeper {q : ResolvedPackage} (hq : q ∈ base.packages) :
    ∃ q' ∈ base'.packages, q = { q' with cycle := q.cycle, requires := q.requires } ∧
      q.requires = q'.requires.filter (fun n => n ∈ request.seedSet ∨ n ∈ base.names) ∧
      q.cycle ⊆ q'.cycle := by
  obtain ⟨hseed, hlevel, hrequires⟩ := h.record_spec hq
  have hlevel' := ((h.finds.levels_iff_deeper h'.finds hpos hle).1 hlevel).2
  obtain ⟨q', hq', hname, hdepth⟩ := (h'.exists_depth_iff hseed).2 hlevel'
  have hmember : q.name ∈ c.members := Closure.mem_members.2 ⟨_, hlevel⟩
  have hseeds : checked.seeds = request.seedSet := h.accepted.seeds_eq
  refine ⟨q', hq', h.agrees h' rfl rfl hq hq' hname hdepth, ?_, ?_⟩
  · rw [hrequires, (h'.record_spec hq').2.2, hname]
    apply h.finds.requires_eq_deeper h'.finds hpos hle hmember
    intro n
    rw [decide_eq_true_iff, h.mem_members, ← hseeds]
    rfl
  · rw [h.cycle_eq hq, h'.cycle_eq hq', hname]
    exact h.finds.cycleMembers_subset_deeper h'.finds hpos hle

theorem lt_depth_of_notMem {q' : ResolvedPackage} (hq' : q' ∈ base'.packages)
    (hname : q'.name ∉ base.names) : depth.toNat < q'.depth := by
  by_contra hnot
  obtain ⟨hseed, hlevel', -⟩ := h'.record_spec hq'
  have hlevel := (h.finds.levels_iff_deeper h'.finds hpos hle).2 ⟨by omega, hlevel'⟩
  apply hname
  apply h.mem_names.2
  exact h.finds.mem_discovered.2 ⟨Closure.mem_members.2 ⟨_, hlevel⟩, hseed⟩

theorem eq_of_forall_depth_ne (hlast : 2 ≤ depth.toNat)
    (hdepth : ∀ q ∈ base.packages, q.depth ≠ depth.toNat) : base' = base := by
  have hempty : ∀ m : PackageName, c.levels[m]? ≠ some depth.toNat := by
    intro m hm
    have hseed : m ∉ checked.seeds := (h.finds.isRank_of_level hm).notMem_seeds hlast
    obtain ⟨q, hq, -, hqdepth⟩ := (h.exists_depth_iff hseed).2 hm
    exact hdepth q hq hqdepth
  have hlevels := h.finds.levels_eq_deeper h'.finds hpos hle hempty
  have hrecords := h.finds.records_eq h'.finds rfl rfl rfl hlevels c.discovered
  obtain ⟨packages, hpackages, hbase⟩ := h.exists_records
  obtain ⟨packages', hpackages', hbase'⟩ := h'.exists_records
  rw [← h.finds.discovered_eq h'.finds rfl hlevels] at hpackages'
  obtain rfl : packages = packages' :=
    Except.ok.inj (hpackages.symm.trans (hrecords.trans hpackages'))
  rw [hbase, hbase']
  rfl

end Unfiltered

/-- Going deeper only adds packages, all of them below the depth before, and with them requirements
and members of cycles. Once a level is empty it adds nothing at all. -/
theorem Accepted.resolve_deeper (withAcl : Bool)
    (hu : Universe.ofSnapshot skipDebuginfo s = .ok u)
    (h : (request.atDepth depth').Accepted u config p.now checked)
    (hfilters : checked.filters.isActive = false) (hpos : 1 ≤ depth.toNat)
    (hle : depth.toNat ≤ depth'.toNat) :
    let resolver := Resolver.ofUniverse u config withAcl
    ∃ result deeper,
      (resolver.resolve u.world (request.atDepth depth) p).1 = .resolved result ∧
      (resolver.resolve u.world (request.atDepth depth') p).1 = .resolved deeper ∧
      (∀ q ∈ result.packages, ∃ q' ∈ deeper.packages,
        q = { q' with cycle := q.cycle, requires := q.requires } ∧
        q.requires = q'.requires.filter (fun n => n ∈ request.seedSet ∨ n ∈ result.names) ∧
        q.cycle ⊆ q'.cycle) ∧
      (∀ q' ∈ deeper.packages, q'.name ∉ result.names → depth.toNat < q'.depth) ∧
      (2 ≤ depth.toNat → (∀ q ∈ result.packages, q.depth ≠ depth.toNat) → deeper = result) := by
  intro resolver
  have hshallow := h.atDepth hpos hle
  have hdeep := h.atDepth (hpos.trans hle) le_rfl
  obtain ⟨result, index, c, hresolve, hbase⟩ := hshallow.exists_unfiltered resolver hu hfilters
  obtain ⟨deeper, index', c', hresolve', hbase'⟩ := hdeep.exists_unfiltered resolver hu hfilters
  obtain rfl := hbase.finds.index_unique hbase'.finds rfl
  refine ⟨result, deeper, hresolve, hresolve', ?_, ?_, ?_⟩
  · exact fun q hq => hbase.exists_deeper hbase' hpos hle hq
  · exact fun q' hq' hname => hbase.lt_depth_of_notMem hbase' hpos hle hq' hname
  · exact fun hlast hdepth => hbase.eq_of_forall_depth_ne hbase' hpos hle hlast hdepth

/-- The third level of the small universe is empty, so that deeper closures are no larger. -/
theorem Accepted.resolve_deeper_cycle :
    let resolver := Resolver.ofUniverse cycleUniverse .default true
    let outcome depth :=
      (resolver.resolve cycleUniverse.world (cycleRequest (.build depth false)) ⟨[], 0⟩).1
    ∃ result, outcome 3 = .resolved result ∧ outcome 5 = .resolved result ∧
      ⟨"b"⟩ ∈ result.names := by
  intro resolver outcome
  have haccepted : ((cycleRequest .full).atDepth 5).Accepted cycleUniverse .default 0 _ :=
    accepted_cycleRequest (by decide +kernel)
  have hpos : 1 ≤ (3 : UInt32).toNat := by decide
  obtain ⟨result, deeper, hresolve, hresolve', -, -, hsame⟩ :=
    haccepted.resolve_deeper true (p := ⟨[], 0⟩) ofSnapshot_cycleBranch rfl hpos (by decide)
  have hshallow : (cycleRequest (.build 3 false)).Accepted cycleUniverse .default 0 _ :=
    accepted_cycleRequest (by decide +kernel)
  obtain ⟨result', c, hresolve'', heval, -, hnames, hlevel⟩ :=
    hshallow.exists_resolved resolver (p := ⟨[], 0⟩) ofSnapshot_cycleBranch rfl
  obtain rfl : result' = result := Outcome.resolved.inj (hresolve''.symm.trans hresolve)
  have hfound : c.discovered.contains ⟨"b"⟩ = true :=
    eq_of_map_eq_ok (f := (·.discovered.contains ⟨"b"⟩)) heval (by decide +kernel)
  have hlevels : c.levels.toList = [(⟨"a"⟩, 1), (⟨"b"⟩, 2), (⟨"c"⟩, 2)] :=
    eq_of_map_eq_ok (f := (·.levels.toList)) heval (by decide +kernel)
  have hdepth : ∀ q ∈ result'.packages, q.depth ≠ 3 := by
    intro q hq hthree
    have hmem := Std.ExtTreeMap.mem_toList_iff_getElem?_eq_some.2 (hlevel q hq)
    rw [hlevels] at hmem
    simp [hthree] at hmem
  refine ⟨result', hresolve, ?_, (hnames _).2 (Std.ExtTreeSet.contains_iff_mem.1 hfound)⟩
  rw [← hsame (by decide) hdepth]
  exact hresolve'

end Request

end BuildPlan
