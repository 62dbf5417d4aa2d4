import BuildPlan.Proofs.Resolution.View

/-! # Depths in the graph

The levels of a closure are given out while it grows, and its graph is built afterwards from what is
known then. All the same a level is the number of names on the shortest paths from a seed, along the
arrows of the graph. A half step is no exception: what it leaves out is on the last level, where no
shortest path to another name comes through.
-/
namespace BuildPlan

variable {u : Universe}

namespace CheckedRequest.Finds

variable {index : BranchIndex} {r : CheckedRequest} {c : Closure} {horizon k : Nat}
  {n m : PackageName} (h : r.Finds u horizon index c)
include h

theorem levels_iff : c.levels[m]? = some k ↔ k ≤ r.rounds horizon + 1 ∧
    r.expansion.InLevel index r.seeds (r.rounds horizon + 1) k m := by
  have hbranch : u.branch r.expansion.scope.branch = .ok index := by
    rw [scope_expansion]
    exact h.branch_eq
  obtain ⟨c', heval, -, hlevels⟩ := Expansion.exists_levels hbranch (r.rounds horizon) r.seeds
  rw [← closure_eq, h.eval_closure] at heval
  obtain rfl := Except.ok.inj heval
  exact hlevels m k

/-- Without a half step the levels of a closure are the first ranks. -/
theorem levels_iff_isRank (hgoal : ∀ depth, r.goal ≠ .build depth true) : c.levels[m]? = some k ↔
    k ≤ r.rounds horizon + 1 ∧ IsRank r.seeds (r.expansion.Leads index r.seeds) k m := by
  rw [h.levels_iff, Expansion.inLevel_iff_isRank (.inl (halfStep_expansion hgoal))]

theorem leads_iff : r.expansion.Leads index r.seeds n m ↔
    u.Needs r.scope (r.readingOf n) r.asSource n m := by
  simp [Expansion.Leads, Universe.needs_iff h.branch_eq]

theorem isRank_le_size {skipDebuginfo : Bool} {s : Snapshot}
    (hu : Universe.ofSnapshot skipDebuginfo s = .ok u)
    (hm : IsRank r.seeds (r.expansion.Leads index r.seeds) k m) : k ≤ u.packageNames.size + 1 :=
  hm.le_size fun _ _ hnm => (h.leads_iff.1 hnm).mem_packageNames hu

omit h in
/-- The rounds of a full closure are enough for all ranks. -/
theorem levels_iff_isRank_of_full {skipDebuginfo : Bool} {s : Snapshot}
    (hu : Universe.ofSnapshot skipDebuginfo s = .ok u)
    (h : r.Finds u u.packageNames.size index c) (hgoal : r.goal = .full) :
    c.levels[m]? = some k ↔ IsRank r.seeds (r.expansion.Leads index r.seeds) k m := by
  rw [h.levels_iff_isRank (by simp [hgoal]), rounds_of_full hgoal]
  apply and_iff_right_of_imp
  intro hrank
  have := h.isRank_le_size hu hrank
  omega

theorem isRank_of_level (hm : c.levels[m]? = some k) :
    IsRank r.seeds (r.expansion.Leads index r.seeds) k m :=
  (h.levels_iff.1 hm).2.rank

theorem leads_of_requires (hnm : (r.graph index c).Requires n m) :
    r.expansion.Leads index r.seeds n m :=
  h.leads_iff.2 (h.requires_graph.1 hnm).2.2.2

theorem exists_requires_of_level (hm : c.levels[m]? = some (k + 1)) (hk : 0 < k) :
    ∃ n, c.levels[n]? = some k ∧ (r.graph index c).Requires n m := by
  obtain ⟨hle, hin⟩ := h.levels_iff.1 hm
  obtain ⟨n, hn, hnm⟩ := hin.rank.exists_prev hk
  have hbefore : k < r.rounds horizon + 1 := by omega
  have hlevel : c.levels[n]? = some k :=
    h.levels_iff.2 ⟨hbefore.le, (Expansion.inLevel_iff_isRank (.inr hbefore)).2 hn⟩
  have hne : n ≠ m := by
    intro e
    have := hn.unique (e ▸ hin.rank)
    omega
  refine ⟨n, hlevel, h.requires_graph.2 ⟨?_, ?_, hne, h.leads_iff.1 hnm⟩⟩
  · exact Closure.mem_members.2 ⟨k, hlevel⟩
  · exact Closure.mem_members.2 ⟨k + 1, hm⟩

theorem chain_of_level (hm : c.levels[m]? = some k) :
    Chain r.seeds (r.graph index c).Requires k m := by
  induction k generalizing m with
  | zero => exact absurd (h.isRank_of_level hm).pos (by omega)
  | succ k ih =>
    by_cases hk : k = 0
    · subst hk
      exact .seed (IsRank.one_iff.1 (h.isRank_of_level hm))
    · obtain ⟨n, hn, hnm⟩ := h.exists_requires_of_level hm (by omega)
      exact .step (ih hn) hnm

theorem isRank_requires_of_level (hm : c.levels[m]? = some k) :
    IsRank r.seeds (r.graph index c).Requires k m :=
  (h.isRank_of_level hm).of_chain (fun _ _ => h.leads_of_requires) (h.chain_of_level hm)

theorem exists_length (hm : m ∈ c.members) : ∃ length, c.levels[m]? = some (1 + length) ∧
    IsLeast {l | Chain r.seeds (r.graph index c).Requires (l + 1) m} length := by
  obtain ⟨k, hk⟩ := Closure.mem_members.1 hm
  obtain ⟨hchain, hleast⟩ := h.isRank_requires_of_level hk
  obtain ⟨l, rfl⟩ : ∃ l, k = l + 1 := ⟨k - 1, by have := Chain.pos hchain; omega⟩
  refine ⟨l, by rw [hk, Nat.add_comm], hchain, ?_⟩
  intro j hj
  have := hleast hj
  omega

theorem exists_reaches (hm : m ∈ c.members) : ∃ s ∈ r.seeds, (r.graph index c).Reaches s m := by
  obtain ⟨k, hk⟩ := Closure.mem_members.1 hm
  exact (h.chain_of_level hk).exists_seed

/-- No arrow leads down by more than one level. -/
theorem exists_levels_of_requires (hnm : (r.graph index c).Requires n m) :
    ∃ j k, c.levels[n]? = some j ∧ c.levels[m]? = some k ∧ k ≤ j + 1 := by
  obtain ⟨hn, hm, -⟩ := h.requires_graph.1 hnm
  obtain ⟨j, hj⟩ := Closure.mem_members.1 hn
  obtain ⟨k, hk⟩ := Closure.mem_members.1 hm
  exact ⟨j, k, hj, hk, (h.isRank_requires_of_level hk).2 (Chain.step (h.chain_of_level hj) hnm)⟩

end CheckedRequest.Finds

namespace Request

variable {skipDebuginfo : Bool} {s : Snapshot} {resolver : Resolver} {request : Request}
  {checked : CheckedRequest} {p : Progress}

namespace Unfiltered

variable {base : Resolution} {index : BranchIndex} {c : Closure}
  (h : request.Unfiltered u resolver p base checked index c)
include h

theorem exists_requires {q : ResolvedPackage} (hq : q ∈ base.packages) (hdepth : 3 ≤ q.depth) :
    ∃ q' ∈ base.packages, q'.depth + 1 = q.depth ∧ q.name ∈ q'.requires := by
  obtain ⟨-, hlevel, -⟩ := h.record_spec hq
  obtain ⟨k, hk⟩ : ∃ k, q.depth = k + 1 := ⟨q.depth - 1, by omega⟩
  rw [hk] at hlevel
  obtain ⟨n, hn, hrequires⟩ := h.finds.exists_requires_of_level hlevel (by omega)
  have hseed : n ∉ checked.seeds := (h.finds.isRank_of_level hn).notMem_seeds (by omega)
  obtain ⟨q', hq', rfl⟩ := h.exists_record (Closure.mem_members.2 ⟨k, hn⟩) hseed
  obtain ⟨-, hlevel', hlist⟩ := h.record_spec hq'
  refine ⟨q', hq', ?_, ?_⟩
  · rw [hn] at hlevel'
    rw [hk, Option.some.inj hlevel']
  · rw [hlist]
    exact ((checked.graph index c).mem_requires).2 hrequires

theorem exists_byLeaf {text : String} (hseed : .ofText text ∈ checked.seeds) :
    ∃ part : Resolution, (resolver.resolve u.world
        { request with filters := { FilterRequest.none with leaf := some text } } p).1 =
          .resolved part ∧
      ∀ q, q ∈ part.packages ↔
        q ∈ base.packages ∧ (checked.graph index c).Reaches (.ofText text) q.name := by
  have hne : Text.trim text ≠ "" := by
    obtain ⟨_, -, hname, hne⟩ := h.accepted.mem_seeds.1 hseed
    exact hne
  have hvalid := FilterRequest.validate_leafOnly { FilterRequest.none with leaf := some text }
  have hleaf : (some text).bind PackageName.ofText? = some (.ofText text) :=
    FilterRequest.bind_ofText?_eq_some_iff.2 ⟨text, rfl, hne, rfl⟩
  rw [hleaf] at hvalid
  have hmember : ∀ leaf, some (PackageName.ofText text) = some leaf → leaf ∈ c.members := by
    rintro _ ⟨⟩
    exact h.finds.grown.mem_of_mem_seeds _ hseed
  obtain ⟨kept, hkept, hresolve⟩ := h.exists_filtered hvalid hmember
  refine ⟨_, hresolve, fun q => ?_⟩
  rw [List.mem_filter, Std.ExtTreeSet.contains_iff_mem, hkept]
  refine and_congr_right fun hq => ?_
  have hdiscovered := h.mem_names.1 (List.mem_map_of_mem hq)
  simp [hdiscovered, Filters.Keeps]

end Unfiltered

/-- The depth of a package is one more than the length of the shortest paths to it from a seed in
the graph of the closure, whichever way the closure has grown. -/
theorem Accepted.resolve_depth_eq_length {config : Config} (withAcl : Bool)
    (hu : Universe.ofSnapshot skipDebuginfo s = .ok u)
    (h : request.Accepted u config p.now checked) (hfilters : checked.filters.isActive = false) :
    let resolver := Resolver.ofUniverse u config withAcl
    let byLeaf text := (resolver.resolve u.world
      { request with filters := { FilterRequest.none with leaf := some text } } p).1
    ∃ result c,
      (resolver.resolve u.world request p).1 = .resolved result ∧
      (checked.completeClosure u.packageNames.size).eval u = .ok c ∧
      (∀ n ∈ c.members, (∃ s ∈ checked.seeds, c.graph.Reaches s n) ∧
        ∃ length, c.level? n = some (1 + length) ∧
          IsLeast {l | Chain checked.seeds c.graph.Requires (l + 1) n} length) ∧
      (∀ n m, c.graph.Requires n m →
        ∃ j k, c.level? n = some j ∧ c.level? m = some k ∧ k ≤ j + 1) ∧
      (∀ n, n ∈ result.names ↔ n ∈ c.members ∧ n ∉ checked.seeds) ∧
      (∀ q ∈ result.packages, c.level? q.name = some q.depth ∧
        q.requires = c.graph.requires q.name ∧
        (3 ≤ q.depth → ∃ q' ∈ result.packages, q'.depth + 1 = q.depth ∧ q.name ∈ q'.requires)) ∧
      (∀ text, .ofText text ∈ checked.seeds → ∃ part, byLeaf text = .resolved part) ∧
      ∀ q, q ∈ result.packages ↔ ∃ text ∈ request.seeds, .ofText text ∈ checked.seeds ∧
        ∃ part, byLeaf text = .resolved part ∧ q ∈ part.packages := by
  intro resolver byLeaf
  obtain ⟨result, index, c, hresolve, hbase⟩ := h.exists_unfiltered resolver hu hfilters
  refine ⟨result, _, hresolve, hbase.finds.eval_completeClosure, fun n hn => ?_,
    fun n m hnm => hbase.finds.exists_levels_of_requires hnm, fun n => ?_, fun q hq => ?_,
    fun text hseed => ?_, fun q => ?_⟩
  · exact ⟨hbase.finds.exists_reaches hn, hbase.finds.exists_length hn⟩
  · rw [hbase.mem_names, hbase.finds.mem_discovered]
    rfl
  · obtain ⟨-, hlevel, hrequires⟩ := hbase.record_spec hq
    exact ⟨hlevel, hrequires, hbase.exists_requires hq⟩
  · obtain ⟨part, hpart, -⟩ := hbase.exists_byLeaf hseed
    exact ⟨part, hpart⟩
  · constructor
    · intro hq
      obtain ⟨hmem, -⟩ :=
        hbase.finds.mem_discovered.1 (hbase.mem_names.1 (List.mem_map_of_mem hq))
      obtain ⟨seed, hseed, hreaches⟩ := hbase.finds.exists_reaches hmem
      obtain ⟨text, htext, rfl, -⟩ := h.mem_seeds.1 hseed
      obtain ⟨part, hpart, hrecords⟩ := hbase.exists_byLeaf hseed
      exact ⟨text, htext, hseed, part, hpart, (hrecords q).2 ⟨hq, hreaches⟩⟩
    · rintro ⟨text, -, hseed, part, hpart, hq⟩
      obtain ⟨part', hpart', hrecords⟩ := hbase.exists_byLeaf hseed
      obtain rfl : part' = part := Outcome.resolved.inj (hpart'.symm.trans hpart)
      exact ((hrecords q).1 hq).1

/-- In a half step `b` is on the second level, and `a` as a leaf shows it. -/
theorem Accepted.resolve_depth_eq_length_cycle :
    let resolver := Resolver.ofUniverse cycleUniverse .default true
    let request := cycleRequest (.build 3 true)
    let leaf := { FilterRequest.none with leaf := some " a " }
    ∃ result part q,
      (resolver.resolve cycleUniverse.world request ⟨[], 0⟩).1 = .resolved result ∧
      (resolver.resolve cycleUniverse.world { request with filters := leaf } ⟨[], 0⟩).1 =
        .resolved part ∧
      q ∈ result.packages ∧ q ∈ part.packages ∧ q.name = ⟨"b"⟩ ∧ q.depth = 2 := by
  intro resolver request leaf
  have hgoal : request.checkGoal .default = .ok () := by decide +kernel
  obtain ⟨result, c, hresolve, heval, -, -, hnames, hrecords, -, hunion⟩ :=
    resolve_depth_eq_length true (p := ⟨[], 0⟩) ofSnapshot_cycleBranch
      (accepted_cycleRequest hgoal) rfl
  have hmember : c.members.contains ⟨"b"⟩ = true :=
    eq_of_map_eq_ok (f := (·.members.contains ⟨"b"⟩)) heval (by decide +kernel)
  have hlevel : c.level? ⟨"b"⟩ = some 2 :=
    eq_of_map_eq_ok (f := (·.level? ⟨"b"⟩)) heval (by decide +kernel)
  have hseed : (⟨"b"⟩ : PackageName) ∉ request.seedSet := by decide +kernel
  have hname := (hnames ⟨"b"⟩).2 ⟨Std.ExtTreeSet.contains_iff_mem.1 hmember, hseed⟩
  obtain ⟨q, hq, hqname⟩ := List.mem_map.1 hname
  obtain ⟨text, htext, htextSeed, part, hpart, hqpart⟩ := (hunion q).1 hq
  have htext : text = " a " := by
    rcases List.mem_cons.1 htext with htext | htext
    · exact htext
    · obtain rfl := List.mem_singleton.1 htext
      exact absurd htextSeed (by decide +kernel)
  subst htext
  refine ⟨result, part, q, hresolve, hpart, hq, hqpart, hqname, ?_⟩
  obtain ⟨hdepth, -⟩ := hrecords q hq
  rw [hqname, hlevel] at hdepth
  exact (Option.some.inj hdepth).symm

end Request

end BuildPlan
