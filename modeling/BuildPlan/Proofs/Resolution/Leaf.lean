import BuildPlan.Proofs.Resolution.Deepening

/-! # A leaf on its own

The last level of a build closure that is deep enough is empty, and then the closure is closed: its
members need each other alone. So what a member reaches in the graph is all that it needs, however
indirectly, and this is what it finds as the only seed. The one is read off the arrows of a graph
whose seeds are hidden, and the other grows round by round, with levels of its own.
-/
namespace BuildPlan

open Relation

variable {u : Universe}

namespace CheckedRequest

/-- What the request means with a filter for a leaf. -/
def withLeaf (r : CheckedRequest) (leaf : PackageName) : CheckedRequest :=
  { r with filters := ⟨some leaf, false, none⟩ }

/-- What the request means with a single seed. -/
def withSeed (r : CheckedRequest) (seed : PackageName) : CheckedRequest :=
  { r with seeds := .ofList [seed] }

variable {r : CheckedRequest} {depth depth' : UInt32} {index : BranchIndex} {c c' : Closure}
  {horizon k : Nat} {leaf n m : PackageName}

theorem mem_seeds_withSeed :
    n ∈ ((r.withSeed leaf).atDepth depth).seeds ↔ n = leaf := by
  rw [atDepth, withSeed, Std.ExtTreeSet.mem_ofList, List.contains_iff_mem, List.mem_singleton]

theorem graph_withLeaf : (r.withLeaf leaf).graph index c = r.graph index c := rfl

/-! ### Closed closures -/

namespace Finds

section Closed

variable (h : (r.atDepth depth).Finds u horizon index c) (hpos : 1 ≤ depth.toNat)
  (hempty : ∀ m : PackageName, c.levels[m]? ≠ some depth.toNat)
include h hpos hempty

theorem mem_members_of_needs (hn : n ∈ c.members) (hnm : u.Needs r.scope .source true n m) :
    m ∈ c.members := by
  obtain ⟨k, hk⟩ := Closure.mem_members.1 hn
  have hne : k ≠ depth.toNat := by
    intro heq
    exact hempty n (heq ▸ hk)
  obtain ⟨hle, hrank⟩ := (h.levels_iff_atDepth hpos).1 hk
  have hleads : (Expansion.build r.scope false).Leads index r.seeds n m := h.leads_iff.2 hnm
  obtain ⟨j, hj, hrank'⟩ := (Chain.step hrank.1 hleads).exists_isRank
  exact Closure.mem_members.2 ⟨j, (h.levels_iff_atDepth hpos).2 ⟨by omega, hrank'⟩⟩

theorem mem_members_of_needed (hn : n ∈ c.members)
    (hnm : ReflTransGen (u.Needs r.scope .source true) n m) : m ∈ c.members := by
  induction hnm with
  | refl => exact hn
  | tail _ hneeds ih => exact h.mem_members_of_needs hpos hempty ih hneeds

/-- The graph of a closed closure leaves no path out. -/
theorem reaches_of_needed (hn : n ∈ c.members)
    (hnm : ReflTransGen (u.Needs r.scope .source true) n m) :
    ((r.atDepth depth).graph index c).Reaches n m := by
  induction hnm with
  | refl => exact .refl
  | @tail a b hna hab ih =>
    by_cases heq : a = b
    · exact heq ▸ ih
    · have ha := h.mem_members_of_needed hpos hempty hn hna
      have hb := h.mem_members_of_needs hpos hempty ha hab
      exact ih.tail (h.requires_graph.2 ⟨ha, hb, heq, hab⟩)

end Closed

theorem needed_of_reaches (h : (r.atDepth depth).Finds u horizon index c)
    (hnm : ((r.atDepth depth).graph index c).Reaches n m) :
    ReflTransGen (u.Needs r.scope .source true) n m := by
  apply ReflTransGen.mono _ _ _ hnm
  intro a b hab
  exact (h.requires_graph.1 hab).2.2.2

theorem mem_members_withSeed (h : ((r.withSeed leaf).atDepth depth).Finds u horizon index c)
    (hpos : 1 ≤ depth.toNat) (hempty : ∀ m : PackageName, c.levels[m]? ≠ some depth.toNat) :
    m ∈ c.members ↔ ReflTransGen (u.Needs r.scope .source true) leaf m := by
  constructor
  · intro hm
    obtain ⟨s, hs, hreaches⟩ := h.exists_reaches hm
    obtain rfl := mem_seeds_withSeed.1 hs
    exact h.needed_of_reaches hreaches
  · intro hneeded
    have hleaf : leaf ∈ c.members := h.grown.mem_of_mem_seeds leaf (mem_seeds_withSeed.2 rfl)
    exact h.mem_members_of_needed hpos hempty hleaf hneeded

/-- What a member of a closed closure reaches is what it finds as the only seed. -/
theorem reaches_iff_mem_members (h : (r.atDepth depth).Finds u horizon index c)
    (h' : ((r.withSeed leaf).atDepth depth').Finds u horizon index c') (hpos : 1 ≤ depth.toNat)
    (hpos' : 1 ≤ depth'.toNat) (hempty : ∀ m : PackageName, c.levels[m]? ≠ some depth.toNat)
    (hempty' : ∀ m : PackageName, c'.levels[m]? ≠ some depth'.toNat) (hleaf : leaf ∈ c.members) :
    n ∈ c.discovered ∧ ((r.atDepth depth).graph index c).Reaches leaf n ↔
      n ∈ c'.members ∧ n ∉ r.seeds := by
  rw [h.mem_discovered, h'.mem_members_withSeed hpos' hempty']
  constructor
  · intro ⟨⟨_, hseed⟩, hreaches⟩
    exact ⟨h.needed_of_reaches hreaches, hseed⟩
  · intro ⟨hneeded, hseed⟩
    exact ⟨⟨h.mem_members_of_needed hpos hempty hleaf hneeded, hseed⟩,
      h.reaches_of_needed hpos hempty hleaf hneeded⟩

theorem mem_members_withSeed_iff (h : ((r.withSeed leaf).atDepth depth).Finds u horizon index c) :
    n ∈ c.members ↔ n = leaf ∨ n ∈ c.discovered := by
  have hmem := h.grown.mem_of_mem_seeds n
  rw [mem_seeds_withSeed] at hmem
  rw [h.mem_discovered, mem_seeds_withSeed]
  tauto

end Finds

theorem Emits.level_ne {kept : PackageSet} {packages : List ResolvedPackage}
    (h : r.Emits index c kept packages) (hfinds : r.Finds u horizon index c)
    (hfilters : r.filters.isActive = false) (withAcl : Bool) (hk : 2 ≤ k)
    (hdepth : ∀ q ∈ annotated index withAcl packages, q.depth ≠ k) (m : PackageName) :
    c.levels[m]? ≠ some k := by
  intro hm
  obtain rfl := h.kept_eq hfilters
  have hseed := (hfinds.isRank_of_level hm).notMem_seeds hk
  have hfound := hfinds.mem_discovered.2 ⟨Closure.mem_members.2 ⟨k, hm⟩, hseed⟩
  obtain ⟨q, hq, rfl⟩ := List.mem_map.1 ((h.mem_names_annotated withAcl).2 hfound)
  have hlevel := level_of_mem_annotated h.records_eq
    (fun n hn => (hfinds.mem_discovered.1 hn).1) hq
  exact hdepth q hq (Option.some.inj (hlevel.symm.trans hm))

theorem Emits.mem_kept_withLeaf {kept : PackageSet} {packages : List ResolvedPackage}
    (h : (r.withLeaf leaf).Emits index c kept packages) :
    n ∈ kept ↔ n ∈ c.discovered ∧ (r.graph index c).Reaches leaf n := by
  rw [h.mem_kept, graph_withLeaf]
  simp [withLeaf, Filters.Keeps]

theorem Finds.mem_names_iff_alone {packages packages' : List ResolvedPackage} {kept : PackageSet}
    (h : (r.atDepth depth).Finds u horizon index c)
    (h' : ((r.withSeed leaf).atDepth depth').Finds u horizon index c')
    (hemits : ((r.atDepth depth).withLeaf leaf).Emits index c kept packages)
    (hemits' : ((r.withSeed leaf).atDepth depth').Emits index c' c'.discovered packages')
    (hpos : 1 ≤ depth.toNat) (hpos' : 1 ≤ depth'.toNat)
    (hempty : ∀ m : PackageName, c.levels[m]? ≠ some depth.toNat)
    (hempty' : ∀ m : PackageName, c'.levels[m]? ≠ some depth'.toNat) (hleaf : leaf ∈ c.members)
    (withAcl : Bool) : n ∈ (annotated index withAcl packages).map (·.name) ↔
      (n = leaf ∨ n ∈ (annotated index withAcl packages').map (·.name)) ∧ n ∉ r.seeds := by
  calc n ∈ (annotated index withAcl packages).map (·.name)
    _ ↔ n ∈ c.discovered ∧ ((r.atDepth depth).graph index c).Reaches leaf n :=
      (hemits.mem_names_annotated withAcl).trans hemits.mem_kept_withLeaf
    _ ↔ n ∈ c'.members ∧ n ∉ r.seeds :=
      h.reaches_iff_mem_members h' hpos hpos' hempty hempty' hleaf
    _ ↔ _ := by rw [h'.mem_members_withSeed_iff, hemits'.mem_names_annotated withAcl]

theorem exists_leaf_eq_alone (resolver : Resolver) {skipDebuginfo : Bool} {s : Snapshot}
    (hu : Universe.ofSnapshot skipDebuginfo s = .ok u) (hscope : u.checkScope r.scope = .ok ())
    (hfilters : r.filters.isActive = false) (hdepth : 2 ≤ depth.toNat)
    (hdepth' : 2 ≤ depth'.toNat) : ∃ base c,
      ((r.atDepth depth).program resolver).eval u = .ok base ∧
      ((r.atDepth depth).completeClosure resolver.horizon).eval u = .ok c ∧
      ∀ leaf ∈ c.members, ∃ part alone : Resolution,
        (((r.atDepth depth).withLeaf leaf).program resolver).eval u = .ok part ∧
        (((r.withSeed leaf).atDepth depth').program resolver).eval u = .ok alone ∧
        ((∀ q ∈ base.packages, q.depth ≠ depth.toNat) →
          (∀ q ∈ alone.packages, q.depth ≠ depth'.toNat) →
          ∀ n, n ∈ part.names ↔ (n = leaf ∨ n ∈ alone.names) ∧ n ∉ r.seeds) := by
  have hnone := Filters.isActive_eq_false_iff.1 hfilters
  obtain ⟨index, c, hfinds⟩ := exists_finds (r := r.atDepth depth) hscope resolver.horizon
  obtain ⟨found, packages, hbase, hevalBase⟩ :=
    hfinds.exists_emits resolver hu (by simp [atDepth, hnone])
  refine ⟨_, _, hevalBase, hfinds.eval_completeClosure, ?_⟩
  intro leaf hleaf
  have hpart := hfinds.withFilters ⟨some leaf, false, none⟩
  have hmember : ∀ l, some leaf = some l → l ∈ c.members := by
    rintro _ ⟨⟩
    exact hleaf
  obtain ⟨kept, part, hkept, hevalPart⟩ := hpart.exists_emits resolver hu hmember
  obtain ⟨index', c', halone⟩ :=
    exists_finds (r := (r.withSeed leaf).atDepth depth') hscope resolver.horizon
  obtain rfl := hfinds.index_unique halone rfl
  obtain ⟨found', alone, hemits, hevalAlone⟩ :=
    halone.exists_emits resolver hu (by simp [withSeed, atDepth, hnone])
  refine ⟨_, _, hevalPart, hevalAlone, ?_⟩
  intro hlast hlast' n
  have hempty := hbase.level_ne hfinds hfilters resolver.withAcl hdepth hlast
  have hempty' := hemits.level_ne halone hfilters resolver.withAcl hdepth' hlast'
  obtain rfl := hemits.kept_eq hfilters
  exact hfinds.mem_names_iff_alone halone hkept hemits (by omega) (by omega) hempty hempty' hleaf
    resolver.withAcl

end CheckedRequest

namespace Request

variable {skipDebuginfo : Bool} {s : Snapshot} {request : Request} {checked : CheckedRequest}
  {config : Config} {p : Progress} {depth depth' : UInt32} {text : String} {leaf : PackageName}

/-! ### Leaves and seeds of a request -/

/-- The same request with a filter for a leaf alone. -/
def withLeaf (request : Request) (text : String) : Request :=
  { request with filters := { FilterRequest.none with leaf := some text } }

/-- The same request with a single seed. -/
def withSeed (request : Request) (text : String) : Request := { request with seeds := [text] }

theorem Accepted.withLeaf {now : Nat} (h : request.Accepted u config now checked)
    (hleaf : PackageName.ofText? text = some leaf) :
    (request.withLeaf text).Accepted u config now (checked.withLeaf leaf) := by
  have hvalid := FilterRequest.validate_leafOnly { FilterRequest.none with leaf := some text }
  rw [Option.bind_some, hleaf] at hvalid
  exact h.withFilters hvalid

theorem Accepted.withSeed {now : Nat} (h : request.Accepted u config now checked)
    (hleaf : PackageName.ofText? text = some leaf) :
    (request.withSeed text).Accepted u config now (checked.withSeed leaf) := by
  have hseeds : (request.withSeed text).seedSet = .ofList [leaf] := by
    simp [seedSet, Request.withSeed, hleaf]
  have hne : (request.withSeed text).seedSet.isEmpty = false := by
    rw [hseeds]
    rfl
  have haccepted := h.withSeeds hne
  rwa [← Request.withSeed, hseeds] at haccepted

/-- Of a build closure with an empty last level, a leaf shows what it finds as the only seed, and
itself, without the seeds of the closure. -/
theorem Accepted.resolve_leaf_eq_alone (withAcl : Bool)
    (hu : Universe.ofSnapshot skipDebuginfo s = .ok u)
    (h : (request.atDepth depth).Accepted u config p.now checked)
    (hfilters : checked.filters.isActive = false) (hdepth : 2 ≤ depth.toNat)
    (hdepth' : 2 ≤ depth'.toNat) (hmax : depth'.toNat ≤ config.maxDepth.toNat) :
    let resolver := Resolver.ofUniverse u config withAcl
    let outcome request := (resolver.resolve u.world request p).1
    ∃ base c,
      outcome (request.atDepth depth) = .resolved base ∧
      (checked.completeClosure resolver.horizon).eval u = .ok c ∧
      ∀ leaf ∈ c.members, ∃ part alone : Resolution,
        ((checked.withLeaf leaf).program resolver).eval u = .ok part ∧
        (((checked.withSeed leaf).atDepth depth').program resolver).eval u = .ok alone ∧
        (∀ text, PackageName.ofText? text = some leaf →
          outcome ((request.atDepth depth).withLeaf text) = .resolved part ∧
          outcome ((request.withSeed text).atDepth depth') = .resolved alone) ∧
        ((∀ q ∈ base.packages, q.depth ≠ depth.toNat) →
          (∀ q ∈ alone.packages, q.depth ≠ depth'.toNat) →
          ∀ n, n ∈ part.names ↔ (n = leaf ∨ n ∈ alone.names) ∧ n ∉ request.seedSet) := by
  intro resolver outcome
  have hgoal : checked.goal = .build depth false := h.goal_eq
  have hchecked : checked.atDepth depth = checked := by rw [CheckedRequest.atDepth, ← hgoal]
  obtain ⟨base, c, hbase, hclosure, hleaves⟩ :=
    checked.exists_leaf_eq_alone resolver hu h.checkScope_eq hfilters hdepth hdepth'
  rw [hchecked] at hbase hclosure hleaves
  refine ⟨base, c, ?_, hclosure, fun leaf hleaf => ?_⟩
  · rw [← Outcome.ofResult_eq_resolved_iff.2 hbase]
    exact resolver.resolve_world h
  obtain ⟨part, alone, hpart, halone, hnames⟩ := hleaves leaf hleaf
  refine ⟨part, alone, hpart, halone, fun text htext => ⟨?_, ?_⟩, h.seeds_eq ▸ hnames⟩
  · rw [← Outcome.ofResult_eq_resolved_iff.2 hpart]
    exact resolver.resolve_world (h.withLeaf htext)
  · have haccepted : ((request.withSeed text).atDepth depth').Accepted u config p.now
        ((checked.withSeed leaf).atDepth depth') :=
      Accepted.withDepth (h.withSeed htext) (by omega) hmax
    rw [← Outcome.ofResult_eq_resolved_iff.2 halone]
    exact resolver.resolve_world haccepted

/-- The third level of the small universe is empty. So `b` as a leaf shows itself and `c`, which it
finds as the only seed together with the hidden `a`. -/
theorem Accepted.resolve_leaf_eq_alone_cycle :
    let resolver := Resolver.ofUniverse cycleUniverse .default true
    let outcome request := (resolver.resolve cycleUniverse.world request ⟨[], 0⟩).1
    let request := cycleRequest (.build 3 false)
    ∃ part alone, outcome (request.withLeaf "b ") = .resolved part ∧
      outcome ((request.withSeed "b ").atDepth 4) = .resolved alone ∧ ⟨"b"⟩ ∈ part.names ∧
      ∀ n, n ∈ part.names ↔ (n = ⟨"b"⟩ ∨ n ∈ alone.names) ∧ n ∉ request.seedSet := by
  intro resolver outcome request
  have hgoal : request.checkGoal .default = .ok () := by decide +kernel
  have haccepted : (request.atDepth 3).Accepted cycleUniverse .default 0 _ :=
    accepted_cycleRequest hgoal
  have htext : PackageName.ofText? "b " = some ⟨"b"⟩ := by decide +kernel
  have hdepth' : 2 ≤ (4 : UInt32).toNat := by decide
  obtain ⟨base, c, hbase, heval, hleaves⟩ :=
    haccepted.resolve_leaf_eq_alone true (p := ⟨[], 0⟩) ofSnapshot_cycleBranch rfl
      (by decide) hdepth' (by decide)
  have hmember : c.members.contains ⟨"b"⟩ = true :=
    eq_of_map_eq_ok (f := (·.members.contains ⟨"b"⟩)) heval (by decide +kernel)
  obtain ⟨part, alone, -, -, houtcomes, hnames⟩ :=
    hleaves ⟨"b"⟩ (Std.ExtTreeSet.contains_iff_mem.1 hmember)
  obtain ⟨hpart, halone⟩ := houtcomes "b " htext
  have haccepted' : ((request.withSeed "b ").atDepth 4).Accepted cycleUniverse .default 0 _ :=
    Accepted.withDepth (haccepted.withSeed htext) (by decide) (by decide)
  have hempty := haccepted.depth_ne_of_eval resolver (p := ⟨[], 0⟩) (k := 3)
    ofSnapshot_cycleBranch rfl (by decide +kernel) hbase
  have hempty' := haccepted'.depth_ne_of_eval resolver (p := ⟨[], 0⟩) (k := 4)
    ofSnapshot_cycleBranch rfl (by decide +kernel) halone
  refine ⟨part, alone, hpart, halone, ?_, hnames hempty hempty'⟩
  exact (hnames hempty hempty' _).2 ⟨Or.inl rfl, by decide +kernel⟩

end Request

end BuildPlan
