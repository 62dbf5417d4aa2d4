import BuildPlan.Proofs.Resolution.Depth

/-! # Seeds taken together

What is found from two sets of seeds together is what is found from one of them or the other, apart
from the seeds. A seed of one set may be no more than a member of the other closure, and in a full
closure it is then read in another way. That changes nothing: a seed is read as no less than a
member, and no shortest way leads through a second seed.
-/
namespace BuildPlan

variable {u : Universe}

theorem Expansion.isPart_leads {x : Expansion} {index : BranchIndex} {part seeds : PackageSet}
    (hreading : x.seedReading = x.reading ∨ x.seedReading = .either ∧ x.reading = .binary)
    (hpart : ∀ n ∈ part, n ∈ seeds) :
    IsPart part (x.Leads index part) seeds (x.Leads index seeds) where
  mem_seeds := hpart
  mono := by
    intro n m h
    by_cases hn : n ∈ part
    · simpa [Leads, readingOf, hn, hpart n hn] using h
    · by_cases hseed : n ∈ seeds
      · simp only [Leads, readingOf, hn, hseed, if_false, if_true] at h ⊢
        rcases hreading with hsame | ⟨heither, hbinary⟩
        · rwa [hsame]
        · rw [heither]
          rw [hbinary] at h
          exact h.either
      · simpa [Leads, readingOf, hn, hseed] using h
  of_rel := by
    intro n m hn h
    have hiff : n ∈ part ↔ n ∈ seeds := ⟨hpart n, fun hseed => hn.resolve_right fun h => h hseed⟩
    rwa [Leads, readingOf, if_congr hiff rfl rfl]

namespace CheckedRequest

variable {index : BranchIndex} {r : CheckedRequest} {c c₁ c₂ : Closure} {horizon k : Nat}
  {seeds₁ seeds₂ : PackageSet} {m : PackageName}

/-- The level of a name is the smaller one of its levels in the two closures. -/
theorem Finds.levels_iff_isLeast (h : r.Finds u horizon index c)
    (h₁ : { r with seeds := seeds₁ }.Finds u horizon index c₁)
    (h₂ : { r with seeds := seeds₂ }.Finds u horizon index c₂)
    (hgoal : ∀ depth, r.goal ≠ .build depth true)
    (hseeds : ∀ n, n ∈ r.seeds ↔ n ∈ seeds₁ ∨ n ∈ seeds₂) : c.levels[m]? = some k ↔
      IsLeast {j | c₁.levels[m]? = some j ∨ c₂.levels[m]? = some j} k := by
  have hpart : ∀ part : PackageSet, (∀ n ∈ part, n ∈ r.seeds) → IsPart part
      (r.expansion.Leads index part) r.seeds (r.expansion.Leads index r.seeds) :=
    fun part => Expansion.isPart_leads r.seedReading_expansion
  rw [h.levels_iff_isRank hgoal, isRank_iff_isLeast_parts
    (hpart seeds₁ fun n hn => (hseeds n).2 (Or.inl hn))
    (hpart seeds₂ fun n hn => (hseeds n).2 (Or.inr hn)) fun n hn => (hseeds n).1 hn]
  have hset : {j | c₁.levels[m]? = some j ∨ c₂.levels[m]? = some j} =
      {j | j ≤ r.rounds horizon + 1 ∧ (IsRank seeds₁ (r.expansion.Leads index seeds₁) j m ∨
        IsRank seeds₂ (r.expansion.Leads index seeds₂) j m)} := by
    ext j
    rw [Set.mem_ofPred_eq, h₁.levels_iff_isRank hgoal, h₂.levels_iff_isRank hgoal]
    exact and_or_left.symm
  rw [hset]
  constructor
  · rintro ⟨hk, hleast⟩
    exact ⟨⟨hk, hleast.1⟩, fun j hj => hleast.2 hj.2⟩
  · rintro ⟨⟨hk, hmem⟩, hleast⟩
    refine ⟨hk, hmem, fun j hj => ?_⟩
    by_contra hlt
    exact hlt (hleast ⟨by omega, hj⟩)

theorem Finds.mem_members_iff_parts (h : r.Finds u horizon index c)
    (h₁ : { r with seeds := seeds₁ }.Finds u horizon index c₁)
    (h₂ : { r with seeds := seeds₂ }.Finds u horizon index c₂)
    (hgoal : ∀ depth, r.goal ≠ .build depth true)
    (hseeds : ∀ n, n ∈ r.seeds ↔ n ∈ seeds₁ ∨ n ∈ seeds₂) :
    m ∈ c.members ↔ m ∈ c₁.members ∨ m ∈ c₂.members := by
  simp only [Closure.mem_members, h.levels_iff_isLeast h₁ h₂ hgoal hseeds, ← exists_or]
  constructor
  · rintro ⟨k, hk, -⟩
    exact ⟨k, hk⟩
  · classical exact fun hlevel => ⟨_, Nat.isLeast_find hlevel⟩

end CheckedRequest

namespace Request.Accepted

variable {skipDebuginfo : Bool} {s : Snapshot} {request : Request} {checked : CheckedRequest}
  {config : Config} {p : Progress} {texts₁ texts₂ : List String}

/-- From seeds that two parts make up is found what is found from one part or the other, apart from
the seeds, and each package at the smaller of its depths there. -/
theorem resolve_union_seeds (withAcl : Bool) (hu : Universe.ofSnapshot skipDebuginfo s = .ok u)
    (h : request.Accepted u config p.now checked) (hfilters : checked.filters.isActive = false)
    (hgoal : ∀ depth, request.goal ≠ .build depth true)
    (h₁ : { request with seeds := texts₁ }.seedSet.isEmpty = false)
    (h₂ : { request with seeds := texts₂ }.seedSet.isEmpty = false)
    (hseeds : ∀ n, n ∈ request.seedSet ↔ n ∈ { request with seeds := texts₁ }.seedSet ∨
      n ∈ { request with seeds := texts₂ }.seedSet) :
    let resolver := Resolver.ofUniverse u config withAcl
    ∃ result result₁ result₂,
      (resolver.resolve u.world request p).1 = .resolved result ∧
      (resolver.resolve u.world { request with seeds := texts₁ } p).1 = .resolved result₁ ∧
      (resolver.resolve u.world { request with seeds := texts₂ } p).1 = .resolved result₂ ∧
      (∀ n, n ∈ result.names ↔ (n ∈ result₁.names ∨ n ∈ result₂.names) ∧
        n ∉ { request with seeds := texts₁ }.seedSet ∧
        n ∉ { request with seeds := texts₂ }.seedSet) ∧
      ∀ q ∈ result.packages, IsLeast {k | ∃ q' ∈ result₁.packages ++ result₂.packages,
        q'.name = q.name ∧ q'.depth = k} q.depth := by
  intro resolver
  obtain ⟨result, index, c, hresolve, hbase⟩ := h.exists_unfiltered resolver hu hfilters
  obtain ⟨result₁, index₁, c₁, hresolve₁, hbase₁⟩ :=
    (h.withSeeds h₁).exists_unfiltered resolver hu hfilters
  obtain ⟨result₂, index₂, c₂, hresolve₂, hbase₂⟩ :=
    (h.withSeeds h₂).exists_unfiltered resolver hu hfilters
  obtain rfl := hbase.finds.index_unique hbase₁.finds rfl
  obtain rfl := hbase.finds.index_unique hbase₂.finds rfl
  rw [← h.goal_eq] at hgoal
  rw [← h.seeds_eq] at hseeds
  refine ⟨result, result₁, result₂, hresolve, hresolve₁, hresolve₂, fun n => ?_, fun q hq => ?_⟩
  · rw [hbase.mem_names, hbase₁.mem_names, hbase₂.mem_names, hbase.finds.mem_discovered,
      hbase₁.finds.mem_discovered, hbase₂.finds.mem_discovered, hseeds,
      hbase.finds.mem_members_iff_parts hbase₁.finds hbase₂.finds hgoal hseeds]
    tauto
  · obtain ⟨hseed, hlevel, -⟩ := hbase.record_spec hq
    obtain ⟨hseed₁, hseed₂⟩ := not_or.1 (mt (hseeds q.name).2 hseed)
    have hset : {k | ∃ q' ∈ result₁.packages ++ result₂.packages, q'.name = q.name ∧
        q'.depth = k} = {k | c₁.levels[q.name]? = some k ∨ c₂.levels[q.name]? = some k} := by
      ext k
      rw [Set.mem_ofPred_eq, Set.mem_ofPred_eq, ← hbase₁.exists_depth_iff hseed₁,
        ← hbase₂.exists_depth_iff hseed₂]
      simp only [List.mem_append, or_and_right, exists_or]
    rw [hset]
    exact (hbase.finds.levels_iff_isLeast hbase₁.finds hbase₂.finds hgoal hseeds).1 hlevel

/-- From `c` alone `libc` is found last, by way of `b` and `a`. With `a` among the seeds it is found
at once. -/
theorem resolve_union_seeds_cycle :
    let resolver := Resolver.ofUniverse cycleUniverse .default true
    let outcome texts :=
      (resolver.resolve cycleUniverse.world { cycleRequest .full with seeds := texts } ⟨[], 0⟩).1
    ∃ result result₁ result₂, outcome ["a", "c"] = .resolved result ∧
      outcome ["a"] = .resolved result₁ ∧ outcome ["c"] = .resolved result₂ ∧
      ∃ q ∈ result.packages, q.name = ⟨"libc"⟩ ∧ q.depth ≤ 2 := by
  intro resolver outcome
  have haccepted : ({ cycleRequest .full with seeds := ["a", "c"] } : Request).Accepted
      cycleUniverse .default 0 _ := (accepted_cycleRequest rfl).withSeeds (by decide +kernel)
  have hseeds : { cycleRequest .full with seeds := ["a"] }.seedSet.isEmpty = false := by
    decide +kernel
  have hparts : ∀ n : PackageName, n ∈ { cycleRequest .full with seeds := ["a", "c"] }.seedSet ↔
      n ∈ { cycleRequest .full with seeds := ["a"] }.seedSet ∨
        n ∈ { cycleRequest .full with seeds := ["c"] }.seedSet := by
    intro n
    simp [mem_seedSet]
  obtain ⟨result, result₁, result₂, hresolve, hresolve₁, hresolve₂, hnames, hleast⟩ :=
    haccepted.resolve_union_seeds true (p := ⟨[], 0⟩) ofSnapshot_cycleBranch rfl
      (by simp [cycleRequest]) hseeds (by decide +kernel) hparts
  obtain ⟨result₁', hresolve', q₁, hq₁, hname₁, hdepth₁⟩ :=
    (haccepted.withSeeds hseeds).exists_record_of_eval resolver (p := ⟨[], 0⟩)
      ofSnapshot_cycleBranch rfl (n := ⟨"libc"⟩) (k := 2) (by decide +kernel)
  obtain rfl : result₁' = result₁ := Outcome.resolved.inj (hresolve'.symm.trans hresolve₁)
  have hfound : ⟨"libc"⟩ ∈ result.names := by
    apply (hnames _).2
    exact ⟨Or.inl (hname₁ ▸ List.mem_map_of_mem hq₁), by decide +kernel, by decide +kernel⟩
  obtain ⟨q, hq, hname⟩ := List.mem_map.1 hfound
  refine ⟨result, result₁', result₂, hresolve, hresolve₁, hresolve₂, q, hq, hname, ?_⟩
  apply (hleast q hq).2
  exact ⟨q₁, List.mem_append_left _ hq₁, hname₁.trans hname.symm, hdepth₁⟩

end Request.Accepted

end BuildPlan
