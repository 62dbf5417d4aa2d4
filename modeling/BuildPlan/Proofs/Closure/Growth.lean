import BuildPlan.Closure.Expansion
import BuildPlan.Proofs.Closure.Chain
import BuildPlan.Proofs.Session.Calls
import BuildPlan.Proofs.Universe.Answers

/-! # How closures grow

Each round finds what the newest members need. A closure that has grown for some rounds, or until
nothing new was found, holds the names of the first ranks, each at its rank. A half step leaves some
names of the last rank out.
-/
namespace BuildPlan

namespace Closure

variable {c : Closure} {n : PackageName}

theorem mem_members : n ∈ c.members ↔ ∃ k, c.levels[n]? = some k := by
  simp only [members, Std.ExtTreeSet.mem_ofList, List.contains_iff_mem, Std.ExtTreeMap.mem_keys,
    Std.ExtTreeMap.mem_iff_isSome_getElem?, Option.isSome_iff_exists]

theorem mem_discovered : n ∈ c.discovered ↔ (∃ k, c.levels[n]? = some k) ∧ n ∉ c.seeds := by
  rw [discovered, Std.ExtTreeSet.mem_diff_iff, mem_members]

theorem mem_fresh {candidates : PackageSet} :
    n ∈ c.fresh candidates ↔ n ∈ candidates ∧ c.levels[n]? = none := by
  simp [fresh, contains, ← Bool.not_eq_true]

@[simp] theorem seeds_absorb {names : PackageSet} {level : Nat} :
    (c.absorb names level).seeds = c.seeds := rfl

theorem getElem?_levels_absorb {names : PackageSet} {level : Nat} :
    (c.absorb names level).levels[n]? =
      if n ∈ names then some level else c.levels[n]? := by
  have key : ∀ (l : List PackageName) (levels : Std.ExtTreeMap PackageName Nat),
      (l.foldl (fun levels n => levels.insert n level) levels)[n]? =
        if n ∈ l then some level else levels[n]? := by
    intro l
    induction l with
    | nil => simp
    | cons m l ih => grind
  simp [absorb, Std.ExtTreeSet.foldl_eq_foldl_toList, key]

theorem mem_members_absorb {names : PackageSet} {level : Nat} :
    n ∈ (c.absorb names level).members ↔ n ∈ names ∨ n ∈ c.members := by
  simp only [mem_members, getElem?_levels_absorb]
  split <;> simp [*]

theorem getElem?_levels_ofSeeds {seeds : PackageSet} {k : Nat} :
    (ofSeeds seeds).levels[n]? = some k ↔ n ∈ seeds ∧ k = 1 := by
  have hkeys : ((seeds.toList.map fun n => (n, 1)).map Prod.fst).Nodup := by
    simpa [Function.comp_def] using nodup_toList seeds
  rw [ofSeeds, getElem?_ofList_eq_some_iff hkeys]
  simp [eq_comm]

end Closure

namespace Expansion

variable {u : Universe} {index : BranchIndex} {x : Expansion} {seeds : PackageSet}

/-! ### Rounds -/

/-- What a round learns about the newest members. -/
def learn (x : Expansion) (index : BranchIndex) (reading : NameReading) (frontier : PackageSet)
    (c : Closure) : Closure :=
  let requirements := index.requirementsOf frontier reading x.scope
  let capabilities := SetMap.range requirements
  (c.recordRequirements frontier requirements).recordProviders capabilities
    (index.providersOf capabilities x.scope x.asSource)

/-- What the newest members need. -/
def found (x : Expansion) (index : BranchIndex) (reading : NameReading) (frontier : PackageSet) :
    PackageSet :=
  SetMap.range (index.providersOf (SetMap.range (index.requirementsOf frontier reading x.scope))
    x.scope x.asSource)

@[simp] theorem seeds_learn {reading : NameReading} {frontier : PackageSet} {c : Closure} :
    (x.learn index reading frontier c).seeds = c.seeds := rfl

@[simp] theorem levels_learn {reading : NameReading} {frontier : PackageSet} {c : Closure} :
    (x.learn index reading frontier c).levels = c.levels := rfl

@[simp] theorem members_learn {reading : NameReading} {frontier : PackageSet} {c : Closure} :
    (x.learn index reading frontier c).members = c.members := rfl

theorem mem_found {reading : NameReading} {frontier : PackageSet} {m : PackageName} :
    m ∈ x.found index reading frontier ↔
      ∃ n ∈ frontier, index.Needs x.scope reading x.asSource n m := by
  simp only [found, BranchIndex.mem_range_providersOf, BranchIndex.mem_range_requirementsOf,
    BranchIndex.Needs]
  grind

theorem eval_discover (h : u.branch x.scope.branch = .ok index) (reading : NameReading)
    (frontier : PackageSet) (c : Closure) :
    (c.discover x.scope reading x.asSource frontier).eval u =
      .ok (x.learn index reading frontier c, x.found index reading frontier) := by
  simp only [Closure.discover, Program.eval_bind, Program.eval_requirementsOf h,
    Program.eval_providersOf h, Program.eval_pure]
  rfl

/-- What the source packages of the frontier need themselves. -/
def wanted (x : Expansion) (index : BranchIndex) (frontier : PackageSet) : PackageSet :=
  (build (x.scope.withDependencyType .source) false).found index .source frontier

/-- What a round finds, once it has been pruned. -/
def pruned (x : Expansion) (index : BranchIndex) (reading : NameReading) (last : Bool)
    (frontier : PackageSet) : PackageSet :=
  if x.halfStep && last then
    (x.found index reading frontier).filter (x.wanted index frontier).contains
  else x.found index reading frontier

theorem mem_pruned {reading : NameReading} {last : Bool} {frontier : PackageSet}
    {m : PackageName} : m ∈ x.pruned index reading last frontier ↔
      m ∈ x.found index reading frontier ∧
        (x.halfStep = true → last = true → m ∈ x.wanted index frontier) := by
  unfold pruned
  split
  · next h =>
    obtain ⟨hhalf, hlast⟩ := (Bool.and_eq_true ..).mp h
    simp [hhalf, hlast]
  · next h =>
    rw [Bool.and_eq_true, not_and] at h
    exact (and_iff_left fun hhalf hlast => absurd hlast (h hhalf)).symm

theorem eval_sourceProviders (h : u.branch x.scope.branch = .ok index) (frontier : PackageSet) :
    (x.sourceProviders frontier).eval u = .ok (x.wanted index frontier) := by
  have hside : u.branch (x.scope.withDependencyType .source).branch = .ok index := h
  simp only [sourceProviders, Program.eval_bind, Program.eval_requirementsOf hside,
    Program.eval_providersOf hside, Program.eval_pure]
  rfl

theorem eval_candidates (h : u.branch x.scope.branch = .ok index) (reading : NameReading)
    (last : Bool) (frontier : PackageSet) (c : Closure) :
    (x.candidates reading last frontier c).eval u =
      .ok (x.learn index reading frontier c, x.pruned index reading last frontier) := by
  simp only [candidates, pruned, Program.eval_bind, eval_discover h, ok_bind]
  split
  · simp only [Program.eval_bind, eval_sourceProviders h, Program.eval_pure, ok_bind]
  · rfl

theorem eval_candidates_of_error {e : UniverseError} (h : u.branch x.scope.branch = .error e)
    (reading : NameReading) (last : Bool) {frontier : PackageSet}
    (hfrontier : frontier.isEmpty = false) (c : Closure) :
    (x.candidates reading last frontier c).eval u = .error (.accessor e) := by
  have hcall : (Program.requirementsOf frontier reading x.scope).eval u =
      .error (.accessor e) := by
    unfold Program.requirementsOf
    rw [if_neg (by simp [hfrontier]), Program.eval_call, Universe.reply, Universe.answer,
      Universe.requirementsOf, h]
    rfl
  rw [candidates, Program.eval_bind, Closure.discover, Program.eval_bind, hcall]
  rfl

/-- A property that every round preserves holds at the end of the growth, which comes when the
rounds are used up or nothing new was found. It may be about the calls that have been made. -/
theorem exists_calls_grow {P : Nat → NameReading → Nat → PackageSet → Closure → List Call → Prop}
    (hround : ∀ rounds reading level frontier c calls,
      P (rounds + 1) reading level frontier c calls →
      ∃ c' found, (x.candidates reading (rounds == 0) frontier c).eval u = .ok (c', found) ∧
        P rounds x.reading (level + 1) (c'.fresh found) (c'.absorb (c'.fresh found) level)
          (calls ++ (x.candidates reading (rounds == 0) frontier c).calls u))
    (rounds : Nat) (reading : NameReading) (level : Nat) (frontier : PackageSet) (c : Closure)
    (calls : List Call) (h : P rounds reading level frontier c calls) :
    ∃ c' rounds' reading' level' frontier',
      (x.grow rounds reading level frontier c).eval u = .ok c' ∧
        P rounds' reading' level' frontier' c'
          (calls ++ (x.grow rounds reading level frontier c).calls u) ∧
        (rounds' = 0 ∨ frontier'.isEmpty = true) := by
  induction rounds generalizing reading level frontier c calls with
  | zero =>
    refine ⟨c, 0, reading, level, frontier, rfl, ?_, Or.inl rfl⟩
    rwa [grow, Program.calls_pure, List.append_nil]
  | succ rounds ih =>
    rw [grow]
    split
    · next hempty =>
      refine ⟨c, rounds + 1, reading, level, frontier, rfl, ?_, Or.inr hempty⟩
      rwa [Program.calls_pure, List.append_nil]
    · obtain ⟨c', found, heval, hP⟩ := hround rounds reading level frontier c calls h
      obtain ⟨c'', rounds', reading', level', frontier', heval', hP', hend⟩ := ih _ _ _ _ _ hP
      refine ⟨c'', rounds', reading', level', frontier', ?_, ?_, hend⟩
      · simp only [Program.eval_bind, heval]
        exact heval'
      · rw [Program.calls_bind u heval, ← List.append_assoc]
        exact hP'

theorem exists_eval_grow {P : Nat → NameReading → Nat → PackageSet → Closure → Prop}
    (hround : ∀ rounds reading level frontier c, P (rounds + 1) reading level frontier c →
      ∃ c' found, (x.candidates reading (rounds == 0) frontier c).eval u = .ok (c', found) ∧
        P rounds x.reading (level + 1) (c'.fresh found) (c'.absorb (c'.fresh found) level))
    (rounds : Nat) (reading : NameReading) (level : Nat) (frontier : PackageSet) (c : Closure)
    (h : P rounds reading level frontier c) :
    ∃ c' rounds' reading' level' frontier',
      (x.grow rounds reading level frontier c).eval u = .ok c' ∧
        P rounds' reading' level' frontier' c' ∧ (rounds' = 0 ∨ frontier'.isEmpty = true) :=
  exists_calls_grow
    (P := fun rounds reading level frontier c _ => P rounds reading level frontier c)
    (fun rounds reading level frontier c _ => hround rounds reading level frontier c) rounds reading
    level frontier c [] h

/-! ### Levels -/

/-- How a member is read: the first round reads the seeds, and no later round does. -/
def readingOf (x : Expansion) (seeds : PackageSet) (n : PackageName) : NameReading :=
  if n ∈ seeds then x.seedReading else x.reading

/-- What a member of a closure needs. -/
def Leads (x : Expansion) (index : BranchIndex) (seeds : PackageSet) (n m : PackageName) : Prop :=
  index.Needs x.scope (x.readingOf seeds n) x.asSource n m

/-- The names of a level are those of its rank. On its last level a half step keeps only what names
of the level before need as sources. -/
structure InLevel (x : Expansion) (index : BranchIndex) (seeds : PackageSet) (last k : Nat)
    (m : PackageName) : Prop where
  rank : IsRank seeds (x.Leads index seeds) k m
  exists_wants : x.halfStep = true → k = last → 2 ≤ k →
    ∃ n, IsRank seeds (x.Leads index seeds) (k - 1) n ∧
      index.Needs (x.scope.withDependencyType .source) .source true n m

variable {last k : Nat} {m : PackageName}

theorem inLevel_iff_isRank (h : x.halfStep = false ∨ k < last) :
    x.InLevel index seeds last k m ↔ IsRank seeds (x.Leads index seeds) k m := by
  constructor
  · exact InLevel.rank
  · intro hrank
    constructor
    · exact hrank
    · intro hhalf hlast
      rcases h with h | h
      · rw [h] at hhalf
        cases hhalf
      · omega

theorem inLevel_one_iff : x.InLevel index seeds last 1 m ↔ m ∈ seeds := by
  rw [← IsRank.one_iff (r := x.Leads index seeds)]
  constructor
  · exact InLevel.rank
  · intro hrank
    exact ⟨hrank, fun _ _ hge => absurd hge (by omega)⟩

/-- A closure before a round that finds the names of some level: it holds those of lower levels, and
the ones of the level before are its newest members. -/
structure Stands (x : Expansion) (index : BranchIndex) (seeds : PackageSet) (last : Nat)
    (reading : NameReading) (level : Nat) (frontier : PackageSet) (c : Closure) : Prop where
  level_ge : 2 ≤ level
  seeds_eq : c.seeds = seeds
  level_iff : ∀ m k, c.levels[m]? = some k ↔ k < level ∧ x.InLevel index seeds last k m
  mem_frontier : ∀ m, m ∈ frontier ↔ x.InLevel index seeds last (level - 1) m
  reading_eq : ∀ n ∈ frontier, reading = x.readingOf seeds n

theorem stands_ofSeeds : x.Stands index seeds last x.seedReading 2 seeds (.ofSeeds seeds) where
  level_ge := le_rfl
  seeds_eq := rfl
  level_iff m k := by
    rw [Closure.getElem?_levels_ofSeeds]
    constructor
    · rintro ⟨hm, rfl⟩
      exact ⟨by omega, inLevel_one_iff.2 hm⟩
    · rintro ⟨hk, hlevel⟩
      obtain rfl : k = 1 := by have := hlevel.rank.pos; omega
      exact ⟨inLevel_one_iff.1 hlevel, rfl⟩
  mem_frontier m := inLevel_one_iff.symm
  reading_eq n hn := (if_pos hn).symm

variable {reading : NameReading} {level : Nat} {frontier : PackageSet} {c : Closure}

theorem Stands.isRank_iff (h : x.Stands index seeds last reading level frontier c)
    (hlevel : level ≤ last) : IsRank seeds (x.Leads index seeds) level m ↔
      m ∈ x.found index reading frontier ∧ c.levels[m]? = none := by
  obtain ⟨level, rfl⟩ : ∃ l, level = l + 1 := ⟨level - 1, by have := h.level_ge; omega⟩
  have hpos : 0 < level := by have := h.level_ge; omega
  rw [IsRank.succ_iff hpos, mem_found]
  apply and_congr
  · refine exists_congr fun n => ?_
    rw [h.mem_frontier, Nat.add_sub_cancel, inLevel_iff_isRank (.inr hlevel)]
    refine and_congr_right fun hn => ?_
    have hfrontier := (h.mem_frontier n).2 ((inLevel_iff_isRank (.inr hlevel)).2 hn)
    rw [Leads, ← h.reading_eq n hfrontier]
  · rw [Option.eq_none_iff_forall_ne_some]
    refine forall_congr' fun k => ?_
    rw [ne_eq, h.level_iff, not_and, Nat.lt_succ_iff]
    exact imp_congr_right fun hk => by rw [inLevel_iff_isRank (.inr (by omega))]

theorem Stands.mem_fresh (h : x.Stands index seeds last reading level frontier c)
    (hlevel : level ≤ last) :
    m ∈ (x.learn index reading frontier c).fresh
        (x.pruned index reading (level == last) frontier) ↔ x.InLevel index seeds last level m := by
  have hwanted : m ∈ x.wanted index frontier ↔
      ∃ n, IsRank seeds (x.Leads index seeds) (level - 1) n ∧
        index.Needs (x.scope.withDependencyType .source) .source true n m := by
    rw [wanted, mem_found]
    refine exists_congr fun n => and_congr_left' ?_
    rw [h.mem_frontier, inLevel_iff_isRank (.inr (by have := h.level_ge; omega))]
  rw [Closure.mem_fresh, mem_pruned, levels_learn, and_right_comm, ← h.isRank_iff hlevel, hwanted,
    beq_iff_eq]
  constructor
  · rintro ⟨hrank, hwants⟩
    exact ⟨hrank, fun hhalf hlast _ => hwants hhalf hlast⟩
  · rintro ⟨hrank, hwants⟩
    exact ⟨hrank, fun hhalf hlast => hwants hhalf hlast h.level_ge⟩

theorem Stands.round (h : x.Stands index seeds last reading level frontier c)
    (hlevel : level ≤ last) :
    let fresh := (x.learn index reading frontier c).fresh
      (x.pruned index reading (level == last) frontier)
    x.Stands index seeds last x.reading (level + 1) fresh
      ((x.learn index reading frontier c).absorb fresh level) := by
  have hge := h.level_ge
  refine ⟨by omega, by simp [h.seeds_eq], fun m k => ?_, fun m => ?_, fun n hn => ?_⟩
  · rw [Closure.getElem?_levels_absorb, levels_learn]
    split
    · next hm =>
      have hin := (h.mem_fresh hlevel).1 hm
      constructor
      · rintro ⟨⟩
        exact ⟨by omega, hin⟩
      · rintro ⟨-, hk⟩
        rw [hin.rank.unique hk.rank]
    · next hm =>
      rw [h.level_iff]
      refine ⟨fun ⟨hk, hin⟩ => ⟨by omega, hin⟩, fun ⟨hk, hin⟩ => ⟨?_, hin⟩⟩
      have : k ≠ level := fun e => hm ((h.mem_fresh hlevel).2 (e ▸ hin))
      omega
  · exact h.mem_fresh hlevel
  · exact (if_neg (((h.mem_fresh hlevel).1 hn).rank.notMem_seeds hge)).symm

/-- A closure that has grown for some rounds holds the names of the first levels. -/
theorem exists_levels (h : u.branch x.scope.branch = .ok index) (rounds : Nat)
    (seeds : PackageSet) :
    ∃ c, (x.closure rounds seeds).eval u = .ok c ∧ c.seeds = seeds ∧
      ∀ m k, c.levels[m]? = some k ↔
        k ≤ rounds + 1 ∧ x.InLevel index seeds (rounds + 1) k m := by
  let P (left : Nat) (reading : NameReading) (level : Nat) (frontier : PackageSet) (c : Closure) :=
    level + left = rounds + 2 ∧ x.Stands index seeds (rounds + 1) reading level frontier c
  have hround : ∀ left reading level frontier c, P (left + 1) reading level frontier c →
      ∃ c' found, (x.candidates reading (left == 0) frontier c).eval u = .ok (c', found) ∧
        P left x.reading (level + 1) (c'.fresh found) (c'.absorb (c'.fresh found) level) := by
    rintro left reading level frontier c ⟨hlevel, hstands⟩
    have hlast : (left == 0) = (level == rounds + 1) := by
      rw [Bool.eq_iff_iff, beq_iff_eq, beq_iff_eq]
      omega
    rw [hlast]
    exact ⟨_, _, eval_candidates h .., by omega, hstands.round (by omega)⟩
  obtain ⟨c, left, reading, level, frontier, heval, ⟨hlevel, hstands⟩, hend⟩ :=
    exists_eval_grow hround rounds x.seedReading 2 seeds (.ofSeeds seeds)
      ⟨by omega, stands_ofSeeds⟩
  refine ⟨c, heval, hstands.seeds_eq, fun m k => ?_⟩
  rw [hstands.level_iff]
  refine ⟨fun ⟨hk, hin⟩ => ⟨by omega, hin⟩, fun ⟨hk, hin⟩ => ⟨?_, hin⟩⟩
  by_contra hlt
  rcases hend with rfl | hempty
  · omega
  · -- ranks leave no gaps, so that nothing has a rank beyond an empty one
    have hge := hstands.level_ge
    obtain ⟨n, hn⟩ := hin.rank.exists_of_le (j := level - 1) (by omega) (by omega)
    have hbefore : level - 1 < rounds + 1 := by omega
    have hfrontier := (inLevel_iff_isRank (.inr hbefore)).2 hn
    exact isEmpty_iff_forall_notMem.1 hempty n ((hstands.mem_frontier n).2 hfrontier)

/-- A closure without a half step holds the names of the first ranks, each at its rank. -/
theorem closure_spec (h : u.branch x.scope.branch = .ok index) (hhalf : x.halfStep = false)
    (rounds : Nat) (seeds : PackageSet) :
    ∃ c, (x.closure rounds seeds).eval u = .ok c ∧ c.seeds = seeds ∧
      ∀ m k, c.levels[m]? = some k ↔
        k ≤ rounds + 1 ∧ IsRank seeds (x.Leads index seeds) k m := by
  obtain ⟨c, heval, hseeds, hlevels⟩ := exists_levels h rounds seeds
  refine ⟨c, heval, hseeds, fun m k => ?_⟩
  rw [hlevels, inLevel_iff_isRank (.inl hhalf)]

end Expansion

end BuildPlan
