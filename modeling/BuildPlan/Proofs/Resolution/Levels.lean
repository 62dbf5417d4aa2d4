import BuildPlan.Proofs.Resolution.Outcome

/-! # Which packages a resolution finds

Without filters a build closure is a ball: it holds what chains of at most as many names as its
depth lead to. A full closure is the least set that holds the seeds and what its members need. The
depth of a record is the length of the shortest chains to its package.
-/
namespace BuildPlan

variable {u : Universe} {skipDebuginfo : Bool} {s : Snapshot}

namespace Request.Accepted

variable {config : Config} {request : Request} {checked : CheckedRequest} {p : Progress}

/-- What a request without filters and half step finds, given how its closure grows. -/
theorem resolve_spec (withAcl : Bool) (hu : Universe.ofSnapshot skipDebuginfo s = .ok u)
    (h : request.Accepted u config p.now checked) (hfilters : checked.filters.isActive = false)
    (x : Expansion) (rounds : Nat) (hscope : x.scope = checked.scope)
    (hsource : x.asSource = checked.asSource) (hhalf : x.halfStep = false)
    (hclosure : checked.closure u.packageNames.size = x.closure rounds checked.seeds)
    (leads : PackageName → PackageName → Prop)
    (hleads : leads = fun n m =>
      u.Needs checked.scope (x.readingOf checked.seeds n) checked.asSource n m) :
    ∃ result progress,
      (Resolver.ofUniverse u config withAcl).resolve u.world request p =
          (.resolved result, progress) ∧
        result.names.Nodup ∧
        (∀ m, m ∈ result.names ↔
          m ∉ checked.seeds ∧ ∃ k ≤ rounds + 1, IsRank checked.seeds leads k m) ∧
        ∀ q ∈ result.packages,
          q.depth ≤ rounds + 1 ∧ IsRank checked.seeds leads q.depth q.name := by
  obtain ⟨index, hbranch⟩ := Universe.exists_branch_of_checkScope h.checkScope_eq
  have hrelation : x.Leads index checked.seeds = leads := by
    funext n m
    rw [hleads, Expansion.Leads, hscope, hsource]
    exact propext (Universe.needs_iff hbranch).symm
  obtain ⟨c, heval, hseeds, hlevels⟩ :=
    x.closure_spec (by rw [hscope]; exact hbranch) hhalf rounds checked.seeds
  rw [hrelation] at hlevels
  obtain ⟨result, c', hresolve, hcomplete, hnodup, hmem, hdepth⟩ :=
    h.exists_resolved (.ofUniverse u config withAcl) hu hfilters
  obtain rfl : checked.completed index c = c' := Except.ok.inj
    ((CheckedRequest.eval_completeClosure hbranch (hclosure ▸ heval)).symm.trans hcomplete)
  refine ⟨result, _, Prod.ext hresolve rfl, hnodup, fun m => ?_,
    fun q hq => (hlevels q.name q.depth).1 (hdepth q hq)⟩
  have hdiscovered : m ∈ (checked.completed index c).discovered ↔
      (∃ k, c.levels[m]? = some k) ∧ m ∉ c.seeds := Closure.mem_discovered
  rw [hmem, hdiscovered, hseeds, and_comm]
  simp only [hlevels]

/-! ### The two kinds of closures -/

/-- A build closure emits the names that are not seeds and that chains of at most as many names as
its depth lead to. -/
theorem resolve_build_eq_ball (withAcl : Bool) (hu : Universe.ofSnapshot skipDebuginfo s = .ok u)
    (h : request.Accepted u config p.now checked) (hfilters : checked.filters.isActive = false)
    {depth : UInt32} (hgoal : request.goal = .build depth false) :
    let leads := u.Needs checked.scope .source true
    ∃ result progress,
      (Resolver.ofUniverse u config withAcl).resolve u.world request p =
          (.resolved result, progress) ∧
        (∀ n, n ∈ checked.seeds ↔ ∃ text ∈ request.seeds, n = .ofText text ∧ n.text ≠ "") ∧
        result.names.Nodup ∧
        (∀ m, m ∈ result.names ↔
          m ∉ checked.seeds ∧ ∃ k ≤ depth.toNat, Chain checked.seeds leads k m) ∧
        ∀ q ∈ result.packages, IsLeast {k | Chain checked.seeds leads k q.name} q.depth ∧
          2 ≤ q.depth ∧ q.depth ≤ depth.toNat := by
  intro leads
  have hdepth : 1 ≤ depth.toNat := h.one_le_depth hgoal
  have hgoal' : checked.goal = .build depth false := h.goal_eq.trans hgoal
  have hsource : checked.asSource = true := by rw [CheckedRequest.asSource, hgoal']
  have hleads : leads = fun n m => u.Needs checked.scope
      ((Expansion.build checked.scope false).readingOf checked.seeds n) checked.asSource n m := by
    funext n m
    simp [leads, Expansion.readingOf, Expansion.build, hsource]
  obtain ⟨result, progress, hresolve, hnodup, hmem, hlevel⟩ :=
    h.resolve_spec withAcl hu hfilters (.build checked.scope false) (depth.toNat - 1) rfl
      hsource.symm rfl (by rw [CheckedRequest.closure, hgoal']) leads hleads
  rw [Nat.sub_add_cancel hdepth] at hmem hlevel
  refine ⟨result, progress, hresolve, fun n => h.mem_seeds, hnodup, fun m => ?_, fun q hq => ?_⟩
  · rw [hmem]
    refine and_congr_right fun _ => ⟨?_, ?_⟩
    · rintro ⟨k, hk, hrank⟩
      exact ⟨k, hk, hrank.1⟩
    · rintro ⟨k, hk, hchain⟩
      obtain ⟨j, hj, hrank⟩ := hchain.exists_isRank
      exact ⟨j, hj.trans hk, hrank⟩
  · obtain ⟨hle, hrank⟩ := hlevel q hq
    have hseed := ((hmem q.name).1 (List.mem_map_of_mem hq)).1
    exact ⟨hrank, hrank.two_le hseed, hle⟩

theorem resolve_build_eq_ball_cycle : ∃ result progress,
    (Resolver.ofUniverse cycleUniverse .default true).resolve cycleUniverse.world
        (cycleRequest (.build 3 false)) ⟨[], 0⟩ = (.resolved result, progress) ∧
      ⟨"b"⟩ ∈ result.names ∧ ∀ q ∈ result.packages, q.name = ⟨"b"⟩ → q.depth = 2 := by
  have hgoal : (cycleRequest (.build 3 false)).checkGoal .default = .ok () := by decide +kernel
  obtain ⟨result, progress, hresolve, hseeds, -, hmem, hlevel⟩ :=
    resolve_build_eq_ball true (p := ⟨[], 0⟩) ofSnapshot_cycleBranch
      (accepted_cycleRequest hgoal) rfl rfl
  have hseed : (⟨"a"⟩ : PackageName) ∈ (cycleRequest (.build 3 false)).seedSet := by
    decide +kernel
  have hneeds : cycleUniverse.Needs cycleScope .source true ⟨"a"⟩ ⟨"b"⟩ :=
    ⟨_, rfl, ⟨"b"⟩, by decide +kernel, _, rfl, by decide +kernel⟩
  have hchain := Chain.step (.seed hseed) hneeds
  refine ⟨result, progress, hresolve, ?_, fun q hq hname => ?_⟩
  · exact (hmem _).2 ⟨by decide +kernel, 2, by decide, hchain⟩
  · obtain ⟨⟨-, hleast⟩, hge, -⟩ := hlevel q hq
    have := hleast (hname ▸ hchain)
    omega

/-- A full closure emits what the least closed set holds beside the seeds. -/
theorem resolve_full_eq_least (withAcl : Bool) (hu : Universe.ofSnapshot skipDebuginfo s = .ok u)
    (h : request.Accepted u config p.now checked) (hfilters : checked.filters.isActive = false)
    (hgoal : request.goal = .full) :
    let leads n m :=
      u.Needs checked.scope (if n ∈ checked.seeds then .either else .binary) false n m
    ∃ result progress members,
      (Resolver.ofUniverse u config withAcl).resolve u.world request p =
          (.resolved result, progress) ∧
        (∀ n, n ∈ checked.seeds ↔ ∃ text ∈ request.seeds, n = .ofText text ∧ n.text ≠ "") ∧
        IsLeast {t | IsClosed checked.seeds leads t} members ∧
        result.names.Nodup ∧
        (∀ m, m ∈ result.names ↔ m ∈ members ∧ m ∉ checked.seeds) ∧
        ∀ q ∈ result.packages, ∃ length, q.depth = 1 + length ∧
          IsLeast {l | Chain checked.seeds leads (l + 1) q.name} length := by
  intro leads
  have hgoal' : checked.goal = .full := h.goal_eq.trans hgoal
  have hsource : checked.asSource = false := by rw [CheckedRequest.asSource, hgoal']
  obtain ⟨result, progress, hresolve, hnodup, hmem, hlevel⟩ :=
    h.resolve_spec withAcl hu hfilters (.full checked.scope) (u.packageNames.size + 1) rfl
      hsource.symm rfl (by rw [CheckedRequest.closure, hgoal']) leads (by rw [hsource]; rfl)
  obtain ⟨index, hbranch⟩ := Universe.exists_branch_of_checkScope h.checkScope_eq
  have hbound : ∀ k m, IsRank checked.seeds leads k m → k ≤ u.packageNames.size + 1 :=
    fun k m hrank => hrank.le_size fun n m hnm => (hnm.exists_package hu hbranch).1
  refine ⟨result, progress, _, hresolve, fun n => h.mem_seeds, isLeast_isClosed, hnodup,
    fun m => ?_, fun q hq => ?_⟩
  · rw [hmem, and_comm]
    refine and_congr_left fun _ => ⟨?_, ?_⟩
    · rintro ⟨k, -, hrank⟩
      exact ⟨k, hrank⟩
    · rintro ⟨k, hrank⟩
      exact ⟨k, (hbound k m hrank).trans (by omega), hrank⟩
  · obtain ⟨-, hchain, hleast⟩ := hlevel q hq
    obtain ⟨l, hl⟩ : ∃ l, q.depth = l + 1 := ⟨q.depth - 1, by have := Chain.pos hchain; omega⟩
    rw [hl] at hchain hleast
    refine ⟨l, by omega, hchain, fun i hi => ?_⟩
    have := hleast hi
    omega

theorem resolve_full_eq_least_cycle : ∃ result progress,
    (Resolver.ofUniverse cycleUniverse .default true).resolve cycleUniverse.world
        (cycleRequest .full) ⟨[], 0⟩ = (.resolved result, progress) ∧ ⟨"libc"⟩ ∈ result.names := by
  obtain ⟨result, progress, members, hresolve, -, ⟨hclosed, -⟩, -, hmem, -⟩ :=
    resolve_full_eq_least true (p := ⟨[], 0⟩) ofSnapshot_cycleBranch
      (accepted_cycleRequest rfl) rfl rfl
  have hseed : (⟨"a"⟩ : PackageName) ∈ (cycleRequest .full).seedSet := by decide +kernel
  have hneeds : cycleUniverse.Needs cycleScope .either false ⟨"a"⟩ ⟨"libc"⟩ :=
    ⟨_, rfl, ⟨"c"⟩, by decide +kernel, _, rfl, by decide +kernel⟩
  refine ⟨result, progress, hresolve, (hmem _).2 ⟨?_, by decide +kernel⟩⟩
  refine IsClosed.step hclosed _ (IsClosed.seed hclosed _ hseed) _ ?_
  rw [if_pos hseed]
  exact hneeds

end Request.Accepted

end BuildPlan
