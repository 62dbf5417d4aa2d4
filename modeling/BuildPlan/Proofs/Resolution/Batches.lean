import BuildPlan.Proofs.Resolution.Depth
import BuildPlan.Proofs.Resolution.Ledger
import BuildPlan.Proofs.Resolution.Outage

/-! # The batches of a resolution

A resolution asks about each member of its closure once. The members of a level are asked about
together, so that a build closure costs no more calls of a kind than it has levels, however many
packages there are. All calls are about one scope, but for those that a half step makes on the side.
-/
namespace BuildPlan

namespace CheckedRequest

/-- The calls behind a completed closure: those of its rounds, those that a half step makes on the
side, and the last ones, which complete it. -/
structure Batches (r : CheckedRequest) (u : Universe) (c : Closure)
    (main side last : List Call) : Prop where
  disjoint : ((main ++ last).filterMap Call.names?).Pairwise fun s t => ∀ n ∈ s, n ∉ t
  mem_members : ∀ n, n ∈ c.members ↔ ∃ names ∈ (main ++ last).filterMap Call.names?, n ∈ names
  mem_of_mem_seeds : ∀ n ∈ r.seeds, n ∈ c.members
  length_le : ∀ depth halfStep, r.goal = .build depth halfStep →
    ((main ++ last).filterMap Call.names?).length ≤ (if halfStep then 3 else depth.toNat) ∧
      ((main ++ last).filterMap Call.capabilities?).length ≤ if halfStep then 3 else depth.toNat
  exists_capabilities : ∀ n ∈ c.members, ∀ a ∈ SetMap.values c.requirements n,
    ∃ capabilities ∈ (main ++ last).filterMap Call.capabilities?, a ∈ capabilities
  notMem_earlier : ∀ capabilities ∈ last.filterMap Call.capabilities?, ∀ a ∈ capabilities,
    ∀ earlier ∈ main.filterMap Call.capabilities?, a ∉ earlier
  last_eq_nil : r.goal = .full → last = []
  concerns : ∀ call ∈ main ++ last, call.Concerns r.scope
  side_eq_nil : (∀ depth, r.goal ≠ .build depth true) → side = []
  exists_side : ∀ depth, r.goal = .build depth true → ∃ second : PackageSet,
    (∀ n, n ∈ second ↔ c.level? n = some 2) ∧
      side = ((Expansion.build r.scope true).sourceProviders second).calls u
  side_concerns : ∀ call ∈ side, call.Concerns (r.scope.withDependencyType .source)

variable {u : Universe} {skipDebuginfo : Bool} {s : Snapshot} {index : BranchIndex}
  {r : CheckedRequest} {c : Closure}

theorem Finds.exists_batches (hu : Universe.ofSnapshot skipDebuginfo s = .ok u)
    (h : r.Finds u u.packageNames.size index c)
    (hdepth : ∀ depth, r.goal = .build depth false → 1 ≤ depth.toNat) : ∃ main side last,
    (r.closure u.packageNames.size).calls u = main ++ side ∧
      (r.completeClosure u.packageNames.size).calls u = main ++ side ++ last ∧
      r.Batches u (r.completed index c) main side last := by
  have hbranch : u.branch r.expansion.scope.branch = .ok index := by
    rw [scope_expansion]
    exact h.branch_eq
  obtain ⟨c', frontier, main, side, heval, hcalls, hledger, hfrontier, hside, hnewest⟩ :=
    Expansion.exists_ledger hbranch (r.rounds u.packageNames.size) r.seeds
  rw [← closure_eq] at heval hcalls
  obtain rfl : c = c' := Except.ok.inj (h.eval_closure.symm.trans heval)
  rw [scope_expansion] at hledger
  let last := c.lastBatch index r.scope r.reading r.asSource
  have hlast : (r.completeClosure u.packageNames.size).calls u = main ++ side ++ last := by
    rw [completeClosure, Program.calls_bind u heval, hcalls,
      Closure.calls_complete h.branch_eq]
  have haccounts : (r.completed index c).Accounts r.scope (main ++ last) :=
    hledger.accounts_completed ..
  have hsecond : ∀ depth, r.goal = .build depth true → ∃ second : PackageSet,
      (∀ n, n ∈ second ↔ c.levels[n]? = some 2) ∧
        side = ((Expansion.build r.scope true).sourceProviders second).calls u := by
    intro depth hgoal
    have hexpansion : r.expansion = .build r.scope true := by rw [expansion, hgoal]
    have hrounds : r.rounds u.packageNames.size = 2 := by rw [rounds, hgoal]; rfl
    rw [hexpansion, hrounds] at hnewest
    exact hnewest rfl (by omega)
  refine ⟨main, side, last, hcalls, hlast, ?_⟩
  constructor
  case disjoint => exact haccounts.disjoint
  case mem_members => exact fun n => hledger.mem_members_iff
  case mem_of_mem_seeds => exact h.grown.mem_of_mem_seeds
  case length_le =>
    intro depth halfStep hgoal
    have hrounds : r.rounds u.packageNames.size + 1 = if halfStep then 3 else depth.toNat := by
      cases halfStep with
      | true => rw [rounds, hgoal]; rfl
      | false =>
        have hpos := hdepth depth hgoal
        rw [rounds, hgoal]
        exact Nat.sub_add_cancel hpos
    rw [← hrounds]
    exact ⟨Closure.length_names?_append_batch.trans (Nat.succ_le_succ hledger.names_le),
      Closure.length_capabilities?_append_batch.trans
        (Nat.succ_le_succ hledger.capabilities_le)⟩
  case exists_capabilities =>
    intro n _ a ha
    exact hledger.exists_capabilities (SetMap.mem_range.2 ⟨n, ha⟩)
  case notMem_earlier => exact fun capabilities hc a ha => hledger.notMem_of_lastBatch hc ha
  case last_eq_nil =>
    intro hgoal
    apply hledger.lastBatch_eq_nil
    apply isEmpty_iff_forall_notMem.2
    intro n hn
    -- the last round has found nothing, since there are more rounds than names
    have hle := h.isRank_le_size hu (h.isRank_of_level (hfrontier n hn))
    rw [rounds_of_full hgoal] at hle
    omega
  case concerns => exact haccounts.concerns
  case side_eq_nil => exact fun hgoal => hside (halfStep_expansion hgoal)
  case exists_side => exact hsecond
  case side_concerns =>
    intro call hcall
    by_cases hhalf : ∃ depth, r.goal = .build depth true
    · obtain ⟨depth, hgoal⟩ := hhalf
      obtain ⟨second, -, rfl⟩ := hsecond depth hgoal
      exact ((Expansion.allCalls_sourceProviders _ second).of_mem_calls u hcall).1
    · push Not at hhalf
      rw [hside (halfStep_expansion hhalf)] at hcall
      cases hcall

end CheckedRequest

namespace Request.Accepted

variable {u : Universe} {skipDebuginfo : Bool} {s : Snapshot} {config : Config} {request : Request}
  {checked : CheckedRequest} {p : Progress}

/-- The calls of a request after the check of its scope: those of its closure come in batches, and
the others are about the same scope. -/
theorem resolve_calls_in_batches (withAcl : Bool)
    (hu : Universe.ofSnapshot skipDebuginfo s = .ok u)
    (h : request.Accepted u config p.now checked) : ∃ c main side last rest,
      (checked.completeClosure u.packageNames.size).eval u = .ok c ∧
      (checked.closure u.packageNames.size).calls u = main ++ side ∧
      (checked.completeClosure u.packageNames.size).calls u = main ++ side ++ last ∧
      checked.Batches u c main side last ∧
      ((Resolver.ofUniverse u config withAcl).resolve u.world request p).2.past =
        (.checkScope checked.scope :: (main ++ side ++ last ++ rest)).reverse ++ p.past ∧
      (∀ call ∈ rest, call.Concerns checked.scope) ∧
      checked.scope.dependencyType = request.scope.dependencyType := by
  let resolver := Resolver.ofUniverse u config withAcl
  obtain ⟨index, c, hfinds⟩ := CheckedRequest.exists_finds h.checkScope_eq u.packageNames.size
  have hdepth : ∀ depth, checked.goal = .build depth false → 1 ≤ depth.toNat := by
    intro depth hgoal
    exact h.one_le_depth (h.goal_eq.symm.trans hgoal)
  obtain ⟨main, side, last, hclosure, hcomplete, hbatches⟩ := hfinds.exists_batches hu hdepth
  obtain ⟨next, hprogram, hnext⟩ := checked.exists_program_eq_bind resolver
  let rest := (next (checked.completed index c)).calls u
  have hcalls : resolver.calls u request p.now =
      .checkScope checked.scope :: (main ++ side ++ last ++ rest) := by
    have hreply : u.reply (.checkScope checked.scope) = .ok () := by
      rw [Universe.reply, Universe.answer, h.checkScope_eq]
      rfl
    have hbind : (checked.completeClosure resolver.horizon >>= next).calls u =
        main ++ side ++ last ++ rest := by
      rw [← hcomplete]
      exact Program.calls_bind u hfinds.eval_completeClosure next
    rw [Resolver.calls_of_accepted h, hprogram, Program.calls, hreply, ← hbind]
  refine ⟨_, main, side, last, rest, hfinds.eval_completeClosure, hclosure, hcomplete, hbatches,
    ?_, fun call hcall => (hnext _).of_mem_calls u hcall, h.dependencyType_eq⟩
  rw [Resolver.resolve_world_snd, hcalls]

/-- A half step in the small universe makes six calls for its closure, two of them on the side. The
seed is asked about in one of the others. -/
theorem resolve_calls_in_batches_cycle :
    let request := cycleRequest (.build 3 true)
    let checked : CheckedRequest :=
      ⟨.build 3 true, request.seedSet, cycleScope, ⟨none, false, none⟩⟩
    ∃ main side last,
      (checked.completeClosure cycleUniverse.packageNames.size).calls cycleUniverse =
        main ++ side ++ last ∧
      (main ++ side ++ last).length = 6 ∧
      ((main ++ last).filterMap Call.names?).length ≤ 3 ∧
      ∃ names ∈ (main ++ last).filterMap Call.names?, ⟨"a"⟩ ∈ names := by
  intro request checked
  have hgoal : request.checkGoal .default = .ok () := by decide +kernel
  obtain ⟨c, main, side, last, rest, -, -, hcalls, hbatches, -⟩ :=
    resolve_calls_in_batches true (p := ⟨[], 0⟩) ofSnapshot_cycleBranch
      (accepted_cycleRequest hgoal)
  have hlength : ((checked.completeClosure cycleUniverse.packageNames.size).calls
      cycleUniverse).length = 6 := by decide +kernel
  have hseed : (⟨"a"⟩ : PackageName) ∈ request.seedSet := by decide +kernel
  refine ⟨main, side, last, hcalls, by rwa [← hcalls], ?_, ?_⟩
  · exact (hbatches.length_le 3 true rfl).1
  · exact (hbatches.mem_members _).1 (hbatches.mem_of_mem_seeds _ hseed)

end Request.Accepted

end BuildPlan
