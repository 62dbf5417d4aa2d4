import BuildPlan.Proofs.Closure.Facts
import BuildPlan.Proofs.Resolution.Filters
import BuildPlan.Proofs.Resolution.Program
import BuildPlan.Proofs.Session.Clock
import BuildPlan.Proofs.Session.Delay

/-! # How a request ends

Whatever its goal, a request whose scope is known finds the closure of its seeds. Then it fails if
its leaf is not in the closure, and otherwise it is resolved with what its filters keep.
-/
namespace BuildPlan

namespace CheckedRequest

variable {u : Universe} {index : BranchIndex} {r : CheckedRequest} {c : Closure} {horizon : Nat}

/-! ### The closure of a request -/

/-- How the closure of a request grows. -/
def expansion (r : CheckedRequest) : Expansion :=
  match r.goal with
  | .build _ halfStep => .build r.scope halfStep
  | .full => .full r.scope

/-- For how many rounds it grows. -/
def rounds (r : CheckedRequest) (horizon : Nat) : Nat :=
  match r.goal with
  | .build _ true => halfStepDepth - 1
  | .build depth false => depth.toNat - 1
  | .full => horizon + 1

theorem rounds_of_full {r : CheckedRequest} (h : r.goal = .full) (horizon : Nat) :
    r.rounds horizon = horizon + 1 := by
  rw [rounds, h]

theorem closure_eq (r : CheckedRequest) (horizon : Nat) :
    r.closure horizon = r.expansion.closure (r.rounds horizon) r.seeds := by
  obtain ⟨⟨depth, _ | _⟩ | _, seeds, scope, filters⟩ := r <;> rfl

@[simp] theorem scope_expansion : r.expansion.scope = r.scope := by
  obtain ⟨_ | _, seeds, scope, filters⟩ := r <;> rfl

@[simp] theorem asSource_expansion : r.expansion.asSource = r.asSource := by
  obtain ⟨_ | _, seeds, scope, filters⟩ := r <;> rfl

@[simp] theorem reading_expansion : r.expansion.reading = r.reading := by
  obtain ⟨_ | _, seeds, scope, filters⟩ := r <;> rfl

theorem seedReading_expansion (r : CheckedRequest) :
    r.expansion.seedReading = r.expansion.reading ∨
      r.expansion.seedReading = .either ∧ r.expansion.reading = .binary := by
  obtain ⟨_ | _, seeds, scope, filters⟩ := r
  · exact Or.inl rfl
  · exact Or.inr ⟨rfl, rfl⟩

theorem halfStep_expansion (hgoal : ∀ depth, r.goal ≠ .build depth true) :
    r.expansion.halfStep = false := by
  obtain ⟨⟨depth, _ | _⟩ | _, seeds, scope, filters⟩ := r
  · rfl
  · exact absurd rfl (hgoal depth)
  · rfl

/-- How the name of a member is read. -/
def readingOf (r : CheckedRequest) (n : PackageName) : NameReading :=
  if r.asSource then .source else if n ∈ r.seeds then .either else .binary

@[simp] theorem readingOf_expansion : r.expansion.readingOf r.seeds = r.readingOf := by
  funext n
  obtain ⟨_ | _, seeds, scope, filters⟩ := r
  · exact ite_self _
  · rfl

theorem rounds_pos_or (r : CheckedRequest) (horizon : Nat) :
    0 < r.rounds horizon ∨ r.expansion.seedReading = r.expansion.reading := by
  obtain ⟨_ | _, seeds, scope, filters⟩ := r
  · exact Or.inr rfl
  · exact Or.inl (Nat.succ_pos horizon)

/-- What a request finds in a universe that knows its scope. -/
structure Finds (r : CheckedRequest) (u : Universe) (horizon : Nat) (index : BranchIndex)
    (c : Closure) : Prop where
  checkScope_eq : u.checkScope r.scope = .ok ()
  branch_eq : u.branch r.scope.branch = .ok index
  eval_closure : (r.closure horizon).eval u = .ok c
  grown : r.expansion.Grown index r.seeds c

theorem exists_finds (h : u.checkScope r.scope = .ok ()) (horizon : Nat) :
    ∃ index c, r.Finds u horizon index c := by
  obtain ⟨index, hbranch⟩ := Universe.exists_branch_of_checkScope h
  obtain ⟨c, heval, hgrown⟩ := Expansion.exists_grown (by rwa [scope_expansion])
    (r.rounds_pos_or horizon) r.seeds
  exact ⟨index, c, h, hbranch, by rwa [closure_eq], hgrown⟩

theorem mem_nodes_graph {n : PackageName} : n ∈ (r.graph index c).nodes ↔ n ∈ c.members :=
  Closure.mem_nodes_graph

namespace Finds

variable (h : r.Finds u horizon index c)
include h

theorem index_unique {r' : CheckedRequest} {index' : BranchIndex} {c' : Closure} {horizon' : Nat}
    (h' : r'.Finds u horizon' index' c') (hbranch : r'.scope.branch = r.scope.branch) :
    index = index' := by
  have hindex := h'.branch_eq
  rw [hbranch, h.branch_eq] at hindex
  exact Except.ok.inj hindex

theorem eval_completeClosure :
    (r.completeClosure horizon).eval u = .ok (r.completed index c) :=
  CheckedRequest.eval_completeClosure h.branch_eq h.eval_closure

theorem mem_discovered {n : PackageName} : n ∈ c.discovered ↔ n ∈ c.members ∧ n ∉ r.seeds := by
  rw [Closure.discovered, Std.ExtTreeSet.mem_diff_iff, h.grown.seeds_eq]

theorem requires_graph {n m : PackageName} : (r.graph index c).Requires n m ↔
    n ∈ c.members ∧ m ∈ c.members ∧ n ≠ m ∧ u.Needs r.scope (r.readingOf n) r.asSource n m := by
  have hknows := h.grown.knows
  have hreading := h.grown.reading_eq
  simp only [scope_expansion, asSource_expansion, reading_expansion, readingOf_expansion]
    at hknows hreading
  rw [graph, completed, hknows.requires_graph_completed hreading, Universe.needs_iff h.branch_eq]

theorem isSome_describeName? {skipDebuginfo : Bool} {s : Snapshot}
    (hu : Universe.ofSnapshot skipDebuginfo s = .ok u) {n : PackageName} (hn : n ∈ c.discovered) :
    (index.describeName? r.scope r.asSource n).isSome = true := by
  obtain ⟨hmem, hseed⟩ := h.mem_discovered.1 hn
  obtain ⟨m, hneeds⟩ := h.grown.exists_leads n hmem hseed
  simp only [Expansion.Leads, scope_expansion, asSource_expansion] at hneeds
  exact (((Universe.needs_iff h.branch_eq).2 hneeds).exists_package hu h.branch_eq).2

/-! ### Closures with the same levels -/

section SameLevels

variable {r' : CheckedRequest} {c' : Closure} {horizon' : Nat} (h' : r'.Finds u horizon' index c')
  (hscope : r'.scope = r.scope) (hsource : r'.asSource = r.asSource) (hseeds : r'.seeds = r.seeds)
  (hlevels : ∀ n : PackageName, c.levels[n]? = c'.levels[n]?)
include h' hseeds hlevels

theorem discovered_eq : c.discovered = c'.discovered := by
  apply Std.ExtTreeSet.ext_mem
  intro n
  rw [h.mem_discovered, h'.mem_discovered, Closure.mem_members, Closure.mem_members, hlevels,
    hseeds]

include hscope hsource

theorem graph_eq : r.graph index c = r'.graph index c' := by
  have hmembers : ∀ n, n ∈ c.members ↔ n ∈ c'.members := by
    intro n
    rw [Closure.mem_members, Closure.mem_members, hlevels]
  apply Graph.eq_of_requires
  · intro n
    rw [mem_nodes_graph, mem_nodes_graph, hmembers]
  · funext n m
    apply propext
    rw [h.requires_graph, h'.requires_graph, hmembers, hmembers, readingOf, readingOf, hscope,
      hsource, hseeds]

theorem records_eq (kept : PackageSet) : r.records index c kept = r'.records index c' kept := by
  have hgraph := h.graph_eq h' hscope hsource hseeds hlevels
  have hrecord : r.recordOf index c kept = r'.recordOf index c' kept := by
    funext n
    have hlevel : (r.completed index c).level? n = (r'.completed index c').level? n := hlevels n
    unfold recordOf record
    rw [hgraph, hlevel, hscope, hsource]
  rw [records, records, hrecord, hgraph]

end SameLevels

end Finds

/-! ### The end of the program -/

/-- The records of what the filters of a request keep. -/
structure Emits (r : CheckedRequest) (index : BranchIndex) (c : Closure) (kept : PackageSet)
    (packages : List ResolvedPackage) : Prop where
  mem_kept : ∀ n, n ∈ kept ↔ n ∈ c.discovered ∧
    r.filters.Keeps index r.scope r.reading (r.graph index c) c.discovered n
  records_eq : r.records index c kept = .ok packages

namespace Emits

variable {kept : PackageSet} {packages : List ResolvedPackage} (h : r.Emits index c kept packages)
include h

theorem mem_discovered {n : PackageName} (hn : n ∈ kept) : n ∈ c.discovered :=
  ((h.mem_kept n).1 hn).1

theorem kept_eq (hfilters : r.filters.isActive = false) : kept = c.discovered := by
  apply Std.ExtTreeSet.ext_mem
  intro n
  rw [h.mem_kept]
  exact and_iff_left (Filters.keeps_of_not_isActive hfilters)

theorem mem_members {n : PackageName} (hn : n ∈ kept) : n ∈ c.members :=
  Closure.mem_members.2 (Closure.mem_discovered.1 (h.mem_discovered hn)).1

theorem mem_names_annotated (withAcl : Bool) {n : PackageName} :
    n ∈ (annotated index withAcl packages).map (·.name) ↔ n ∈ kept :=
  CheckedRequest.mem_names_annotated h.records_eq withAcl fun _ => h.mem_members

theorem level_eq {withAcl : Bool} {q : ResolvedPackage}
    (hq : q ∈ annotated index withAcl packages) : c.levels[q.name]? = some q.depth :=
  level_of_mem_annotated h.records_eq (fun _ => h.mem_members) hq

end Emits

namespace Finds

variable (resolver : Resolver) (h : r.Finds u resolver.horizon index c)
include h

theorem eval_program_of_leaf_notMem {leaf : PackageName} (hleaf : r.filters.leaf = some leaf)
    (hmem : leaf ∉ c.members) :
    (r.program resolver).eval u = .error (.invalid (.leafNotInClosure leaf)) := by
  rw [eval_program_eq_bind resolver h.checkScope_eq h.branch_eq h.eval_closure,
    Filters.eval_kept_of_leaf_notMem u r.filters hleaf (mt mem_nodes_graph.1 hmem)]
  rfl

theorem exists_kept (hleaf : ∀ leaf, r.filters.leaf = some leaf → leaf ∈ c.members) :
    ∃ kept : PackageSet,
      (∀ n, n ∈ kept ↔ n ∈ c.discovered ∧
        r.filters.Keeps index r.scope r.reading (r.graph index c) c.discovered n) ∧
      (r.program resolver).eval u = r.records index c kept >>= fun packages =>
        .ok ⟨r.scope.branch, annotated index resolver.withAcl packages⟩ := by
  obtain ⟨kept, heval, hkept⟩ := Filters.exists_eval_kept h.branch_eq r.filters
    fun leaf hl => mem_nodes_graph.2 (hleaf leaf hl)
  refine ⟨kept, hkept, ?_⟩
  rw [eval_program_eq_bind resolver h.checkScope_eq h.branch_eq h.eval_closure, heval, ok_bind]

theorem exists_emits_of_eval {result : Resolution}
    (heval : (r.program resolver).eval u = .ok result) :
    ∃ kept packages, r.Emits index c kept packages ∧
      result = ⟨r.scope.branch, annotated index resolver.withAcl packages⟩ := by
  have hleaf : ∀ leaf, r.filters.leaf = some leaf → leaf ∈ c.members := by
    intro leaf hl
    by_contra hmem
    rw [h.eval_program_of_leaf_notMem resolver hl hmem] at heval
    cases heval
  obtain ⟨kept, hkept, heq⟩ := h.exists_kept resolver hleaf
  obtain ⟨packages, hpackages, hresult⟩ := bind_eq_ok_iff.1 (heq ▸ heval)
  exact ⟨kept, packages, ⟨hkept, hpackages⟩, (Except.ok.inj hresult).symm⟩

theorem exists_emits {skipDebuginfo : Bool} {s : Snapshot}
    (hu : Universe.ofSnapshot skipDebuginfo s = .ok u)
    (hleaf : ∀ leaf, r.filters.leaf = some leaf → leaf ∈ c.members) :
    ∃ kept packages, r.Emits index c kept packages ∧ (r.program resolver).eval u =
      .ok ⟨r.scope.branch, annotated index resolver.withAcl packages⟩ := by
  obtain ⟨kept, hkept, heq⟩ := h.exists_kept resolver hleaf
  obtain ⟨packages, hpackages⟩ : ∃ packages, r.records index c kept = .ok packages :=
    exists_records fun n hn => h.isSome_describeName? hu ((hkept n).1 hn).1
  exact ⟨kept, packages, ⟨hkept, hpackages⟩, by rw [heq, hpackages, ok_bind]⟩

end Finds

end CheckedRequest

/-! ### The end of the run -/

def Outcome.ofResult : Except ResolveError Resolution → Outcome
  | .ok result => .resolved result
  | .error e => .failed e

theorem Outcome.ofResult_eq_resolved_iff {ending : Except ResolveError Resolution}
    {result : Resolution} : ofResult ending = .resolved result ↔ ending = .ok result := by
  cases ending <;> simp [ofResult]

theorem Outcome.ofRun_eq_panicked_iff {ending : Except Stop Resolution} :
    ofRun ending = .panicked ↔ ending = .error .panicked := by
  rcases ending with (_ | _) | _ <;> simp [ofRun]

@[simp] theorem Outcome.ofRun_mapError (ending : Except ResolveError Resolution) :
    ofRun (ending.mapError .failed) = ofResult ending := by
  cases ending <;> rfl

theorem CheckedRequest.checkScope_of_eval_program {u : Universe} {r : CheckedRequest}
    {resolver : Resolver} {result : Resolution} (h : (r.program resolver).eval u = .ok result) :
    u.checkScope r.scope = .ok () := by
  rw [program, Program.eval_bind] at h
  obtain ⟨_, hcall, -⟩ := bind_eq_ok_iff.1 h
  rw [Program.eval_call, Universe.reply, Universe.answer] at hcall
  cases hscope : u.checkScope r.scope with
  | ok _ => rfl
  | error e => rw [hscope] at hcall; cases hcall

namespace Resolver

variable {resolver : Resolver} {request : Request} {checked : CheckedRequest} {p : Progress}

theorem resolve_of_check_eq_error {e : RequestError} (h : request.check resolver.config = .error e)
    (world : World) : resolver.resolve world request p = (.failed (.invalid e), p) := by
  rw [resolve, h]

theorem resolve_of_start_eq_none (h : request.check resolver.config = .ok checked)
    (hstart : Allowance.start? p.now request.deadline resolver.config.accessorTimeout = none)
    (world : World) : resolver.resolve world request p = (.panicked, p) := by
  rw [resolve, h]
  simp only [hstart]

theorem resolve_eq_of_start (h : request.check resolver.config = .ok checked)
    {allowance : Allowance}
    (hstart : Allowance.start? p.now request.deadline resolver.config.accessorTimeout =
      some allowance) (world : World) :
    resolver.resolve world request p =
      (.ofRun ((checked.program resolver).run world allowance p).1,
        ((checked.program resolver).run world allowance p).2) := by
  rw [resolve, h]
  simp only [hstart]

theorem resolve_of_start_eq_some (h : request.check resolver.config = .ok checked)
    {allowance : Allowance}
    (hstart : Allowance.start? p.now request.deadline resolver.config.accessorTimeout =
      some allowance) (world : World) :
    (resolver.resolve world request p).1 =
      .ofRun ((checked.program resolver).run world allowance p).1 := by
  rw [resolve_eq_of_start h hstart]

/-- A request panics if its deadline lies beyond the end of the clock, or if it has to wait for a
call and no timer can be set. -/
theorem fails_of_resolve_eq_panicked {world : World}
    (h : (resolver.resolve world request p).1 = .panicked) :
    (∃ checked, request.check resolver.config = .ok checked) ∧
      (Allowance.start? p.now request.deadline resolver.config.accessorTimeout = none ∨
        ∃ allowance, Allowance.start? p.now request.deadline resolver.config.accessorTimeout =
          some allowance ∧
        allowance.Fails world p (resolver.resolve world request p).2.past) := by
  cases hcheck : request.check resolver.config with
  | error e =>
    rw [resolve_of_check_eq_error hcheck] at h
    cases h
  | ok checked =>
    refine ⟨⟨checked, rfl⟩, ?_⟩
    cases hstart : Allowance.start? p.now request.deadline resolver.config.accessorTimeout with
    | none => exact Or.inl rfl
    | some allowance =>
      rw [resolve_eq_of_start hcheck hstart] at h ⊢
      exact Or.inr ⟨allowance, rfl, ((checked.program resolver).run_panics world allowance p).2
        (Outcome.ofRun_eq_panicked_iff.1 h)⟩

theorem resolve_withGoal {goal goal' : Goal}
    (h : { request with goal }.checkGoal resolver.config = .ok ())
    (h' : { request with goal := goal' }.checkGoal resolver.config = .ok ())
    (hprogram : ∀ r : CheckedRequest, r.goal = goal →
      CheckedRequest.program { r with goal := goal' } resolver = r.program resolver)
    (world : World) (p : Progress) :
    resolver.resolve world { request with goal := goal' } p =
      resolver.resolve world { request with goal } p := by
  have hcheck := Request.check_withGoal h h'
  cases hchecked : { request with goal }.check resolver.config with
  | error e =>
    rw [hchecked] at hcheck
    rw [resolve_of_check_eq_error hchecked, resolve_of_check_eq_error hcheck]
  | ok checked =>
    rw [hchecked] at hcheck
    obtain ⟨-, -, _, _, -, -, rfl⟩ := Request.check_eq_ok_iff.1 hchecked
    cases hstart : Allowance.start? p.now request.deadline resolver.config.accessorTimeout with
    | none => rw [resolve_of_start_eq_none hchecked hstart, resolve_of_start_eq_none hcheck hstart]
    | some allowance =>
      rw [resolve_eq_of_start hchecked hstart, resolve_eq_of_start hcheck hstart, hprogram _ rfl]

/-- A request that is run ends as its program does over the universe, or because of the time. -/
theorem resolve_of_follows (resolver : Resolver) {u : Universe}
    (h : request.check resolver.config = .ok checked)
    {allowance : Allowance}
    (hstart : Allowance.start? p.now request.deadline resolver.config.accessorTimeout =
      some allowance) {world : World} (hworld : world.Follows u) :
    (resolver.resolve world request p).1 = .ofResult ((checked.program resolver).eval u) ∨
      (resolver.resolve world request p).1 = .failed (.timeout allowance.allowed) ∨
      (resolver.resolve world request p).1 = .panicked := by
  rw [resolve_of_start_eq_some h hstart]
  rcases hworld.run allowance (checked.program resolver) p with hrun | ⟨stop, hstop, htime⟩
  · exact Or.inl (by rw [hrun, Outcome.ofRun_mapError])
  · rw [hstop]
    cases htime with
    | timeout => exact Or.inr (Or.inl rfl)
    | panicked => exact Or.inr (Or.inr rfl)

/-- Over a universe every accepted request is run, and every result comes from one. -/
theorem resolve_world (resolver : Resolver) {u : Universe}
    (h : request.Accepted u resolver.config p.now checked) :
    (resolver.resolve u.world request p).1 = .ofResult ((checked.program resolver).eval u) := by
  obtain ⟨allowance, hstart⟩ := Option.isSome_iff_exists.1 h.starts
  rw [resolve_of_start_eq_some h.check_eq hstart, Program.run_world, Outcome.ofRun_mapError]

theorem accepted_of_resolve {u : Universe} {result : Resolution}
    (h : (resolver.resolve u.world request p).1 = .resolved result) :
    ∃ checked, request.Accepted u resolver.config p.now checked ∧
      (checked.program resolver).eval u = .ok result := by
  cases hcheck : request.check resolver.config with
  | error e =>
    rw [resolve_of_check_eq_error hcheck] at h
    cases h
  | ok checked =>
    cases hstart : Allowance.start? p.now request.deadline resolver.config.accessorTimeout with
    | none =>
      rw [resolve_of_start_eq_none hcheck hstart] at h
      cases h
    | some allowance =>
      rw [resolve_of_start_eq_some hcheck hstart, Program.run_world, Outcome.ofRun_mapError,
        Outcome.ofResult_eq_resolved_iff] at h
      have hscope := CheckedRequest.checkScope_of_eval_program h
      exact ⟨checked, ⟨hcheck, by rw [hstart]; rfl, hscope⟩, h⟩

/-- Every result shows what the filters of an accepted request have kept of its closure. -/
theorem exists_emits_of_resolve {u : Universe} {result : Resolution}
    (h : (resolver.resolve u.world request p).1 = .resolved result) :
    ∃ checked index c kept packages, request.Accepted u resolver.config p.now checked ∧
      checked.Finds u resolver.horizon index c ∧ checked.Emits index c kept packages ∧
      result = ⟨checked.scope.branch,
        CheckedRequest.annotated index resolver.withAcl packages⟩ := by
  obtain ⟨checked, haccepted, heval⟩ := accepted_of_resolve h
  obtain ⟨index, c, hfinds⟩ :=
    CheckedRequest.exists_finds haccepted.checkScope_eq resolver.horizon
  obtain ⟨kept, packages, hemits, hresult⟩ := hfinds.exists_emits_of_eval resolver heval
  exact ⟨checked, index, c, kept, packages, haccepted, hfinds, hemits, hresult⟩

end Resolver

/-- Without filters an accepted request is resolved with all that it finds, each package at the
level at which it was found. -/
theorem Request.Accepted.exists_resolved (resolver : Resolver) {u : Universe}
    {skipDebuginfo : Bool} {s : Snapshot} {request : Request} {checked : CheckedRequest}
    {p : Progress} (hu : Universe.ofSnapshot skipDebuginfo s = .ok u)
    (h : request.Accepted u resolver.config p.now checked)
    (hfilters : checked.filters.isActive = false) : ∃ result c,
    (resolver.resolve u.world request p).1 = .resolved result ∧
      (checked.completeClosure resolver.horizon).eval u = .ok c ∧ result.names.Nodup ∧
      (∀ n, n ∈ result.names ↔ n ∈ c.discovered) ∧
      ∀ q ∈ result.packages, c.level? q.name = some q.depth := by
  obtain ⟨index, c, hfinds⟩ := CheckedRequest.exists_finds h.checkScope_eq resolver.horizon
  have hleaf : ∀ leaf, checked.filters.leaf = some leaf → leaf ∈ c.members := by
    intro leaf hl
    simp [Filters.isActive, hl] at hfilters
  obtain ⟨kept, packages, hemits, heval⟩ := hfinds.exists_emits resolver hu hleaf
  have hresolve : (resolver.resolve u.world request p).1 = .resolved ⟨checked.scope.branch,
      CheckedRequest.annotated index resolver.withAcl packages⟩ := by
    rw [Resolver.resolve_world resolver h, heval]
    rfl
  refine ⟨_, _, hresolve, hfinds.eval_completeClosure, ?_, fun n => ?_, fun q hq => ?_⟩
  · rw [Resolution.names, (CheckedRequest.annotated_records hemits.records_eq _).1]
    exact (Graph.nodup_order_sort _).filter _
  · obtain rfl := hemits.kept_eq hfilters
    exact hemits.mem_names_annotated _
  · exact hemits.level_eq hq

theorem Request.Accepted.exists_record_of_eval (resolver : Resolver) {u : Universe}
    {skipDebuginfo : Bool} {s : Snapshot} {request : Request} {checked : CheckedRequest}
    {p : Progress} (hu : Universe.ofSnapshot skipDebuginfo s = .ok u)
    (h : request.Accepted u resolver.config p.now checked)
    (hfilters : checked.filters.isActive = false) {n : PackageName} {k : Nat}
    (heval : ((checked.completeClosure resolver.horizon).eval u).map
      (fun c => (c.discovered.contains n, c.level? n)) = .ok (true, some k)) :
    ∃ result, (resolver.resolve u.world request p).1 = .resolved result ∧
      ∃ q ∈ result.packages, q.name = n ∧ q.depth = k := by
  obtain ⟨result, c, hresolve, hclosure, -, hnames, hlevel⟩ :=
    h.exists_resolved resolver hu hfilters
  have hshown := eq_of_map_eq_ok hclosure heval
  obtain ⟨hfound, hk⟩ := Prod.mk.inj hshown
  obtain ⟨q, hq, rfl⟩ :=
    List.mem_map.1 ((hnames n).2 (Std.ExtTreeSet.contains_iff_mem.1 hfound))
  have hdepth := hlevel q hq
  rw [hk] at hdepth
  exact ⟨result, hresolve, q, hq, rfl, (Option.some.inj hdepth).symm⟩

/-- In the small universe a full closure from `a` finds the package that provides `c`. -/
theorem exists_resolved_cycleRequest : ∃ result,
    ((Resolver.ofUniverse cycleUniverse .default true).resolve cycleUniverse.world
      (cycleRequest .full) ⟨[], 0⟩).1 = .resolved result ∧ ⟨"libc"⟩ ∈ result.names := by
  have haccepted : (cycleRequest .full).Accepted cycleUniverse .default 0 _ :=
    accepted_cycleRequest rfl
  obtain ⟨result, hresolve, q, hq, hname, -⟩ :=
    haccepted.exists_record_of_eval (.ofUniverse cycleUniverse .default true) (p := ⟨[], 0⟩)
      ofSnapshot_cycleBranch rfl (n := ⟨"libc"⟩) (k := 2) (by decide +kernel)
  exact ⟨result, hresolve, hname ▸ List.mem_map_of_mem hq⟩

theorem Request.Accepted.depth_ne_of_eval (resolver : Resolver) {u : Universe}
    {skipDebuginfo : Bool} {s : Snapshot} {request : Request} {checked : CheckedRequest}
    {p : Progress} (hu : Universe.ofSnapshot skipDebuginfo s = .ok u)
    (h : request.Accepted u resolver.config p.now checked)
    (hfilters : checked.filters.isActive = false) {k : Nat}
    (heval : ((checked.completeClosure resolver.horizon).eval u).map
      (·.levels.toList.all fun level => level.2 != k) = .ok true)
    {result : Resolution} (hresolve : (resolver.resolve u.world request p).1 = .resolved result) :
    ∀ q ∈ result.packages, q.depth ≠ k := by
  obtain ⟨result', c, hresolve', hclosure, -, -, hlevel⟩ :=
    h.exists_resolved resolver hu hfilters
  obtain rfl : result' = result := Outcome.resolved.inj (hresolve'.symm.trans hresolve)
  have hall : (c.levels.toList.all fun level => level.2 != k) = true :=
    eq_of_map_eq_ok (f := fun c => c.levels.toList.all fun level => level.2 != k) hclosure heval
  have hshown := List.all_eq_true.1 hall
  intro q hq
  have hmem := Std.ExtTreeMap.mem_toList_iff_getElem?_eq_some.2 (hlevel q hq)
  exact bne_iff_ne.1 (hshown _ hmem)

end BuildPlan
