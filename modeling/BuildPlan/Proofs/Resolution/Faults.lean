import BuildPlan.Proofs.Resolution.Outcome

/-! # Whose fault a failure is

A universe that was made from a snapshot can answer every call about a scope that it knows. So there
are few reasons for a request to fail, and all of them lie with its caller.
-/
namespace BuildPlan

namespace Request

/-- What a caller can do wrong. -/
inductive Faulty (u : Universe) (config : Config) (r : Request) : Prop where
  | depth {depth : UInt32} {halfStep : Bool} (hgoal : r.goal = .build depth halfStep)
      (hrange : depth.toNat < 1 ∨ config.maxDepth.toNat < depth.toNat)
  | seeds (hblank : ∀ text ∈ r.seeds, Text.trim text = "")
  | filters (hconflict : r.filters.Conflicting)
  | blankBranch (hblank : Text.trim r.scope.branch = "")
  | unknownBranch (hunknown : u.branches[Text.lowerCase (Text.trim r.scope.branch)]? = none)
  | arch {text : String} (htext : text ∈ r.scope.archs)
      (harch : Arch.ofText? text = none ∨ Arch.ofText? text = some .src)
  | missingArch {scope : Scope} {index : BranchIndex} {a : Arch}
      (hscope : config.resolveScope r.scope.branch r.scope.archs r.scope.dependencyType =
        .ok scope)
      (hbranch : u.branches[scope.branch]? = some index)
      (hdeclared : index.declaredArchs.isEmpty = false) (ha : a ∈ scope.archs)
      (hne : a ≠ .noarch) (hmissing : a ∉ index.declaredArchs)
  | leaf {checked : CheckedRequest} {c : Closure} {text : String}
      (hcheck : r.check config = .ok checked)
      (hclosure : (checked.completeClosure u.packageNames.size).eval u = .ok c)
      (htext : r.filters.leaf = some text) (hne : Text.trim text ≠ "")
      (hmem : PackageName.ofText text ∉ c.members)

variable {u : Universe} {config : Config} {request : Request} {checked : CheckedRequest}

theorem checkGoal_eq_ok_iff : request.checkGoal config = .ok () ↔
    ∀ depth halfStep, request.goal = .build depth halfStep →
      1 ≤ depth.toNat ∧ depth.toNat ≤ config.maxDepth.toNat := by
  unfold checkGoal
  split
  · next depth halfStep hgoal =>
    rw [checkDepth_eq_ok_iff, hgoal]
    simp
  · next hgoal => simp [hgoal]

theorem exists_check_iff : (∃ checked, request.check config = .ok checked) ↔
    (∀ depth halfStep, request.goal = .build depth halfStep →
      1 ≤ depth.toNat ∧ depth.toNat ≤ config.maxDepth.toNat) ∧
    (∃ text ∈ request.seeds, Text.trim text ≠ "") ∧ ¬ request.filters.Conflicting ∧
    Text.trim request.scope.branch ≠ "" ∧
    ∀ text ∈ request.scope.archs, ∃ a, Arch.ofText? text = some a ∧ a ≠ .src := by
  rw [← checkGoal_eq_ok_iff, ← FilterRequest.isEmpty_packages_eq_false_iff,
    ← FilterRequest.exists_validate_iff, ← Config.exists_resolveScope_iff config
      request.scope.branch request.scope.archs request.scope.dependencyType]
  constructor
  · rintro ⟨checked, h⟩
    obtain ⟨hgoal, hseeds, filters, scope, hfilters, hscope, -⟩ := check_eq_ok_iff.1 h
    exact ⟨hgoal, hseeds, ⟨filters, hfilters⟩, scope, hscope⟩
  · rintro ⟨hgoal, hseeds, ⟨filters, hfilters⟩, scope, hscope⟩
    exact ⟨_, check_eq_ok_iff.2 ⟨hgoal, hseeds, filters, scope, hfilters, hscope, rfl⟩⟩

theorem faulty_of_check_eq_error {e : RequestError} (h : request.check config = .error e) :
    request.Faulty u config := by
  have hnone : ¬ ∃ checked, request.check config = .ok checked := by
    rintro ⟨checked, hok⟩
    rw [h] at hok
    cases hok
  by_contra hfault
  refine hnone (exists_check_iff.2 ⟨fun depth halfStep hgoal => ?_, ?_, fun hconflict => ?_,
    fun hblank => ?_, fun text htext => ?_⟩)
  · have := mt (Faulty.depth (u := u) hgoal) hfault
    omega
  · by_contra hblank
    exact hfault (.seeds fun text htext => by
      by_contra hne
      exact hblank ⟨text, htext, hne⟩)
  · exact hfault (.filters hconflict)
  · exact hfault (.blankBranch hblank)
  · by_contra harch
    refine hfault (.arch htext ?_)
    cases ha : Arch.ofText? text with
    | none => exact Or.inl rfl
    | some a =>
      refine Or.inr (congrArg some ?_)
      by_contra hne
      exact harch ⟨a, ha, hne⟩

/-- A request that passes its own checks is at fault if the universe does not know its scope, or if
its leaf is not in the closure. -/
theorem faulty_iff (h : request.check config = .ok checked) : request.Faulty u config ↔
    u.checkScope checked.scope ≠ .ok () ∨ ∃ leaf c, checked.filters.leaf = some leaf ∧
      (checked.completeClosure u.packageNames.size).eval u = .ok c ∧ leaf ∉ c.members := by
  obtain ⟨hgoal, hseeds, hfilters, hbranch, harchs⟩ := exists_check_iff.1 ⟨checked, h⟩
  obtain ⟨-, -, filters, scope, hvalid, hscope, hchecked⟩ := check_eq_ok_iff.1 h
  have hleaf : checked.filters.leaf = request.filters.leaf.bind PackageName.ofText? := by
    rw [hchecked, ← Except.ok.inj
      ((FilterRequest.validate_of_not_conflicting hfilters).symm.trans hvalid)]
  have hname := Config.branch_of_resolveScope hscope
  have hsame : checked.scope = scope := by rw [hchecked]
  rw [hsame, Ne, Universe.checkScope_eq_ok_iff]
  constructor
  · intro hfault
    cases hfault with
    | depth hgoal' hrange =>
      have := hgoal _ _ hgoal'
      omega
    | seeds hblank =>
      obtain ⟨text, htext, hne⟩ := hseeds
      exact absurd (hblank text htext) hne
    | filters hconflict => exact absurd hconflict hfilters
    | blankBranch hblank => exact absurd hblank hbranch
    | unknownBranch hunknown =>
      refine Or.inl ?_
      rintro ⟨index, hindex, -⟩
      rw [hname, hunknown] at hindex
      cases hindex
    | arch htext harch =>
      obtain ⟨a, ha, hne⟩ := harchs _ htext
      rw [ha] at harch
      rcases harch with harch | harch
      · cases harch
      · exact absurd (Option.some.inj harch) hne
    | missingArch hscope' hbranch' hdeclared ha hne hmissing =>
      refine Or.inl ?_
      rintro ⟨index, hindex, hnone⟩
      obtain rfl := Except.ok.inj (hscope.symm.trans hscope')
      obtain rfl := Option.some.inj (hbranch'.symm.trans hindex)
      exact hmissing (BranchIndex.missingArch?_eq_none_iff.1 hnone hdeclared _ ha hne)
    | leaf hcheck hclosure htext hne hmem =>
      obtain rfl := Except.ok.inj (h.symm.trans hcheck)
      exact Or.inr ⟨_, _, hleaf.trans
        (FilterRequest.bind_ofText?_eq_some_iff.2 ⟨_, htext, hne, rfl⟩), hclosure, hmem⟩
  · rintro (hunknown | ⟨leaf, c, hl, hclosure, hmem⟩)
    · cases hindex : u.branches[scope.branch]? with
      | none => exact .unknownBranch (hname ▸ hindex)
      | some index =>
        have hmissing : ¬ index.missingArch? scope = none := fun hnone =>
          hunknown ⟨index, hindex, hnone⟩
        rw [BranchIndex.missingArch?_eq_none_iff] at hmissing
        push Not at hmissing
        obtain ⟨hdeclared, a, ha, hne, hmissing⟩ := hmissing
        exact .missingArch hscope hindex hdeclared ha hne hmissing
    · obtain ⟨text, htext, hne, rfl⟩ :=
        FilterRequest.bind_ofText?_eq_some_iff.1 (hleaf.symm.trans hl)
      exact .leaf h hclosure htext hne hmem

end Request

theorem CheckedRequest.eval_program_of_checkScope_eq_error {u : Universe} {r : CheckedRequest}
    {e : UniverseError} (h : u.checkScope r.scope = .error e) (resolver : Resolver) :
    (r.program resolver).eval u = .error (.ofScopeError e) := by
  rw [program, Program.eval_bind, Program.eval_call, Universe.reply, Universe.answer, h]
  rfl

theorem CheckedRequest.eval_program_of_checkScope_ne {u : Universe} {r : CheckedRequest}
    (h : u.checkScope r.scope ≠ .ok ()) (resolver : Resolver) :
    ∃ error, (r.program resolver).eval u = .error (.invalid error) := by
  cases hscope : u.checkScope r.scope with
  | ok _ => exact absurd hscope h
  | error e =>
    obtain ⟨error, herror⟩ := Universe.ofScopeError_of_checkScope hscope
    rw [eval_program_of_checkScope_eq_error hscope, herror]
    exact ⟨error, rfl⟩

namespace Request

variable {u : Universe} {config : Config} {request : Request} {p : Progress} {world : World}
  {skipDebuginfo : Bool} {s : Snapshot}

theorem eval_program_of_check (hu : Universe.ofSnapshot skipDebuginfo s = .ok u)
    {checked : CheckedRequest} (hcheck : request.check config = .ok checked) (withAcl : Bool) :
    (request.Faulty u config ∧ ∃ error,
        (checked.program (.ofUniverse u config withAcl)).eval u = .error (.invalid error)) ∨
      (¬ request.Faulty u config ∧ ∃ result,
        (checked.program (.ofUniverse u config withAcl)).eval u = .ok result) := by
  rw [faulty_iff hcheck]
  by_cases hscope : u.checkScope checked.scope = .ok ()
  · obtain ⟨index, c, hfinds⟩ := CheckedRequest.exists_finds hscope u.packageNames.size
    by_cases hleaf : ∀ leaf, checked.filters.leaf = some leaf → leaf ∈ c.members
    · refine Or.inr ⟨?_, ?_⟩
      · rintro (hne | ⟨leaf, c', hl, hclosure, hmem⟩)
        · exact hne hscope
        · obtain rfl := Except.ok.inj (hfinds.eval_completeClosure.symm.trans hclosure)
          exact hmem (hleaf leaf hl)
      · obtain ⟨_, _, -, heval⟩ := hfinds.exists_emits (.ofUniverse u config withAcl) hu hleaf
        exact ⟨_, heval⟩
    · push Not at hleaf
      obtain ⟨leaf, hl, hmem⟩ := hleaf
      exact Or.inl ⟨Or.inr ⟨leaf, _, hl, hfinds.eval_completeClosure, hmem⟩, _,
        hfinds.eval_program_of_leaf_notMem (.ofUniverse u config withAcl) hl hmem⟩
  · exact Or.inl ⟨Or.inl hscope, CheckedRequest.eval_program_of_checkScope_ne hscope _⟩

theorem resolve_ends (withAcl : Bool) (hu : Universe.ofSnapshot skipDebuginfo s = .ok u)
    (hworld : world.Follows u)
    (htime : ∀ allowed, ((Resolver.ofUniverse u config withAcl).resolve world request p).1 ≠
      .failed (.timeout allowed)) :
    ((Resolver.ofUniverse u config withAcl).resolve world request p).1 = .panicked ∨
      (request.Faulty u config ∧ ∃ error,
        ((Resolver.ofUniverse u config withAcl).resolve world request p).1 =
          .failed (.invalid error)) ∨
      (¬ request.Faulty u config ∧ ∃ result,
        ((Resolver.ofUniverse u config withAcl).resolve world request p).1 =
          .resolved result) := by
  cases hcheck : request.check config with
  | error e =>
    exact Or.inr (Or.inl ⟨faulty_of_check_eq_error hcheck, e,
      congrArg Prod.fst (Resolver.resolve_of_check_eq_error hcheck world)⟩)
  | ok checked =>
    cases hstart : Allowance.start? p.now request.deadline config.accessorTimeout with
    | none =>
      exact Or.inl (congrArg Prod.fst (Resolver.resolve_of_start_eq_none hcheck hstart world))
    | some allowance =>
      rcases Resolver.resolve_of_follows (.ofUniverse u config withAcl) hcheck hstart hworld with
        hrun | htimeout | hpanic
      · rw [hrun]
        refine Or.inr ((eval_program_of_check hu hcheck withAcl).imp ?_ ?_)
        · rintro ⟨hfault, error, heval⟩
          exact ⟨hfault, error, by rw [heval]; rfl⟩
        · rintro ⟨hfault, result, heval⟩
          exact ⟨hfault, result, by rw [heval]; rfl⟩
      · exact absurd htimeout (htime _)
      · exact Or.inl hpanic

/-- A request that is answered in time fails just if its caller is at fault, and then it is told so.
One that panics has passed its checks, and either its deadline lies beyond the end of the clock or
no timer could be set for a call. -/
theorem resolve_failed_iff_faulty (withAcl : Bool)
    (hu : Universe.ofSnapshot skipDebuginfo s = .ok u) (hworld : world.Follows u)
    (htime : ∀ allowed, ((Resolver.ofUniverse u config withAcl).resolve world request p).1 ≠
      .failed (.timeout allowed)) :
    let run := (Resolver.ofUniverse u config withAcl).resolve world request p
    let start := Allowance.start? p.now request.deadline config.accessorTimeout
    (∀ e, run.1 = .failed e → ∃ error, e = .invalid error) ∧
      (run.1 = .panicked → (∃ checked, request.check config = .ok checked) ∧
        (start = none ∨
          ∃ allowance, start = some allowance ∧ allowance.Fails world p run.2.past)) ∧
      ((∃ checked, request.check config = .ok checked) → start = none → run.1 = .panicked) ∧
      (run.1 ≠ .panicked → ((∃ e, run.1 = .failed e) ↔ request.Faulty u config) ∧
        ((∃ result, run.1 = .resolved result) ↔ ¬ request.Faulty u config)) := by
  intro run start
  refine ⟨fun e he => ?_, Resolver.fails_of_resolve_eq_panicked, ?_, fun hne => ?_⟩
  · rcases resolve_ends withAcl hu hworld htime with
      hend | ⟨-, error, hend⟩ | ⟨-, result, hend⟩
    · cases he.symm.trans hend
    · exact ⟨error, Outcome.failed.inj (he.symm.trans hend)⟩
    · cases he.symm.trans hend
  · rintro ⟨checked, hcheck⟩ hstart
    exact congrArg Prod.fst (Resolver.resolve_of_start_eq_none hcheck hstart world)
  · rcases resolve_ends withAcl hu hworld htime with
      hend | ⟨hfault, error, hend⟩ | ⟨hfault, result, hend⟩
    · exact absurd hend hne
    · simp [run, hend, hfault]
    · simp [run, hend, hfault]

/-- A request for a branch that does not exist is at fault; the one for the branch of the small
universe is not. -/
theorem resolve_failed_iff_faulty_cycle :
    Faulty cycleUniverse .default
        { cycleRequest .full with scope := ⟨"p10", [], .both⟩ } ∧
      ¬ (cycleRequest .full).Faulty cycleUniverse .default := by
  constructor
  · have hend : ((Resolver.ofUniverse cycleUniverse .default true).resolve cycleUniverse.world
        { cycleRequest .full with scope := ⟨"p10", [], .both⟩ } ⟨[], 0⟩).1 =
          .failed (.invalid (.unknownBranch "p10")) := by decide +kernel
    obtain ⟨-, -, -, h⟩ := resolve_failed_iff_faulty true ofSnapshot_cycleBranch
      cycleUniverse.follows_world fun _ htimeout => by cases hend.symm.trans htimeout
    exact (h (by simp [hend])).1.1 ⟨_, hend⟩
  · have haccepted : (cycleRequest .full).Accepted cycleUniverse .default 0 _ :=
      accepted_cycleRequest rfl
    obtain ⟨result, _, hend, -⟩ := haccepted.exists_resolved
      (.ofUniverse cycleUniverse .default true) (p := ⟨[], 0⟩) ofSnapshot_cycleBranch rfl
    obtain ⟨-, -, -, h⟩ := resolve_failed_iff_faulty true ofSnapshot_cycleBranch
      cycleUniverse.follows_world fun _ htimeout => by cases hend.symm.trans htimeout
    exact (h (by simp [hend])).2.1 ⟨_, hend⟩

end Request

end BuildPlan
