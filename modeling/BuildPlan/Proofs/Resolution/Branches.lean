import BuildPlan.Proofs.Resolution.Calls
import BuildPlan.Proofs.Resolution.Faults
import BuildPlan.Proofs.Universe.Records

/-! # Which branch answers

A branch goes by its name in lower case, and a request for a branch by the same without the blanks
at its ends. All that a request is told comes from the branch that it reaches in this way. A branch
with a blank at an end of its name is not reached by it, and neither is one that a later branch
shares its lower-case name with.
-/
namespace BuildPlan

def Call.branch : Call → String
  | checkScope scope => scope.branch
  | requirementsOf _ _ scope => scope.branch
  | providersOf _ scope _ => scope.branch
  | binariesOf _ scope => scope.branch
  | describe _ scope _ => scope.branch
  | aclOf _ branch => branch

theorem Call.Concerns.branch_eq {scope : Scope} {c : Call} (h : c.Concerns scope) :
    c.branch = scope.branch := by
  cases h <;> rfl

theorem Universe.answer_congr {u u' : Universe} {c : Call}
    (h : u.branches[c.branch]? = u'.branches[c.branch]?) : u.answer c = u'.answer c := by
  have hbranch : u.branch c.branch = u'.branch c.branch := by rw [branch, branch, h]
  cases c <;> simp only [Call.branch] at hbranch <;>
    simp only [answer, checkScope, requirementsOf, providersOf, binariesOf, describe, aclOf,
      hbranch]

theorem CheckedRequest.allCalls_branch (r : CheckedRequest) (resolver : Resolver) :
    (r.program resolver).AllCalls fun c => c.branch = r.scope.branch := by
  obtain ⟨next, hprogram, hnext⟩ := r.exists_program_eq_ask resolver
  rw [hprogram]
  constructor
  · rfl
  · intro answer
    apply (hnext answer).mono
    rintro c (h | ⟨-, h⟩)
    · exact h.branch_eq
    · exact h.branch_eq

variable {u u' : Universe} {skipDebuginfo : Bool} {s : Snapshot}

/-- Nothing but the branch of a request counts for its outcome. -/
theorem Resolver.resolve_world_congr (resolver : Resolver) {request : Request}
    (h : u.branches[Text.lowerCase (Text.trim request.scope.branch)]? =
      u'.branches[Text.lowerCase (Text.trim request.scope.branch)]?) (p : Progress) :
    resolver.resolve u.world request p = resolver.resolve u'.world request p := by
  cases hcheck : request.check resolver.config with
  | error e => rw [resolve_of_check_eq_error hcheck, resolve_of_check_eq_error hcheck]
  | ok checked =>
    cases hstart : Allowance.start? p.now request.deadline resolver.config.accessorTimeout with
    | none => rw [resolve_of_start_eq_none hcheck hstart, resolve_of_start_eq_none hcheck hstart]
    | some allowance =>
      have hanswer : ∀ c : Call, c.branch = checked.scope.branch → u.answer c = u'.answer c := by
        intro c hc
        apply Universe.answer_congr
        obtain ⟨-, -, _, _, -, hscope, rfl⟩ := Request.check_eq_ok_iff.1 hcheck
        rw [hc, Config.branch_of_resolveScope hscope, h]
      rw [resolve_eq_of_start hcheck hstart, resolve_eq_of_start hcheck hstart,
        Program.run_world_congr hanswer (checked.allCalls_branch resolver)]

/-! ### Requests for unknown branches -/

theorem Config.resolveScope_ne_unknownBranch {config : Config} {branch : String}
    (h : Text.trim branch ≠ "") (archs : List String) (dependencyType : DependencyType)
    (name : String) :
    config.resolveScope branch archs dependencyType ≠ .error (.unknownBranch name) := by
  intro hscope
  unfold resolveScope at hscope
  dsimp only at hscope
  rw [if_neg (by rwa [String.isEmpty_iff, Text.lowerCase_eq_empty_iff])] at hscope
  rcases bind_eq_error_iff.1 hscope with harchs | ⟨_, -, hscope⟩
  · obtain ⟨text, -, htext⟩ := exists_of_mapM_eq_error harchs
    unfold parseArch at htext
    split at htext
    · cases htext
    · split at htext <;> cases htext
  · cases hscope

theorem Request.check_ne_unknownBranch {request : Request} (h : Text.trim request.scope.branch ≠ "")
    (config : Config) (name : String) : request.check config ≠ .error (.unknownBranch name) := by
  intro hcheck
  unfold check at hcheck
  rcases bind_eq_error_iff.1 hcheck with hgoal | ⟨_, -, hcheck⟩
  · unfold checkGoal Config.checkDepth at hgoal
    split at hgoal
    · split at hgoal <;> cases hgoal
    · cases hgoal
  · split at hcheck
    · cases hcheck
    · rcases bind_eq_error_iff.1 hcheck with hfilters | ⟨_, -, hcheck⟩
      · by_cases hconflict : request.filters.Conflicting
        · rw [FilterRequest.validate_of_conflicting hconflict] at hfilters
          cases hfilters
        · rw [FilterRequest.validate_of_not_conflicting hconflict] at hfilters
          cases hfilters
      · rcases bind_eq_error_iff.1 hcheck with hscope | ⟨_, -, hcheck⟩
        · exact Config.resolveScope_ne_unknownBranch h _ _ _ hscope
        · cases hcheck

theorem Universe.checkScope_ne_unknownBranch {scope : Scope} {index : BranchIndex}
    (h : u.branches[scope.branch]? = some index) (name : String) :
    u.checkScope scope ≠ .error (.unknownBranch name) := by
  rw [checkScope, branch_eq_ok_iff.2 h, ok_bind]
  split <;> simp

/-- A resolution in a branch of the universe may fail, but not because it does not know the
branch. -/
theorem CheckedRequest.eval_program_ne_unknownBranch
    (hu : Universe.ofSnapshot skipDebuginfo s = .ok u) {r : CheckedRequest} {index : BranchIndex}
    (h : u.branches[r.scope.branch]? = some index) (resolver : Resolver) (name : String) :
    (r.program resolver).eval u ≠ .error (.invalid (.unknownBranch name)) := by
  intro herror
  cases hscope : u.checkScope r.scope with
  | error e =>
    rw [eval_program_of_checkScope_eq_error hscope] at herror
    cases e with
    | unknownBranch branch => exact Universe.checkScope_ne_unknownBranch h branch hscope
    | unknownArch | unavailable | malformed => cases herror
  | ok _ =>
    obtain ⟨index, c, hfinds⟩ := exists_finds hscope resolver.horizon
    by_cases hleaf : ∀ leaf, r.filters.leaf = some leaf → leaf ∈ c.members
    · obtain ⟨_, _, -, heval⟩ := hfinds.exists_emits resolver hu hleaf
      rw [heval] at herror
      cases herror
    · push Not at hleaf
      obtain ⟨leaf, hl, hmem⟩ := hleaf
      rw [hfinds.eval_program_of_leaf_notMem resolver hl hmem] at herror
      cases herror

namespace Resolver

variable (resolver : Resolver) {request : Request}

theorem resolve_ne_unknownBranch (hu : Universe.ofSnapshot skipDebuginfo s = .ok u)
    (hne : Text.trim request.scope.branch ≠ "") {index : BranchIndex}
    (h : u.branches[Text.lowerCase (Text.trim request.scope.branch)]? = some index) (p : Progress)
    (name : String) :
    (resolver.resolve u.world request p).1 ≠ .failed (.invalid (.unknownBranch name)) := by
  intro hend
  cases hcheck : request.check resolver.config with
  | error e =>
    rw [resolve_of_check_eq_error hcheck] at hend
    obtain rfl : e = .unknownBranch name := by simpa using hend
    exact Request.check_ne_unknownBranch hne _ name hcheck
  | ok checked =>
    cases hstart : Allowance.start? p.now request.deadline resolver.config.accessorTimeout with
    | none =>
      rw [resolve_of_start_eq_none hcheck hstart] at hend
      cases hend
    | some allowance =>
      have hbranch : u.branches[checked.scope.branch]? = some index := by
        obtain ⟨-, -, _, _, -, hscope, rfl⟩ := Request.check_eq_ok_iff.1 hcheck
        rw [Config.branch_of_resolveScope hscope, h]
      have hne := CheckedRequest.eval_program_ne_unknownBranch hu hbranch resolver name
      rw [resolve_of_start_eq_some hcheck hstart, Program.run_world,
        Outcome.ofRun_mapError] at hend
      cases heval : (checked.program resolver).eval u with
      | ok result =>
        rw [heval] at hend
        cases hend
      | error e =>
        rw [heval] at hend hne
        obtain rfl : e = .invalid (.unknownBranch name) := by simpa [Outcome.ofResult] using hend
        exact hne rfl

theorem resolve_of_branch_eq_none {checked : CheckedRequest} {p : Progress}
    (hcheck : request.check resolver.config = .ok checked)
    (hstart : (Allowance.start? p.now request.deadline resolver.config.accessorTimeout).isSome)
    (h : u.branches[Text.lowerCase (Text.trim request.scope.branch)]? = none) :
    (resolver.resolve u.world request p).1 = .failed (.invalid
      (.unknownBranch (Text.lowerCase (Text.trim request.scope.branch)))) := by
  obtain ⟨allowance, hstart⟩ := Option.isSome_iff_exists.1 hstart
  have hscope : u.checkScope checked.scope =
      .error (.unknownBranch (Text.lowerCase (Text.trim request.scope.branch))) := by
    obtain ⟨-, -, _, scope, -, hscope, rfl⟩ := Request.check_eq_ok_iff.1 hcheck
    rw [Universe.checkScope, Universe.branch, Config.branch_of_resolveScope hscope, h]
    rfl
  rw [resolve_of_start_eq_some hcheck hstart, Program.run_world,
    CheckedRequest.eval_program_of_checkScope_eq_error hscope]
  rfl

theorem resolve_of_branch_blank (h : Text.trim request.scope.branch = "") (world : World)
    (p : Progress) :
    ∃ error, (resolver.resolve world request p).1 = .failed (.invalid error) := by
  cases hcheck : request.check resolver.config with
  | error e => exact ⟨e, congrArg Prod.fst (resolve_of_check_eq_error hcheck world)⟩
  | ok checked =>
    obtain ⟨-, -, -, hne, -⟩ := Request.exists_check_iff.1 ⟨checked, hcheck⟩
    exact absurd h hne

end Resolver

/-- A request is answered by the branch that it reaches, as if there were no other one, and it fails
if it reaches none. A branch is reached by its own name if there is no blank at an end of it and no
later branch has the same name in lower case. -/
theorem Request.resolve_eq_resolve_own (hu : Universe.ofSnapshot skipDebuginfo s = .ok u)
    (request : Request) :
    let name := Text.lowerCase (Text.trim request.scope.branch)
    (∀ b, s.branch? name = some b → ∃ own,
      Universe.ofSnapshot skipDebuginfo ⟨[b]⟩ = .ok own ∧
      (∀ call : Call, call.branch = name → u.answer call = own.answer call) ∧
      ∀ (resolver : Resolver) (p : Progress),
        resolver.resolve u.world request p = resolver.resolve own.world request p ∧
        (Text.trim request.scope.branch ≠ "" → ∀ unknown,
          (resolver.resolve u.world request p).1 ≠ .failed (.invalid (.unknownBranch unknown)))) ∧
    (s.branch? name = none → ∀ (resolver : Resolver) (p : Progress),
      (∃ checked, request.check resolver.config = .ok checked) →
      (Allowance.start? p.now request.deadline resolver.config.accessorTimeout).isSome →
        (resolver.resolve u.world request p).1 = .failed (.invalid (.unknownBranch name))) ∧
    (Text.trim request.scope.branch = "" → ∀ (resolver : Resolver) (p : Progress),
      ∃ error, (resolver.resolve u.world request p).1 = .failed (.invalid error)) ∧
    ∀ earlier b later, s.branches = earlier ++ b :: later → request.scope.branch = b.name →
      Text.trim b.name = b.name →
      (∀ b' ∈ later, Text.lowerCase b'.name ≠ Text.lowerCase b.name) → s.branch? name = some b := by
  intro name
  refine ⟨?_, ?_, ?_, ?_⟩
  · intro b hb
    obtain ⟨own, hown, hsame⟩ := Universe.exists_own hu hb
    have hindex := Universe.getElem?_branches hu name
    rw [hb, Option.map_some] at hindex
    refine ⟨own, hown, ?_, ?_⟩
    · intro call hcall
      apply Universe.answer_congr
      rw [hcall, hsame]
    · intro resolver p
      exact ⟨resolver.resolve_world_congr hsame p,
        fun hne unknown => resolver.resolve_ne_unknownBranch hu hne hindex p unknown⟩
  · intro hb resolver p ⟨checked, hcheck⟩ hstart
    apply resolver.resolve_of_branch_eq_none hcheck hstart
    rw [Universe.getElem?_branches hu, hb]
    rfl
  · exact fun hblank resolver p => resolver.resolve_of_branch_blank hblank u.world p
  · intro earlier b later hs hspelled htrim hlast
    have hname : name = Text.lowerCase b.name := by
      simp only [name, hspelled, htrim]
    rw [hname]
    exact Snapshot.branch?_of_append hs hlast

/-! ### Branches that are not reached -/

def lowerBranch : BranchSnapshot :=
  (SnapshotBuilder.start "p10" |>.package "a" ["b"] |>.package "b" []).current

def upperBranch : BranchSnapshot :=
  (SnapshotBuilder.start "P10" |>.package "a" ["c"] |>.package "c" []).current

/-- A request that spells the name of the earlier branch is answered by the later one. -/
theorem Request.resolve_eq_resolve_own_upper :
    let request := { cycleRequest (.build 2 false) with scope := ⟨lowerBranch.name, [], .both⟩ }
    ∃ u own, Universe.ofSnapshot true ⟨[lowerBranch, upperBranch]⟩ = .ok u ∧
      Universe.ofSnapshot true ⟨[upperBranch]⟩ = .ok own ∧
      ∀ (resolver : Resolver) (p : Progress),
        resolver.resolve u.world request p = resolver.resolve own.world request p := by
  intro request
  obtain ⟨u, hu⟩ : ∃ u, Universe.ofSnapshot true ⟨[lowerBranch, upperBranch]⟩ = .ok u :=
    Universe.exists_ofSnapshot (by decide +kernel)
  have hname : Text.lowerCase (Text.trim request.scope.branch) =
      Text.lowerCase upperBranch.name := by decide +kernel
  have hlater : Snapshot.branch? ⟨[lowerBranch, upperBranch]⟩
      (Text.lowerCase (Text.trim request.scope.branch)) = some upperBranch := by
    rw [hname]
    exact @Snapshot.branch?_of_append _ _ [lowerBranch] [] rfl (by simp)
  obtain ⟨hreached, -⟩ := resolve_eq_resolve_own hu request
  obtain ⟨own, hown, -, hsame⟩ := hreached _ hlater
  exact ⟨u, own, hu, hown, fun resolver p => (hsame resolver p).1⟩

def indentedBranch : BranchSnapshot :=
  (SnapshotBuilder.start " p10" |>.package "a" ["b"] |>.package "b" []).current

/-- The branch is there, and the request that spells its name is told that it is unknown. -/
theorem unknownBranch_of_indentedBranch :
    let request := { cycleRequest (.build 2 false) with scope := ⟨indentedBranch.name, [], .both⟩ }
    ∃ u, Universe.ofSnapshot true ⟨[indentedBranch]⟩ = .ok u ∧
      ((Resolver.ofUniverse u .default true).resolve u.world request ⟨[], 0⟩).1 =
        .failed (.invalid (.unknownBranch "p10")) := by
  intro request
  have hname : Text.lowerCase indentedBranch.name = " p10" := by decide +kernel
  exact ⟨_, Universe.ofSnapshot_singleton (by decide +kernel) hname, by decide +kernel⟩

end BuildPlan
