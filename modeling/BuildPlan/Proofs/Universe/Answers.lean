import BuildPlan.Proofs.Universe.Index

/-! # What a universe answers

Once a scope has been checked its branch exists, and then every call about it is answered from the
index of the branch.
-/
namespace BuildPlan

theorem BranchIndex.missingArch?_eq_none_iff {index : BranchIndex} {scope : Scope} :
    index.missingArch? scope = none ↔ (index.declaredArchs.isEmpty = false →
      ∀ a ∈ scope.archs, a ≠ .noarch → a ∈ index.declaredArchs) := by
  unfold missingArch?
  split <;> simp [*]

namespace Universe

variable {u : Universe}

theorem checkScope_eq_ok_iff {scope : Scope} : u.checkScope scope = .ok () ↔
    ∃ index, u.branches[scope.branch]? = some index ∧ index.missingArch? scope = none := by
  simp only [checkScope, bind_eq_ok_iff, branch_eq_ok_iff]
  refine exists_congr fun index => and_congr_right fun _ => ?_
  cases index.missingArch? scope <;> simp

theorem exists_branch_of_checkScope {scope : Scope} (h : u.checkScope scope = .ok ()) :
    ∃ index, u.branch scope.branch = .ok index := by
  obtain ⟨index, hindex, -⟩ := checkScope_eq_ok_iff.1 h
  exact ⟨index, branch_eq_ok_iff.2 hindex⟩

theorem ofScopeError_of_checkScope {scope : Scope} {e : UniverseError}
    (h : u.checkScope scope = .error e) :
    ∃ error, ResolveError.ofScopeError e = .invalid error := by
  rcases bind_eq_error_iff.1 h with hbranch | ⟨index, -, hmissing⟩
  · unfold branch at hbranch
    split at hbranch
    · cases hbranch
    · obtain rfl := Except.error.inj hbranch
      exact ⟨_, rfl⟩
  · split at hmissing
    · obtain rfl := Except.error.inj hmissing
      exact ⟨_, rfl⟩
    · cases hmissing

section Answers

variable {scope : Scope} {index : BranchIndex} (h : u.branch scope.branch = .ok index)
include h

theorem requirementsOf_eq (names : PackageSet) (reading : NameReading) :
    u.requirementsOf names reading scope = .ok (index.requirementsOf names reading scope) := by
  rw [requirementsOf, h]
  rfl

theorem providersOf_eq (capabilities : CapabilitySet) (asSource : Bool) :
    u.providersOf capabilities scope asSource =
      .ok (index.providersOf capabilities scope asSource) := by
  rw [providersOf, h]
  rfl

theorem binariesOf_eq (sources : PackageSet) :
    u.binariesOf sources scope = .ok (index.binariesOf sources scope) := by
  rw [binariesOf, h]
  rfl

theorem describe_eq (names : PackageSet) (asSource : Bool) :
    u.describe names scope asSource = .ok (index.describe names scope asSource) := by
  rw [describe, h]
  rfl

theorem aclOf_eq (n : PackageName) : u.aclOf n scope.branch = .ok (index.acl[n]?.getD []) := by
  rw [aclOf, h]
  rfl

end Answers

variable (u) in
/-- One name needs another if the universe says that the first requires something which the second
provides. -/
def Needs (scope : Scope) (reading : NameReading) (asSource : Bool) (n m : PackageName) : Prop :=
  ∃ requirements, u.requirementsOf (.ofList [n]) reading scope = .ok requirements ∧
    ∃ c ∈ SetMap.range requirements,
      ∃ providers, u.providersOf (.ofList [c]) scope asSource = .ok providers ∧
        m ∈ SetMap.range providers

theorem needs_iff {scope : Scope} {index : BranchIndex} (h : u.branch scope.branch = .ok index)
    {reading : NameReading} {asSource : Bool} {n m : PackageName} :
    u.Needs scope reading asSource n m ↔ index.Needs scope reading asSource n m := by
  simp [Needs, BranchIndex.Needs, requirementsOf_eq h, providersOf_eq h,
    BranchIndex.mem_range_requirementsOf, BranchIndex.mem_range_providersOf]

theorem Needs.exists_package {skipDebuginfo : Bool} {s : Snapshot}
    (hu : ofSnapshot skipDebuginfo s = .ok u) {scope : Scope} {index : BranchIndex}
    (hbranch : u.branch scope.branch = .ok index) {reading : NameReading} {asSource : Bool}
    {n m : PackageName} (h : u.Needs scope reading asSource n m) :
    m ∈ u.packageNames ∧ (index.describeName? scope asSource m).isSome = true := by
  obtain ⟨c, -, hm⟩ := (needs_iff hbranch).1 h
  have hlookup := branch_eq_ok_iff.1 hbranch
  obtain ⟨b, -, -, hindex⟩ := exists_of_branch hu hlookup
  rw [hindex] at hm
  obtain ⟨p, hp, hname, -⟩ := BranchIndex.exists_package_of_mem_providersOfCapability hm
  constructor
  · exact mem_packageNames.2 ⟨_, index, hlookup, p, by rw [hindex]; exact hp, hname⟩
  · rw [hindex]
    exact BranchIndex.isSome_describeName? hm

theorem Needs.mem_packageNames {skipDebuginfo : Bool} {s : Snapshot}
    (hu : ofSnapshot skipDebuginfo s = .ok u) {scope : Scope} {reading : NameReading}
    {asSource : Bool} {n m : PackageName} (h : u.Needs scope reading asSource n m) :
    m ∈ u.packageNames := by
  obtain ⟨_, hrequirements, -⟩ := id h
  obtain ⟨index, hbranch, -⟩ := bind_eq_ok_iff.1 hrequirements
  exact (h.exists_package hu hbranch).1

end Universe

/-! ### Calls of a program -/

namespace Program

variable {u : Universe} {scope : Scope} {index : BranchIndex}
  (h : u.branch scope.branch = .ok index)
include h

theorem eval_requirementsOf (names : PackageSet) (reading : NameReading) :
    (Program.requirementsOf names reading scope).eval u =
      .ok (index.requirementsOf names reading scope) := by
  unfold Program.requirementsOf
  split
  · next hempty =>
    obtain rfl := Std.ExtTreeSet.isEmpty_iff.1 hempty
    rfl
  · rw [eval_call, Universe.reply, Universe.answer, u.requirementsOf_eq h]
    rfl

theorem eval_providersOf (capabilities : CapabilitySet) (asSource : Bool) :
    (Program.providersOf capabilities scope asSource).eval u =
      .ok (index.providersOf capabilities scope asSource) := by
  unfold Program.providersOf
  split
  · next hempty =>
    obtain rfl := Std.ExtTreeSet.isEmpty_iff.1 hempty
    rfl
  · rw [eval_call, Universe.reply, Universe.answer, u.providersOf_eq h]
    rfl

theorem eval_binariesOf (sources : PackageSet) :
    (Program.binariesOf sources scope).eval u = .ok (index.binariesOf sources scope) := by
  unfold Program.binariesOf
  split
  · next hempty =>
    obtain rfl := Std.ExtTreeSet.isEmpty_iff.1 hempty
    rfl
  · rw [eval_call, Universe.reply, Universe.answer, u.binariesOf_eq h]
    rfl

theorem eval_describe (names : PackageSet) (asSource : Bool) :
    (Program.describe names scope asSource).eval u =
      .ok (index.describe names scope asSource) := by
  unfold Program.describe
  split
  · next hempty =>
    obtain rfl := Std.ExtTreeSet.isEmpty_iff.1 hempty
    rfl
  · rw [eval_call, Universe.reply, Universe.answer, u.describe_eq h]
    rfl

end Program

end BuildPlan
