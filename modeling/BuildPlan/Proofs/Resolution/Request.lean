import BuildPlan.Proofs.Universe.Index
import BuildPlan.Resolution
import BuildPlan.Snapshot.Builder

/-! # Accepted requests

What passes the checks of a request, one after the other, and what it takes for a request to be
answered.
-/
namespace BuildPlan

theorem PackageName.ofText?_eq_some_iff {s : String} {n : PackageName} :
    PackageName.ofText? s = some n ↔ n = .ofText s ∧ n.text ≠ "" := by
  simp only [ofText?, Text.nonBlank?, Option.map_eq_some_iff, Option.ite_none_left_eq_some,
    Option.some.injEq, String.isEmpty_iff, ofText]
  constructor
  · rintro ⟨t, ⟨hne, rfl⟩, rfl⟩
    exact ⟨rfl, hne⟩
  · rintro ⟨rfl, hne⟩
    exact ⟨_, ⟨hne, rfl⟩, rfl⟩

/-! ### Scopes -/

theorem Text.lowerChars_eq_nil_iff {before cs : List Char} :
    Text.lowerChars before cs = [] ↔ cs = [] := by
  cases cs with
  | nil => simp [Text.lowerChars]
  | cons c cs =>
    simp only [Text.lowerChars, List.append_eq_nil_iff, reduceCtorEq, iff_false, not_and]
    split
    · simp
    · split <;> simp

theorem Text.lowerCase_eq_empty_iff {s : String} : Text.lowerCase s = "" ↔ s = "" := by
  rw [Text.lowerCase, String.ofList_eq_empty_iff, Text.lowerChars_eq_nil_iff,
    String.toList_eq_nil_iff]

namespace Config

theorem parseArch_eq_ok_iff {text : String} {a : Arch} :
    parseArch text = .ok a ↔ Arch.ofText? text = some a ∧ a ≠ .src := by
  unfold parseArch
  split
  · next h => simp [h]
  · next b h =>
    rw [h, Option.some.injEq]
    split
    · next hbinary =>
      have hb : b ≠ .src := by simpa [Arch.isBinary] using hbinary
      refine ⟨?_, fun ⟨heq, _⟩ => heq ▸ rfl⟩
      rintro ⟨⟩
      exact ⟨rfl, hb⟩
    · next hsource =>
      have hb : b = .src := by simpa [Arch.isBinary] using hsource
      simp only [throw_eq_error, reduceCtorEq, false_iff, not_and, not_not]
      rintro rfl
      exact hb

theorem exists_resolveScope_iff (config : Config) (branch : String) (archs : List String)
    (dependencyType : DependencyType) :
    (∃ scope, config.resolveScope branch archs dependencyType = .ok scope) ↔
      Text.trim branch ≠ "" ∧
        ∀ text ∈ archs, ∃ a, Arch.ofText? text = some a ∧ a ≠ .src := by
  unfold resolveScope
  dsimp only
  split
  · next hempty =>
    rw [String.isEmpty_iff, Text.lowerCase_eq_empty_iff] at hempty
    simp [hempty]
  · next hempty =>
    rw [String.isEmpty_iff, Text.lowerCase_eq_empty_iff] at hempty
    simp only [ne_eq, hempty, not_false_iff, true_and, ← parseArch_eq_ok_iff,
      ← exists_mapM_eq_ok_iff]
    constructor
    · rintro ⟨scope, h⟩
      obtain ⟨named, hnamed, -⟩ := bind_eq_ok_iff.1 h
      exact ⟨named, hnamed⟩
    · rintro ⟨named, hnamed⟩
      exact ⟨_, bind_eq_ok_iff.2 ⟨named, hnamed, rfl⟩⟩

section Scopes

variable {config : Config} {branch : String} {archs : List String}
  {dependencyType : DependencyType} {scope : Scope}
  (h : config.resolveScope branch archs dependencyType = .ok scope)
include h

theorem exists_eq_ofArchs_of_resolveScope : ∃ named, archs.mapM parseArch = .ok named ∧
    let name := Text.lowerCase (Text.trim branch)
    scope = .ofArchs name (if named.isEmpty then config.archsFor name else named)
      dependencyType := by
  unfold resolveScope at h
  dsimp only at h
  split at h
  · cases h
  · obtain ⟨named, hnamed, h⟩ := bind_eq_ok_iff.1 h
    exact ⟨named, hnamed, (Except.ok.inj h).symm⟩

theorem branch_of_resolveScope : scope.branch = Text.lowerCase (Text.trim branch) := by
  obtain ⟨_, -, rfl⟩ := exists_eq_ofArchs_of_resolveScope h
  rfl

theorem dependencyType_of_resolveScope : scope.dependencyType = dependencyType := by
  obtain ⟨_, -, rfl⟩ := exists_eq_ofArchs_of_resolveScope h
  rfl

theorem mem_archs_of_resolveScope {a : Arch} : a ∈ scope.archs ↔ a = .noarch ∨ a ≠ .src ∧
    ((∃ text ∈ archs, Arch.ofText? text = some a) ∨
      archs = [] ∧ a ∈ config.archsFor scope.branch) := by
  obtain ⟨named, hnamed, rfl⟩ := exists_eq_ofArchs_of_resolveScope h
  have hmem : a ∈ named ↔ ∃ text ∈ archs, Arch.ofText? text = some a ∧ a ≠ .src := by
    simp only [mem_mapM_iff hnamed, parseArch_eq_ok_iff]
  have hempty : named.isEmpty = true ↔ archs = [] := by
    rw [List.isEmpty_iff_length_eq_zero, ← (mapM_eq_ok_iff.1 hnamed).length_eq,
      List.length_eq_zero_iff]
  have hbinary : a.isBinary = true ↔ a ≠ .src := by simp [Arch.isBinary]
  simp only [Scope.ofArchs, Std.ExtTreeSet.mem_ofList, List.contains_iff_mem, List.mem_cons,
    List.mem_filter, hbinary]
  split <;> grind

end Scopes

end Config

namespace Request

variable {u : Universe} {config : Config} {request : Request} {checked : CheckedRequest}

theorem mem_seedSet {n : PackageName} :
    n ∈ request.seedSet ↔ ∃ text ∈ request.seeds, n = .ofText text ∧ n.text ≠ "" := by
  simp [seedSet, PackageName.ofText?_eq_some_iff]

theorem check_eq_ok_iff : request.check config = .ok checked ↔
    request.checkGoal config = .ok () ∧ request.seedSet.isEmpty = false ∧ ∃ filters scope,
      request.filters.validate = .ok filters ∧
      config.resolveScope request.scope.branch request.scope.archs request.scope.dependencyType =
        .ok scope ∧ checked = ⟨request.goal, request.seedSet, scope, filters⟩ := by
  unfold check
  rw [bind_eq_ok_iff]
  cases request.seedSet.isEmpty with
  | true =>
    constructor
    · rintro ⟨_, -, h⟩
      cases h
    · rintro ⟨-, h, -⟩
      cases h
  | false =>
    simp only [Bool.false_eq_true, if_false, bind_eq_ok_iff, true_and]
    constructor
    · rintro ⟨_, hgoal, filters, hfilters, scope, hscope, h⟩
      exact ⟨hgoal, filters, scope, hfilters, hscope, (Except.ok.inj h).symm⟩
    · rintro ⟨hgoal, filters, scope, hfilters, hscope, rfl⟩
      exact ⟨(), hgoal, filters, hfilters, scope, hscope, rfl⟩

theorem checkDepth_eq_ok_iff {depth : UInt32} : config.checkDepth depth = .ok () ↔
    1 ≤ depth.toNat ∧ depth.toNat ≤ config.maxDepth.toNat := by
  have hrange : (depth < 1 ∨ config.maxDepth < depth) ↔
      depth.toNat < 1 ∨ config.maxDepth.toNat < depth.toNat := by
    rw [UInt32.lt_iff_toNat_lt, UInt32.lt_iff_toNat_lt, UInt32.toNat_one]
  unfold Config.checkDepth
  split
  · next h =>
    constructor
    · rintro ⟨⟩
    · rintro ⟨hge, hle⟩
      rcases hrange.1 h with h | h <;> omega
  · next h =>
    rw [hrange] at h
    exact ⟨fun _ => by omega, fun _ => rfl⟩

theorem checkDepth_eq_error {depth : UInt32}
    (h : ¬ (1 ≤ depth.toNat ∧ depth.toNat ≤ config.maxDepth.toNat)) :
    config.checkDepth depth =
      .error (.depthOutOfRange depth.toNat config.maxDepth.toNat) := by
  rw [← checkDepth_eq_ok_iff] at h
  unfold Config.checkDepth at h ⊢
  split
  · rfl
  · next hrange => exact absurd (if_neg hrange) h

theorem check_of_checkGoal_eq_error {e : RequestError} (h : request.checkGoal config = .error e) :
    request.check config = .error e := by
  rw [check, h]
  rfl

theorem check_withGoal {goal goal' : Goal}
    (h : { request with goal }.checkGoal config = .ok ())
    (h' : { request with goal := goal' }.checkGoal config = .ok ()) :
    { request with goal := goal' }.check config =
      ({ request with goal }.check config).map fun r : CheckedRequest =>
        { r with goal := goal' } := by
  unfold check
  rw [h, h', seedSet, seedSet, ok_bind, ok_bind]
  dsimp only
  split
  · rfl
  · cases request.filters.validate with
    | error e => rfl
    | ok filters =>
      cases config.resolveScope request.scope.branch request.scope.archs
        request.scope.dependencyType <;> rfl

/-- A request that is answered: it passes its own checks, its deadline fits the clock, and the
universe knows its scope. -/
structure Accepted (u : Universe) (config : Config) (now : Nat) (request : Request)
    (checked : CheckedRequest) : Prop where
  check_eq : request.check config = .ok checked
  starts : (Allowance.start? now request.deadline config.accessorTimeout).isSome = true
  checkScope_eq : u.checkScope checked.scope = .ok ()

theorem Accepted.checkGoal_eq {now : Nat} (h : request.Accepted u config now checked) :
    request.checkGoal config = .ok () :=
  (check_eq_ok_iff.1 h.check_eq).1

theorem Accepted.one_le_depth {now : Nat} (h : request.Accepted u config now checked)
    {depth : UInt32} {halfStep : Bool} (hgoal : request.goal = .build depth halfStep) :
    1 ≤ depth.toNat := by
  have hcheck := h.checkGoal_eq
  rw [checkGoal, hgoal] at hcheck
  exact (checkDepth_eq_ok_iff.1 hcheck).1

theorem Accepted.dependencyType_eq {now : Nat} (h : request.Accepted u config now checked) :
    checked.scope.dependencyType = request.scope.dependencyType := by
  obtain ⟨-, -, _, _, -, hscope, rfl⟩ := check_eq_ok_iff.1 h.check_eq
  exact Config.dependencyType_of_resolveScope hscope

theorem Accepted.goal_eq {now : Nat} (h : request.Accepted u config now checked) :
    checked.goal = request.goal := by
  obtain ⟨-, -, _, _, -, -, rfl⟩ := check_eq_ok_iff.1 h.check_eq
  rfl

theorem Accepted.validate_eq {now : Nat} (h : request.Accepted u config now checked) :
    request.filters.validate = .ok checked.filters := by
  obtain ⟨-, -, _, _, hvalid, -, rfl⟩ := check_eq_ok_iff.1 h.check_eq
  exact hvalid

theorem Accepted.mem_archs {now : Nat} (h : request.Accepted u config now checked) {a : Arch} :
    a ∈ checked.scope.archs ↔ a = .noarch ∨ a ≠ .src ∧
      ((∃ text ∈ request.scope.archs, Arch.ofText? text = some a) ∨
        request.scope.archs = [] ∧ a ∈ config.archsFor checked.scope.branch) := by
  obtain ⟨-, -, _, _, -, hscope, rfl⟩ := check_eq_ok_iff.1 h.check_eq
  exact Config.mem_archs_of_resolveScope hscope

theorem Accepted.mem_seeds {now : Nat} (h : request.Accepted u config now checked)
    {n : PackageName} :
    n ∈ checked.seeds ↔ ∃ text ∈ request.seeds, n = .ofText text ∧ n.text ≠ "" := by
  obtain ⟨-, -, _, _, -, -, rfl⟩ := check_eq_ok_iff.1 h.check_eq
  exact mem_seedSet

theorem Accepted.seeds_eq {now : Nat} (h : request.Accepted u config now checked) :
    checked.seeds = request.seedSet := by
  obtain ⟨-, -, _, _, -, -, rfl⟩ := check_eq_ok_iff.1 h.check_eq
  rfl

theorem Accepted.withSeeds {now : Nat} (h : request.Accepted u config now checked)
    {texts : List String} (hseeds : { request with seeds := texts }.seedSet.isEmpty = false) :
    { request with seeds := texts }.Accepted u config now
      { checked with seeds := { request with seeds := texts }.seedSet } where
  check_eq := by
    obtain ⟨hgoal, -, filters, scope, hfilters, hscope, rfl⟩ := check_eq_ok_iff.1 h.check_eq
    exact check_eq_ok_iff.2 ⟨hgoal, hseeds, filters, scope, hfilters, hscope, rfl⟩
  starts := h.starts
  checkScope_eq := h.checkScope_eq

end Request

/-! ### A small universe -/

/-- Three sources whose packages need each other. -/
def cycleBranch : BranchSnapshot :=
  (SnapshotBuilder.start "Sisyphus"
    |>.source "a" ["b"] |>.binary "a" "a" .x86_64 ["c"] []
    |>.source "b" ["c"] |>.binary "b" "b" .noarch ["a"] []
    |>.source "c" [] |>.binary "c" "libc" .x86_64 ["b"] ["c"]).current

def cycleUniverse : Universe :=
  ⟨.ofList [("sisyphus",
    BranchIndex.ofPackages (BranchIndex.keptPackages true cycleBranch) cycleBranch)]⟩

theorem ofSnapshot_cycleBranch : Universe.ofSnapshot true ⟨[cycleBranch]⟩ = .ok cycleUniverse :=
  Universe.ofSnapshot_singleton (by decide +kernel) (by decide +kernel)

def cycleRequest (goal : Goal) : Request :=
  ⟨goal, [" a ", ""], ⟨"SISYPHUS", [], .both⟩, none, .none⟩

def cycleScope : Scope := .ofArchs "sisyphus" [.x86_64] .both

theorem accepted_of_cycleScope {u : Universe} {goal : Goal}
    (h : (cycleRequest goal).checkGoal .default = .ok ())
    (hscope : u.checkScope cycleScope = .ok ()) : (cycleRequest goal).Accepted u .default 0
      ⟨goal, (cycleRequest goal).seedSet, cycleScope, ⟨none, false, none⟩⟩ where
  check_eq := by
    have hseeds : (cycleRequest .full).seedSet.isEmpty = false := by decide +kernel
    have hfilters : FilterRequest.none.validate = .ok ⟨none, false, none⟩ := by decide +kernel
    have hscope : Config.default.resolveScope "SISYPHUS" [] .both = .ok cycleScope := by
      decide +kernel
    exact Request.check_eq_ok_iff.2 ⟨h, hseeds, _, _, hfilters, hscope, rfl⟩
  starts := rfl
  checkScope_eq := hscope

theorem accepted_cycleRequest {goal : Goal}
    (h : (cycleRequest goal).checkGoal .default = .ok ()) :
    (cycleRequest goal).Accepted cycleUniverse .default 0
      ⟨goal, (cycleRequest goal).seedSet, cycleScope, ⟨none, false, none⟩⟩ :=
  accepted_of_cycleScope h (by decide +kernel)

end BuildPlan
