import BuildPlan.Proofs.Filter.Finite
import BuildPlan.Proofs.Filter.Leaf
import BuildPlan.Proofs.Resolution.Request
import BuildPlan.Proofs.Universe.Answers

/-! # What filters keep

Whether a filter keeps a package depends on the graph, on everything that was found and on the
index, and not on what other filters keep. A filter over a universe fails only for a leaf that is
not in the graph.
-/
namespace BuildPlan

namespace FilterRequest

/-- Both requirement filters have a value. -/
def Conflicting (r : FilterRequest) : Prop :=
  (∃ text ∈ r.filterByPackage, Text.trim text ≠ "") ∧
    ∃ text, r.filterBySource = some text ∧ Text.trim text ≠ ""

def requirement? (r : FilterRequest) : Option RequirementFilter :=
  let packages : PackageSet := .ofList (r.filterByPackage.filterMap PackageName.ofText?)
  if packages.isEmpty then
    (r.filterBySource.bind PackageName.ofText?).map .builtFrom
  else some (.packages packages)

theorem bind_ofText?_eq_some_iff {o : Option String} {n : PackageName} :
    o.bind PackageName.ofText? = some n ↔
      ∃ text, o = some text ∧ Text.trim text ≠ "" ∧ n = .ofText text := by
  simp only [Option.bind_eq_some_iff, PackageName.ofText?_eq_some_iff]
  refine exists_congr fun text => and_congr_right fun _ => ?_
  constructor
  · rintro ⟨rfl, hne⟩
    exact ⟨hne, rfl⟩
  · rintro ⟨hne, rfl⟩
    exact ⟨rfl, hne⟩

theorem isEmpty_packages_eq_false_iff {texts : List String} :
    (.ofList (texts.filterMap PackageName.ofText?) : PackageSet).isEmpty = false ↔
      ∃ text ∈ texts, Text.trim text ≠ "" := by
  rw [← Bool.not_eq_true, isEmpty_iff_forall_notMem]
  simp [PackageName.ofText?_eq_some_iff, PackageName.ofText]

theorem validate_of_conflicting {r : FilterRequest} (h : r.Conflicting) :
    r.validate = .error .conflictingFilters := by
  obtain ⟨hpackages, text, htext, hne⟩ := h
  unfold validate
  dsimp only
  rw [isEmpty_packages_eq_false_iff.2 hpackages, bind_ofText?_eq_some_iff.2 ⟨text, htext, hne, rfl⟩]
  rfl

theorem validate_of_not_conflicting {r : FilterRequest} (h : ¬ r.Conflicting) :
    r.validate = .ok ⟨r.leaf.bind PackageName.ofText?, r.finitePackage, r.requirement?⟩ := by
  unfold validate requirement?
  dsimp only
  cases hpackages :
      (.ofList (r.filterByPackage.filterMap PackageName.ofText?) : PackageSet).isEmpty with
  | true => cases r.filterBySource.bind PackageName.ofText? <;> rfl
  | false =>
    cases hsource : r.filterBySource.bind PackageName.ofText? with
    | none => rfl
    | some source =>
      obtain ⟨text, htext, hne, -⟩ := bind_ofText?_eq_some_iff.1 hsource
      exact absurd ⟨isEmpty_packages_eq_false_iff.1 hpackages, text, htext, hne⟩ h

theorem exists_validate_iff {r : FilterRequest} :
    (∃ filters, r.validate = .ok filters) ↔ ¬ r.Conflicting := by
  constructor
  · rintro ⟨filters, h⟩ hconflict
    rw [validate_of_conflicting hconflict] at h
    cases h
  · exact fun h => ⟨_, validate_of_not_conflicting h⟩

end FilterRequest

namespace RequirementFilter

/-- The binaries behind a filter, as the index lists them. -/
def binariesIn (index : BranchIndex) (scope : Scope) : RequirementFilter → PackageSet
  | packages names => names
  | builtFrom source => index.binariesOf (.ofList [source]) scope

/-- The package requires something that a binary behind the filter provides. -/
def Matches (f : RequirementFilter) (index : BranchIndex) (scope : Scope) (reading : NameReading)
    (n : PackageName) : Prop :=
  ∃ a ∈ index.requirementsOfName reading scope n,
    ∃ m ∈ index.providersOfCapability scope false a, m ∈ f.binariesIn index scope

variable {u : Universe} {index : BranchIndex} {scope : Scope}
  (h : u.branch scope.branch = .ok index)
include h

theorem eval_binaries (f : RequirementFilter) :
    (f.binaries scope).eval u = .ok (f.binariesIn index scope) := by
  cases f with
  | packages names => rfl
  | builtFrom source => exact Program.eval_binariesOf h _

theorem exists_eval_matching (f : RequirementFilter) (reading : NameReading)
    (candidates : PackageSet) : ∃ matched,
    (f.matching scope reading candidates).eval u = .ok matched ∧
      ∀ n, n ∈ matched ↔ n ∈ candidates ∧ f.Matches index scope reading n := by
  simp only [matching, Program.eval_bind, eval_binaries h, ok_bind]
  split
  · next hempty =>
    refine ⟨∅, rfl, fun n => ?_⟩
    simp [Matches, isEmpty_iff_forall_notMem.1 hempty]
  · simp only [Program.eval_bind, Program.eval_requirementsOf h, Program.eval_providersOf h,
      Program.eval_pure, ok_bind]
    refine ⟨_, rfl, fun n => ?_⟩
    simp only [Std.ExtTreeSet.mem_filter, Std.ExtTreeSet.get_eq, any_eq_true_iff,
      Std.ExtTreeSet.contains_iff_mem, BranchIndex.requirementsOf, BranchIndex.providersOf,
      SetMap.mem_values_tabulate, SetMap.mem_range, Matches, exists_prop]
    grind

end RequirementFilter

/-! ### All filters -/

namespace Filters

/-- What every filter of a request keeps. -/
def Keeps (f : Filters) (index : BranchIndex) (scope : Scope) (reading : NameReading) (g : Graph)
    (emitted : PackageSet) (n : PackageName) : Prop :=
  (∀ leaf, f.leaf = some leaf → g.Reaches leaf n) ∧
    (f.finitePackage = true → ∀ m ∈ emitted, ¬ g.Requires m n) ∧
      ∀ filter, f.requirement = some filter → filter.Matches index scope reading n

variable {u : Universe} {index : BranchIndex} {scope : Scope} {reading : NameReading} {g : Graph}
  {emitted : PackageSet} {n : PackageName}

theorem isActive_eq_false_iff {f : Filters} : f.isActive = false ↔ f = ⟨none, false, none⟩ := by
  obtain ⟨leaf, finitePackage, requirement⟩ := f
  simp [isActive, and_assoc]

theorem keeps_of_not_isActive {f : Filters} (h : f.isActive = false) :
    f.Keeps index scope reading g emitted n := by
  obtain rfl := isActive_eq_false_iff.1 h
  simp [Keeps]

/-- What all filters keep is what each of them keeps. -/
theorem keeps_iff_alone {f : Filters} : f.Keeps index scope reading g emitted n ↔
    Keeps ⟨f.leaf, false, none⟩ index scope reading g emitted n ∧
      Keeps ⟨none, f.finitePackage, none⟩ index scope reading g emitted n ∧
        Keeps ⟨none, false, f.requirement⟩ index scope reading g emitted n := by
  simp [Keeps]

theorem eval_kept_of_leaf_notMem (u : Universe) (f : Filters) {leaf : PackageName}
    (hleaf : f.leaf = some leaf) (hnode : leaf ∉ g.nodes) (o : BuildOrder) :
    (f.kept scope reading g o emitted).eval u = .error (.invalid (.leafNotInClosure leaf)) := by
  simp only [kept, keptByLeaf, hleaf, Program.eval_bind, Graph.leafScope_of_notMem hnode]
  rfl

theorem exists_eval_keptByLeaf (u : Universe) (f : Filters)
    (hleaf : ∀ leaf, f.leaf = some leaf → leaf ∈ g.nodes) (emitted : PackageSet) : ∃ kept,
    (f.keptByLeaf g g.sort emitted).eval u = .ok kept ∧
      ∀ n ∈ emitted, n ∈ kept ↔ ∀ leaf, f.leaf = some leaf → g.Reaches leaf n := by
  unfold keptByLeaf
  cases hf : f.leaf with
  | none => exact ⟨emitted, rfl, by simp⟩
  | some leaf =>
    have hnode := hleaf leaf hf
    exact ⟨g.downward leaf, by simp only [Graph.leafScope_sort_of_mem hnode]; rfl,
      by simp [Graph.mem_downward, hnode]⟩

theorem exists_eval_keptByRequirement (h : u.branch scope.branch = .ok index) (f : Filters)
    (reading : NameReading) (emitted : PackageSet) : ∃ kept,
    (f.keptByRequirement scope reading emitted).eval u = .ok kept ∧
      ∀ n ∈ emitted, n ∈ kept ↔
        ∀ filter, f.requirement = some filter → filter.Matches index scope reading n := by
  unfold keptByRequirement
  cases hf : f.requirement with
  | none => exact ⟨emitted, rfl, by simp⟩
  | some filter =>
    obtain ⟨kept, hkept, hmem⟩ := filter.exists_eval_matching h reading emitted
    exact ⟨kept, hkept, by simp +contextual [hmem]⟩

theorem exists_eval_kept (h : u.branch scope.branch = .ok index) (f : Filters)
    (hleaf : ∀ leaf, f.leaf = some leaf → leaf ∈ g.nodes) : ∃ kept,
    (f.kept scope reading g g.sort emitted).eval u = .ok kept ∧
      ∀ n, n ∈ kept ↔ n ∈ emitted ∧ f.Keeps index scope reading g emitted n := by
  obtain ⟨byLeaf, hevalLeaf, hbyLeaf⟩ := f.exists_eval_keptByLeaf u hleaf emitted
  obtain ⟨byRequirement, hevalRequirement, hbyRequirement⟩ :=
    f.exists_eval_keptByRequirement h reading emitted
  have hbyFinite : ∀ n ∈ emitted,
      n ∈ (if f.finitePackage then finitePackages g emitted else emitted) ↔
        (f.finitePackage = true → ∀ m ∈ emitted, ¬ g.Requires m n) := by
    intro n hn
    cases f.finitePackage <;> simp [Graph.mem_finitePackages, hn]
  simp only [kept, Program.eval_bind, hevalLeaf, hevalRequirement, ok_bind, Program.eval_pure]
  refine ⟨_, rfl, fun n => ?_⟩
  simp only [Std.ExtTreeSet.mem_filter, Std.ExtTreeSet.get_eq, Bool.and_eq_true,
    Std.ExtTreeSet.contains_iff_mem, exists_prop, Keeps, and_assoc]
  refine and_congr_right fun hn => ?_
  rw [hbyLeaf n hn, hbyFinite n hn, hbyRequirement n hn]

end Filters

end BuildPlan
