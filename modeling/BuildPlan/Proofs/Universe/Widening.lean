import BuildPlan.Proofs.Universe.Index

/-! # Wider scopes

One scope is wider than another one of its branch if it admits more architectures, or follows both
kinds of requirements. An index answers no less about a wider scope: what is required, provided and
built in the narrow scope is so in the wide one.
-/
namespace BuildPlan

/-- A scope of the same branch that shows no less than another one. -/
structure Scope.Widens (wide narrow : Scope) : Prop where
  branch_eq : wide.branch = narrow.branch
  mem_archs : ∀ a ∈ narrow.archs, a ∈ wide.archs
  dependencyType_eq : wide.dependencyType = narrow.dependencyType ∨ wide.dependencyType = .both

namespace Scope.Widens

variable {wide narrow : Scope} (h : wide.Widens narrow)
include h

theorem admits {a : Arch} (ha : narrow.admits a = true) : wide.admits a = true := by
  rw [Scope.admits_iff] at ha ⊢
  exact ha.imp_right (h.mem_archs a)

theorem includesSource (hsource : narrow.dependencyType.includesSource = true) :
    wide.dependencyType.includesSource = true := by
  rcases h.dependencyType_eq with hsame | hboth
  · rwa [hsame]
  · rw [hboth]
    rfl

theorem includesBinary (hbinary : narrow.dependencyType.includesBinary = true) :
    wide.dependencyType.includesBinary = true := by
  rcases h.dependencyType_eq with hsame | hboth
  · rwa [hsame]
  · rw [hboth]
    rfl

theorem withDependencyType (t : DependencyType) :
    (wide.withDependencyType t).Widens (narrow.withDependencyType t) :=
  ⟨h.branch_eq, h.mem_archs, Or.inl rfl⟩

end Scope.Widens

namespace BranchIndex

variable {index : BranchIndex} {wide narrow : Scope} {reading : NameReading} {asSource : Bool}
  {n m : PackageName} (h : wide.Widens narrow)
include h

theorem contributes_of_widens {p : Package} (hp : contributes reading narrow p = true) :
    contributes reading wide p = true := by
  unfold contributes at hp ⊢
  split at hp
  · next hsource =>
    rw [Bool.and_eq_true] at hp
    rw [if_pos hsource, Bool.and_eq_true]
    exact ⟨hp.1, h.includesSource hp.2⟩
  · next hbinary =>
    rw [Bool.and_eq_true, Bool.and_eq_true] at hp
    rw [if_neg hbinary, Bool.and_eq_true, Bool.and_eq_true]
    exact ⟨⟨hp.1.1, h.includesBinary hp.1.2⟩, h.admits hp.2⟩

theorem mem_binariesFrom_of_widens {p : Package} (hp : p ∈ index.binariesFrom n narrow) :
    p ∈ index.binariesFrom n wide := by
  obtain ⟨hbuilt, hadmits⟩ := List.mem_filter.1 hp
  exact List.mem_filter.2 ⟨hbuilt, h.admits hadmits⟩

theorem mem_requirementsOfName_of_widens {a : Capability}
    (ha : a ∈ index.requirementsOfName reading narrow n) :
    a ∈ index.requirementsOfName reading wide n := by
  simp only [requirementsOfName, Std.ExtTreeSet.mem_ofList, List.contains_iff_mem,
    List.mem_flatMap, List.mem_append, List.mem_filter] at ha ⊢
  obtain ⟨p, ⟨hnamed, hcontributes⟩ | hbuilt, ha⟩ := ha
  · exact ⟨p, Or.inl ⟨hnamed, contributes_of_widens h hcontributes⟩, ha⟩
  · split at hbuilt
    · next hfollowed =>
      rw [Bool.and_eq_true] at hfollowed
      refine ⟨p, Or.inr ?_, ha⟩
      rw [if_pos (by rw [hfollowed.1, h.includesBinary hfollowed.2]; rfl)]
      exact mem_binariesFrom_of_widens h hbuilt
    · cases hbuilt

theorem mem_providersOfCapability_of_widens {a : Capability}
    (hm : m ∈ index.providersOfCapability narrow asSource a) :
    m ∈ index.providersOfCapability wide asSource a := by
  rw [mem_providersOfCapability] at hm ⊢
  obtain ⟨p, hp, hadmits, hm⟩ := hm
  exact ⟨p, hp, h.admits hadmits, hm⟩

theorem Needs.of_widens (hneeds : index.Needs narrow reading asSource n m) :
    index.Needs wide reading asSource n m := by
  obtain ⟨a, ha, hm⟩ := hneeds
  exact ⟨a, mem_requirementsOfName_of_widens h ha, mem_providersOfCapability_of_widens h hm⟩

theorem mem_archs_of_widens {d d' : Description}
    (hd : index.describeName? narrow asSource n = some d)
    (hd' : index.describeName? wide asSource n = some d') {a : Arch} (ha : a ∈ d.archs) :
    a ∈ d'.archs := by
  unfold describeName? at hd hd'
  split at hd
  · next hsource =>
    rw [if_pos hsource] at hd'
    obtain ⟨_, -, rfl⟩ := Option.map_eq_some_iff.1 hd
    obtain ⟨_, -, rfl⟩ := Option.map_eq_some_iff.1 hd'
    simp only [Std.ExtTreeSet.mem_ofList, List.contains_iff_mem, List.mem_map] at ha ⊢
    obtain ⟨p, hp, rfl⟩ := ha
    exact ⟨p, mem_binariesFrom_of_widens h hp, rfl⟩
  · next hbinary =>
    rw [if_neg hbinary] at hd'
    obtain ⟨_, -, rfl⟩ := Option.map_eq_some_iff.1 hd
    obtain ⟨_, -, rfl⟩ := Option.map_eq_some_iff.1 hd'
    simp only [Std.ExtTreeSet.mem_ofList, List.contains_iff_mem, List.mem_map, List.mem_filter,
      Bool.and_eq_true] at ha ⊢
    obtain ⟨p, ⟨hp, hkind, hadmits⟩, rfl⟩ := ha
    exact ⟨p, ⟨hp, hkind, h.admits hadmits⟩, rfl⟩

end BranchIndex

end BuildPlan
