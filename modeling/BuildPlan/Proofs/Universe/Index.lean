import BuildPlan.Proofs.Session.Evaluation
import BuildPlan.Proofs.Multimap

/-! # What an index answers

The branches of a universe are indexes of the branches of its snapshot. Whoever provides a
capability is on record as a package of the kind that is asked for.
-/
namespace BuildPlan

theorem Scope.admits_iff {scope : Scope} {a : Arch} :
    scope.admits a = true ↔ a = .src ∨ a ∈ scope.archs := by
  simp [admits]

theorem Package.newest?_eq_none_iff {packages : List Package} :
    Package.newest? packages = none ↔ packages = [] := by
  cases packages with
  | nil => simp [newest?]
  | cons p rest =>
    simp only [newest?, reduceCtorEq, iff_false]
    cases newest? rest <;> simp

theorem Package.mem_of_newest? {packages : List Package} {p : Package}
    (h : newest? packages = some p) : p ∈ packages := by
  induction packages generalizing p with
  | nil => cases h
  | cons q rest ih =>
    unfold newest? at h
    cases hrest : newest? rest with
    | none =>
      rw [hrest] at h
      exact List.mem_cons.2 (Or.inl (Option.some.inj h).symm)
    | some newest =>
      rw [hrest] at h
      obtain rfl := Option.some.inj h
      split
      · exact List.mem_cons_of_mem q (ih hrest)
      · exact List.mem_cons_self

namespace BranchIndex

theorem ofSnapshot_eq_ok {skipDebuginfo : Bool} {b : BranchSnapshot} {index : BranchIndex}
    (h : ofSnapshot skipDebuginfo b = .ok index) :
    index = ofPackages (keptPackages skipDebuginfo b) b := by
  unfold ofSnapshot at h
  split at h
  · cases h
  · exact (Except.ok.inj h).symm

section Packages

variable {packages : List Package} {b : BranchSnapshot} {p : Package}

theorem mem_named {n : PackageName} :
    p ∈ (ofPackages packages b).named.values n ↔ p ∈ packages ∧ p.name = n := by
  simp only [ofPackages, Multimap.mem_values_ofPairs, List.mem_map, Prod.mk.injEq]
  constructor
  · rintro ⟨q, hq, hname, rfl⟩
    exact ⟨hq, hname⟩
  · rintro ⟨hp, hname⟩
    exact ⟨p, hp, hname, rfl⟩

theorem mem_of_factsOf {kind : DependencyKind} {dependencies : List Dependency} {d : Dependency}
    (h : (d, p) ∈ factsOf kind packages dependencies) : p ∈ packages := by
  simp only [factsOf, List.mem_filterMap, Option.map_eq_some_iff, Prod.mk.injEq] at h
  obtain ⟨_, -, q, hq, -, rfl⟩ := h
  obtain ⟨_, hmem, hpair⟩ := List.mem_map.1 (mem_of_getElem?_ofList hq)
  obtain ⟨-, rfl⟩ := Prod.mk.inj hpair
  exact hmem

theorem mem_of_mem_providing {c : Capability}
    (h : p ∈ (ofPackages packages b).providing.values c) : p ∈ packages ∧ p.isSource = false := by
  simp only [ofPackages, Multimap.mem_values_ofPairs, List.mem_append, List.mem_map,
    List.mem_filter, Prod.mk.injEq, Bool.not_eq_true'] at h
  rcases h with ⟨q, ⟨hq, hbinary⟩, -, rfl⟩ | ⟨⟨d, q⟩, ⟨hfact, hbinary⟩, -, rfl⟩
  · exact ⟨hq, hbinary⟩
  · exact ⟨mem_of_factsOf hfact, hbinary⟩

theorem exists_of_owner? {n : PackageName} (h : (ofPackages packages b).owner? p = some n) :
    ∃ q ∈ packages, q.isSource = true ∧ q.name = n := by
  have hmem := mem_of_getElem?_ofList h
  simp only [List.mem_map, List.mem_filter, Prod.mk.injEq] at hmem
  obtain ⟨q, ⟨hq, hsource⟩, -, hname⟩ := hmem
  exact ⟨q, hq, hsource, hname⟩

end Packages

section Answers

variable {index : BranchIndex} {scope : Scope} {reading : NameReading} {asSource : Bool}

theorem mem_providersOfCapability {c : Capability} {m : PackageName} :
    m ∈ index.providersOfCapability scope asSource c ↔ ∃ p ∈ index.providing.values c,
      scope.admits p.arch = true ∧ (if asSource then index.owner? p else some p.name) = some m := by
  simp [providersOfCapability, and_assoc]

variable (index scope reading asSource) in
/-- One name needs another that provides something the first requires. -/
def Needs (n m : PackageName) : Prop :=
  ∃ c ∈ index.requirementsOfName reading scope n,
    m ∈ index.providersOfCapability scope asSource c

theorem mem_requirementsOfName_either {c : Capability} {n : PackageName}
    (h : c ∈ index.requirementsOfName .binary scope n) :
    c ∈ index.requirementsOfName .either scope n := by
  have hcontributes : ∀ p : Package, contributes .binary scope p = true →
      contributes .either scope p = true := by
    intro p
    cases hsource : p.isSource <;>
      simp [contributes, hsource, NameReading.coversSource, NameReading.coversBinary]
  simp only [requirementsOfName, Std.ExtTreeSet.mem_ofList, List.contains_iff_mem,
    List.mem_flatMap, List.mem_append, List.mem_filter] at h ⊢
  obtain ⟨p, hp | hp, hc⟩ := h
  · exact ⟨p, Or.inl ⟨hp.1, hcontributes p hp.2⟩, hc⟩
  · simp [NameReading.coversSource] at hp

theorem Needs.either {n m : PackageName} (h : index.Needs scope .binary asSource n m) :
    index.Needs scope .either asSource n m := by
  obtain ⟨c, hc, hm⟩ := h
  exact ⟨c, mem_requirementsOfName_either hc, hm⟩

theorem mem_range_requirementsOf {names : PackageSet} {c : Capability} :
    c ∈ SetMap.range (index.requirementsOf names reading scope) ↔
      ∃ n ∈ names, c ∈ index.requirementsOfName reading scope n := by
  simp [SetMap.mem_range, requirementsOf, SetMap.mem_values_tabulate]

theorem mem_range_providersOf {capabilities : CapabilitySet} {m : PackageName} :
    m ∈ SetMap.range (index.providersOf capabilities scope asSource) ↔
      ∃ c ∈ capabilities, m ∈ index.providersOfCapability scope asSource c := by
  simp [SetMap.mem_range, providersOf, SetMap.mem_values_tabulate]

end Answers

theorem exists_package_of_mem_providersOfCapability {packages : List Package} {b : BranchSnapshot}
    {scope : Scope} {asSource : Bool} {c : Capability} {m : PackageName}
    (h : m ∈ (ofPackages packages b).providersOfCapability scope asSource c) :
    ∃ p ∈ packages, p.name = m ∧ p.isSource = asSource ∧
      (asSource = false → scope.admits p.arch = true) := by
  obtain ⟨p, hp, hadmits, hm⟩ := mem_providersOfCapability.1 h
  cases asSource with
  | true =>
    obtain ⟨q, hq, hsource, hname⟩ := exists_of_owner? hm
    exact ⟨q, hq, hname, hsource, by simp⟩
  | false =>
    obtain ⟨hmem, hbinary⟩ := mem_of_mem_providing hp
    exact ⟨p, hmem, Option.some.inj hm, hbinary, fun _ => hadmits⟩

theorem isSome_describeName? {packages : List Package} {b : BranchSnapshot} {scope : Scope}
    {asSource : Bool} {c : Capability} {m : PackageName}
    (h : m ∈ (ofPackages packages b).providersOfCapability scope asSource c) :
    ((ofPackages packages b).describeName? scope asSource m).isSome := by
  obtain ⟨p, hp, hname, hkind, hadmits⟩ := exists_package_of_mem_providersOfCapability h
  have hnamed := mem_named (b := b).2 ⟨hp, hname⟩
  rw [Option.isSome_iff_ne_none]
  intro hnone
  unfold describeName? at hnone
  split at hnone
  · next hsource =>
    rw [Option.map_eq_none_iff, Package.newest?_eq_none_iff] at hnone
    exact List.not_mem_nil (hnone ▸ List.mem_filter.2 ⟨hnamed, by simpa [hsource] using hkind⟩)
  · next hbinary =>
    rw [Option.map_eq_none_iff, Package.newest?_eq_none_iff] at hnone
    simp only [Bool.not_eq_true] at hbinary
    refine List.not_mem_nil (hnone ▸ List.mem_filter.2 ⟨hnamed, ?_⟩)
    simp [hkind, hbinary, hadmits hbinary]

theorem package_of_describeName? {packages : List Package} {b : BranchSnapshot} {scope : Scope}
    {asSource : Bool} {n : PackageName} {d : Description}
    (h : (ofPackages packages b).describeName? scope asSource n = some d) :
    d.package ∈ packages ∧ d.package.name = n ∧ d.package.isSource = asSource := by
  unfold describeName? at h
  split at h
  · next hsource =>
    obtain ⟨p, hp, rfl⟩ := Option.map_eq_some_iff.1 h
    obtain ⟨hnamed, hkind⟩ := List.mem_filter.1 (Package.mem_of_newest? hp)
    obtain ⟨hmem, hname⟩ := mem_named.1 hnamed
    exact ⟨hmem, hname, hkind.trans hsource.symm⟩
  · next hbinary =>
    obtain ⟨p, hp, rfl⟩ := Option.map_eq_some_iff.1 h
    obtain ⟨hnamed, hkind⟩ := List.mem_filter.1 (Package.mem_of_newest? hp)
    obtain ⟨hmem, hname⟩ := mem_named.1 hnamed
    simp only [Bool.and_eq_true, Bool.not_eq_true'] at hkind
    exact ⟨hmem, hname, hkind.1.trans (Bool.eq_false_iff.2 hbinary).symm⟩

theorem getElem?_describe {index : BranchIndex} {scope : Scope} {asSource : Bool}
    {names : PackageSet} {n : PackageName} {d : Description} :
    (index.describe names scope asSource)[n]? = some d ↔
      n ∈ names ∧ index.describeName? scope asSource n = some d := by
  have hkeys : ((names.toList.filterMap fun n =>
      (index.describeName? scope asSource n).map fun d => (n, d)).map Prod.fst).Nodup := by
    rw [List.Nodup, List.pairwise_map, List.pairwise_filterMap]
    refine (nodup_toList names).imp fun hne p hp q hq => ?_
    simp only [Option.map_eq_some_iff] at hp hq
    obtain ⟨_, -, rfl⟩ := hp
    obtain ⟨_, -, rfl⟩ := hq
    exact hne
  rw [describe, getElem?_ofList_eq_some_iff hkeys]
  simp only [List.mem_filterMap, Std.ExtTreeSet.mem_toList, Option.map_eq_some_iff, Prod.mk.injEq]
  constructor
  · rintro ⟨_, hn, _, hd, rfl, rfl⟩
    exact ⟨hn, hd⟩
  · rintro ⟨hn, hd⟩
    exact ⟨n, hn, d, hd, rfl, rfl⟩

theorem getElem?_describe_of_mem {index : BranchIndex} {scope : Scope} {asSource : Bool}
    {names : PackageSet} {n : PackageName} (h : n ∈ names) :
    (index.describe names scope asSource)[n]? = index.describeName? scope asSource n :=
  Option.ext fun _ => getElem?_describe.trans (and_iff_right h)

theorem mem_describe {index : BranchIndex} {scope : Scope} {asSource : Bool}
    {names : PackageSet} {n : PackageName} :
    n ∈ index.describe names scope asSource ↔
      n ∈ names ∧ (index.describeName? scope asSource n).isSome = true := by
  rw [Std.ExtTreeMap.mem_iff_isSome_getElem?, Option.isSome_iff_exists, Option.isSome_iff_exists]
  simp only [getElem?_describe, exists_and_left]

end BranchIndex

namespace Universe

variable {u : Universe}

theorem exists_of_branch {skipDebuginfo : Bool} {s : Snapshot}
    (h : ofSnapshot skipDebuginfo s = .ok u) {name : String} {index : BranchIndex}
    (hbranch : u.branches[name]? = some index) :
    ∃ b ∈ s.branches, Text.lowerCase b.name = name ∧
      index = .ofPackages (BranchIndex.keptPackages skipDebuginfo b) b := by
  obtain ⟨entries, hentries, hu⟩ := bind_eq_ok_iff.1 h
  obtain rfl := Except.ok.inj hu
  have hmem := mem_of_getElem?_ofList hbranch
  obtain ⟨b, hb, hentry⟩ := exists_of_mem_mapM hentries hmem
  obtain ⟨index', hindex, hpair⟩ := bind_eq_ok_iff.1 hentry
  obtain ⟨rfl, rfl⟩ := Prod.mk.inj (Except.ok.inj hpair)
  exact ⟨b, hb, rfl, BranchIndex.ofSnapshot_eq_ok hindex⟩

theorem ofSnapshot_singleton {skipDebuginfo : Bool} {b : BranchSnapshot} {name : String}
    (hhash : firstRepeated? ∅ (b.packages.map (·.hash)) = none)
    (hname : Text.lowerCase b.name = name) : ofSnapshot skipDebuginfo ⟨[b]⟩ =
      .ok ⟨.ofList
        [(name, BranchIndex.ofPackages (BranchIndex.keptPackages skipDebuginfo b) b)]⟩ := by
  simp [ofSnapshot, BranchIndex.ofSnapshot, hhash, hname, pure, Except.pure, bind, Except.bind]

theorem branch_eq_ok_iff {name : String} {index : BranchIndex} :
    u.branch name = .ok index ↔ u.branches[name]? = some index := by
  unfold branch
  cases u.branches[name]? <;> simp

theorem mem_packageNames {n : PackageName} : n ∈ u.packageNames ↔
    ∃ (name : String) (index : BranchIndex),
      u.branches[name]? = some index ∧ ∃ p ∈ index.packages, p.name = n := by
  have h := mem_foldl_union
    (fun e : String × BranchIndex => .ofList (e.2.packages.map (·.name))) u.branches.toList ∅ n
  simpa [packageNames] using h

end Universe

end BuildPlan
