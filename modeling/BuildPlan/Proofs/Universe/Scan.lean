import BuildPlan.Proofs.Universe.Sight
import BuildPlan.Snapshot.Builder
import Mathlib.Data.List.Duplicate

/-! # Answers by scanning

Whatever tables an index keeps, its answers are those of a plain scan of the branch: which packages
are behind a name or provide a capability can be told from the packages and facts as they are
stored. Nothing is told of packages that are left out for their debug symbols. A snapshot is not
indexed at all if a branch has two packages with one hash, even if one of them would be left out.
-/
namespace BuildPlan

/-- The package is not left out for its debug symbols. -/
def Package.IsShown (skipDebuginfo : Bool) (p : Package) : Prop :=
  skipDebuginfo = true → p.isDebuginfo = false

instance {skipDebuginfo : Bool} {p : Package} : Decidable (p.IsShown skipDebuginfo) :=
  inferInstanceAs (Decidable (skipDebuginfo = true → p.isDebuginfo = false))

namespace BranchSnapshot

variable (b : BranchSnapshot) (skipDebuginfo : Bool) (scope : Scope)

/-- What the package requires counts for the name: it is a source of that name, or a binary of that
name or built from it, whichever of them are asked about. -/
def Behind (reading : NameReading) (n : PackageName) (p : Package) : Prop :=
  p.isSource = true ∧ p.name = n ∧ reading.coversSource = true ∧
      scope.dependencyType.includesSource = true ∨
    p.IsBinaryIn b.packages scope ∧ scope.dependencyType.includesBinary = true ∧
      (reading.coversBinary = true ∧ p.name = n ∨
        reading.coversSource = true ∧ p.BuiltFrom b.packages n)

instance {reading : NameReading} {n : PackageName} {p : Package} :
    Decidable (b.Behind scope reading n p) :=
  inferInstanceAs (Decidable (_ ∧ _ ∧ _ ∨ _ ∧ _ ∧ (_ ∨ _)))

/-- A package behind the name requires the capability. -/
def Requires (reading : NameReading) (n : PackageName) (a : Capability) : Prop :=
  ∃ p ∈ b.packages, p.IsShown skipDebuginfo ∧ b.Behind scope reading n p ∧ b.States .require p a

instance {reading : NameReading} {n : PackageName} {a : Capability} :
    Decidable (b.Requires skipDebuginfo scope reading n a) :=
  inferInstanceAs (Decidable (∃ p ∈ b.packages, p.IsShown skipDebuginfo ∧
    b.Behind scope reading n p ∧ b.States .require p a))

/-- A binary of that name, or one built from a source of that name, provides the capability. -/
def ProvidedBy (asSource : Bool) (a : Capability) (n : PackageName) : Prop :=
  ∃ p ∈ b.packages, p.IsShown skipDebuginfo ∧ p.IsBinaryIn b.packages scope ∧ b.Provides p a ∧
    if asSource then p.BuiltFrom b.packages n else p.name = n

instance {asSource : Bool} {a : Capability} {n : PackageName} :
    Decidable (b.ProvidedBy skipDebuginfo scope asSource a n) :=
  inferInstanceAs (Decidable (∃ p ∈ b.packages, p.IsShown skipDebuginfo ∧
    p.IsBinaryIn b.packages scope ∧ b.Provides p a ∧
      if asSource then p.BuiltFrom b.packages n else p.name = n))

/-- A binary of that name was built from one of the sources. -/
def Builds (sources : PackageSet) (n : PackageName) : Prop :=
  ∃ p ∈ b.packages, p.IsShown skipDebuginfo ∧ p.IsBinaryIn b.packages scope ∧
    (∃ source ∈ sources, p.BuiltFrom b.packages source) ∧ p.name = n

end BranchSnapshot

section Kept

variable {b : BranchSnapshot} {skipDebuginfo : Bool} {scope : Scope} {p : Package}

theorem BranchIndex.mem_keptPackages :
    p ∈ keptPackages skipDebuginfo b ↔ p ∈ b.packages ∧ p.IsShown skipDebuginfo := by
  cases skipDebuginfo <;> simp [keptPackages, Package.IsShown]

theorem Package.source?_keptPackages (skipDebuginfo : Bool) (p : Package) :
    p.source? (BranchIndex.keptPackages skipDebuginfo b) = p.source? b.packages := by
  rw [source?, source?, BranchIndex.keptPackages, List.filter_filter]
  congr 1
  apply List.filter_congr
  intro q _
  cases hsource : q.isSource <;> simp [isDebuginfo, hsource]

end Kept

/-! ### Indexes -/

namespace BranchIndex.Represents

variable {b : BranchSnapshot} {skipDebuginfo : Bool} {scope : Scope} {reading : NameReading}
  {index : BranchIndex} {n m : PackageName} {a : Capability}
  (h : index.Represents (keptPackages skipDebuginfo b) b)
include h

theorem mem_requirementsOfName_iff : a ∈ index.requirementsOfName reading scope n ↔
    b.Requires skipDebuginfo scope reading n a := by
  have hbehind : ∀ p ∈ b.packages, (p.SeenIn scope ∧
      (p.name = n ∧ contributes reading scope p = true ∨
        (reading.coversSource && scope.dependencyType.includesBinary) = true ∧
          p.isSource = false ∧ p.BuiltFrom b.packages n ∧ scope.admits p.arch = true)) ↔
      b.Behind scope reading n p := by
    intro p hp
    cases hsource : p.isSource
    · simp only [BranchSnapshot.Behind, Package.isBinaryIn_iff, Package.SeenIn, contributes,
        hsource, hp, Bool.and_eq_true]
      grind
    · simp [BranchSnapshot.Behind, Package.isBinaryIn_iff, Package.SeenIn, contributes, hsource]
  rw [h.mem_requirementsOfName]
  simp only [Package.source?_keptPackages, mem_keptPackages]
  constructor
  · rintro ⟨p, ⟨hp, hshown⟩, hseen, hstates, hrole⟩
    exact ⟨p, hp, hshown, (hbehind p hp).1 ⟨hseen, hrole⟩, hstates⟩
  · rintro ⟨p, hp, hshown, hp', hstates⟩
    obtain ⟨hseen, hrole⟩ := (hbehind p hp).2 hp'
    exact ⟨p, ⟨hp, hshown⟩, hseen, hstates, hrole⟩

theorem mem_providersOfCapability_iff {asSource : Bool} :
    m ∈ index.providersOfCapability scope asSource a ↔
      b.ProvidedBy skipDebuginfo scope asSource a m := by
  have hname : ∀ p : Package, (if asSource then (p.source? b.packages).map (·.name)
      else some p.name) = some m ↔
        if asSource then p.BuiltFrom b.packages m else p.name = m := by
    intro p
    cases asSource <;> simp [Package.BuiltFrom]
  simp only [h.mem_providersOfCapability, Package.source?_keptPackages, hname, mem_keptPackages]
  constructor
  · rintro ⟨p, ⟨hp, hshown⟩, -, hbinary, hadmits, hprovides, hm⟩
    exact ⟨p, hp, hshown, ⟨hp, hbinary, hadmits⟩, hprovides, hm⟩
  · rintro ⟨p, hp, hshown, hbinary, hprovides, hm⟩
    exact ⟨p, ⟨hp, hshown⟩, Or.inr hbinary.admits, hbinary.binary, hbinary.admits, hprovides, hm⟩

theorem mem_binariesOf_iff {sources : PackageSet} :
    m ∈ index.binariesOf sources scope ↔ b.Builds skipDebuginfo scope sources m := by
  simp only [binariesOf, Std.ExtTreeSet.mem_ofList, List.contains_iff_mem, List.mem_map,
    List.mem_flatMap, Std.ExtTreeSet.mem_toList, h.mem_binariesFrom, mem_keptPackages,
    Package.source?_keptPackages]
  constructor
  · rintro ⟨p, ⟨n, hn, ⟨hp, hshown⟩, hbinary, hbuilt, hadmits⟩, hname⟩
    exact ⟨p, hp, hshown, ⟨hp, hbinary, hadmits⟩, ⟨n, hn, hbuilt⟩, hname⟩
  · rintro ⟨p, hp, hshown, hbinary, ⟨n, hn, hbuilt⟩, hname⟩
    exact ⟨p, ⟨n, hn, ⟨hp, hshown⟩, hbinary.binary, hbuilt, hbinary.admits⟩, hname⟩

end BranchIndex.Represents

/-! ### Snapshots that are not indexed -/

theorem duplicate_of_firstRepeated? {seen : Std.ExtTreeSet PackageHash}
    {hashes : List PackageHash} {hash : PackageHash}
    (h : firstRepeated? seen hashes = some hash) :
    hash ∈ seen ∧ hash ∈ hashes ∨ hashes.Duplicate hash := by
  induction hashes generalizing seen with
  | nil => cases h
  | cons first rest ih =>
    unfold firstRepeated? at h
    split at h
    · next hseen =>
      obtain rfl := Option.some.inj h
      exact Or.inl ⟨hseen, List.mem_cons_self⟩
    · rcases ih h with ⟨hinsert, hrest⟩ | hrest
      · rcases Std.ExtTreeSet.mem_insert.1 hinsert with hfirst | hseen
        · obtain rfl := Std.LawfulEqCmp.eq_of_compare hfirst
          exact Or.inr (List.duplicate_cons_self_iff.2 hrest)
        · exact Or.inl ⟨hseen, List.mem_cons_of_mem _ hrest⟩
      · exact Or.inr (hrest.duplicate_cons first)

theorem BranchIndex.duplicate_of_ofSnapshot_eq_error {skipDebuginfo : Bool} {b : BranchSnapshot}
    {e : UniverseError} (h : ofSnapshot skipDebuginfo b = .error e) :
    ∃ hash, (b.packages.map (·.hash)).Duplicate hash ∧
      e = .malformed ("duplicate package hash " ++ hash.text ++ " in branch " ++ b.name) := by
  unfold ofSnapshot at h
  split at h
  · next hash hrepeated =>
    refine ⟨hash, ?_, (Except.error.inj h).symm⟩
    exact (duplicate_of_firstRepeated? hrepeated).resolve_left fun hseen =>
      Std.ExtTreeSet.not_mem_empty hseen.1
  · cases h

namespace Universe

variable {skipDebuginfo : Bool} {s : Snapshot} {u : Universe} {scope : Scope} {b : BranchSnapshot}

theorem exists_duplicate_of_ofSnapshot_eq_error {e : UniverseError}
    (h : ofSnapshot skipDebuginfo s = .error e) :
    ∃ b ∈ s.branches, ∃ hash, (b.packages.map (·.hash)).Duplicate hash ∧
      e = .malformed ("duplicate package hash " ++ hash.text ++ " in branch " ++ b.name) := by
  rcases bind_eq_error_iff.1 h with hbranches | ⟨_, -, hnone⟩
  · obtain ⟨b, hb, hbranch⟩ := exists_of_mapM_eq_error hbranches
    rcases bind_eq_error_iff.1 hbranch with hindex | ⟨_, -, hnone⟩
    · exact ⟨b, hb, BranchIndex.duplicate_of_ofSnapshot_eq_error hindex⟩
    · cases hnone
  · cases hnone

theorem exists_error_iff_duplicate : (∃ e, ofSnapshot skipDebuginfo s = .error e) ↔
    ∃ b ∈ s.branches, ∃ hash, (b.packages.map (·.hash)).Duplicate hash := by
  constructor
  · rintro ⟨e, he⟩
    obtain ⟨b, hb, hash, hhash, -⟩ := exists_duplicate_of_ofSnapshot_eq_error he
    exact ⟨b, hb, hash, hhash⟩
  · rintro ⟨b, hb, hash, hhash⟩
    cases hu : ofSnapshot skipDebuginfo s with
    | error e => exact ⟨e, rfl⟩
    | ok u => exact absurd (nodup_hash_of_mem hu hb) hhash.not_nodup

/-! ### Answers -/

/-- The index of a branch that goes by some name tells of its packages, less those left out. -/
theorem exists_represents (hu : ofSnapshot skipDebuginfo s = .ok u) {name : String}
    (hb : s.branch? name = some b) : ∃ index, u.branch name = .ok index ∧
      index.Represents (BranchIndex.keptPackages skipDebuginfo b) b := by
  refine ⟨.ofPackages (BranchIndex.keptPackages skipDebuginfo b) b, ?_, ?_⟩
  · rw [branch_eq_ok_iff, getElem?_branches hu, hb]
    rfl
  · exact BranchIndex.represents_ofPackages (nodup_hash_of_branch? hu hb)

/-- Asked what names require, a universe tabulates what a scan of the branch finds. -/
theorem requirementsOf_eq_scan (hu : ofSnapshot skipDebuginfo s = .ok u)
    (hb : s.branch? scope.branch = some b) (names : PackageSet) (reading : NameReading) :
    ∃ requirements, u.requirementsOf names reading scope = .ok requirements ∧
      requirements.Tabulates names (b.Requires skipDebuginfo scope reading) := by
  obtain ⟨index, hindex, hrepresents⟩ := exists_represents hu hb
  refine ⟨_, requirementsOf_eq hindex names reading, ?_⟩
  exact SetMap.tabulates_tabulate fun n a => hrepresents.mem_requirementsOfName_iff

/-- Two sources of one archive, with binaries for two architectures and one for debugging. There is
a binary of which no source is known, and a fact about no package. -/
def crowdedBranch : BranchSnapshot :=
  let b := (SnapshotBuilder.start "Sisyphus"
    |>.source "lib" ["cc"]
    |>.binary "lib" "lib" .x86_64 ["libc"] ["lib.so"]
    |>.binary "lib" "lib-debuginfo" .x86_64 ["gdb"] ["lib.debug"]
    |>.binary "lib" "lib" .aarch64 ["libm"] ["lib.so"]
    |>.add "twin" .src true (SnapshotBuilder.archive "lib") ["make"] []
    |>.binary "stray" "lib" .noarch ["sh"] []).current
  { b with dependencies := b.dependencies ++ [⟨⟨99⟩, ⟨"lib"⟩, "", 0, .provide⟩] }

def crowdedScope : Scope := .ofArchs "sisyphus" [.x86_64] .both

theorem ofSnapshot_crowdedBranch (skipDebuginfo : Bool) :
    ofSnapshot skipDebuginfo ⟨[crowdedBranch]⟩ = .ok ⟨.ofList [("sisyphus",
      BranchIndex.ofPackages (BranchIndex.keptPackages skipDebuginfo crowdedBranch)
        crowdedBranch)]⟩ :=
  ofSnapshot_singleton (by decide +kernel) (by decide +kernel)

theorem branch?_crowdedBranch :
    Snapshot.branch? ⟨[crowdedBranch]⟩ crowdedScope.branch = some crowdedBranch :=
  Snapshot.branch?_singleton (by decide +kernel)

/-- The archive of `lib` is that of `twin`, which comes later and so owns the binaries built from
it. -/
theorem requirementsOf_eq_scan_crowded :
    let names : PackageSet := .ofList (["lib", "twin"].map PackageName.mk)
    ∃ u requirements, ofSnapshot true ⟨[crowdedBranch]⟩ = .ok u ∧
      u.requirementsOf names .source crowdedScope = .ok requirements ∧
      ⟨"cc"⟩ ∈ SetMap.values requirements ⟨"lib"⟩ ∧
      ⟨"libc"⟩ ∈ SetMap.values requirements ⟨"twin"⟩ ∧
      ⟨"libc"⟩ ∉ SetMap.values requirements ⟨"lib"⟩ ∧
      ⟨"gdb"⟩ ∉ SetMap.values requirements ⟨"twin"⟩ ∧
      ⟨"libm"⟩ ∉ SetMap.values requirements ⟨"twin"⟩ := by
  intro names
  have hu := ofSnapshot_crowdedBranch true
  obtain ⟨requirements, heq, htabulates⟩ :=
    requirementsOf_eq_scan hu branch?_crowdedBranch names .source
  refine ⟨_, requirements, hu, heq, ?_⟩
  simp only [htabulates.mem_values_iff]
  decide +kernel

/-- A snapshot is indexed unless a branch repeats a hash, and then a universe tells which names a
scan of the branch finds to provide a capability, and which to be built. -/
theorem providersOf_and_binariesOf_eq_scan (skipDebuginfo : Bool) (s : Snapshot) :
    ((∃ e, ofSnapshot skipDebuginfo s = .error e) ↔
      ∃ b ∈ s.branches, ∃ hash, (b.packages.map (·.hash)).Duplicate hash) ∧
    ∀ u, ofSnapshot skipDebuginfo s = .ok u → ∀ scope b, s.branch? scope.branch = some b →
      (∀ capabilities asSource, ∃ providers,
        u.providersOf capabilities scope asSource = .ok providers ∧
          providers.Tabulates capabilities (b.ProvidedBy skipDebuginfo scope asSource)) ∧
      ∀ sources, ∃ binaries, u.binariesOf sources scope = .ok binaries ∧
        ∀ n, n ∈ binaries ↔ b.Builds skipDebuginfo scope sources n := by
  refine ⟨exists_error_iff_duplicate, fun u hu scope b hb => ?_⟩
  obtain ⟨index, hindex, hrepresents⟩ := exists_represents hu hb
  constructor
  · intro capabilities asSource
    refine ⟨_, providersOf_eq hindex capabilities asSource, ?_⟩
    exact SetMap.tabulates_tabulate fun a n => hrepresents.mem_providersOfCapability_iff
  · intro sources
    exact ⟨_, binariesOf_eq hindex sources, fun n => hrepresents.mem_binariesOf_iff⟩

/-- What is built from `lib` is owned by `twin`. The snapshot is refused if a package is in it
twice, even one that would be left out. -/
theorem providersOf_and_binariesOf_eq_scan_crowded :
    let capabilities : CapabilitySet := .ofList (["lib", "lib.so", "lib.debug"].map Capability.mk)
    let sources : PackageSet := .ofList [PackageName.mk "twin"]
    let hidden := crowdedBranch.packages.filter (·.isDebuginfo)
    let doubled := { crowdedBranch with packages := crowdedBranch.packages ++ hidden }
    (∃ e, ofSnapshot true ⟨[doubled]⟩ = .error e) ∧
    ∃ u providers binaries, ofSnapshot true ⟨[crowdedBranch]⟩ = .ok u ∧
      u.providersOf capabilities crowdedScope true = .ok providers ∧
      ⟨"twin"⟩ ∈ SetMap.values providers ⟨"lib.so"⟩ ∧
      ⟨"twin"⟩ ∈ SetMap.values providers ⟨"lib"⟩ ∧
      ⟨"lib"⟩ ∉ SetMap.values providers ⟨"lib"⟩ ∧
      ⟨"twin"⟩ ∉ SetMap.values providers ⟨"lib.debug"⟩ ∧
      u.binariesOf sources crowdedScope = .ok binaries ∧ ⟨"lib"⟩ ∈ binaries := by
  intro capabilities sources hidden doubled
  have hdouble : ∃ hash, (doubled.packages.map (·.hash)).Duplicate hash :=
    ⟨⟨3⟩, List.duplicate_iff_two_le_count.2 (by decide +kernel)⟩
  obtain ⟨hfails, -⟩ := providersOf_and_binariesOf_eq_scan true ⟨[doubled]⟩
  refine ⟨hfails.2 ⟨doubled, List.mem_singleton_self _, hdouble⟩, ?_⟩
  obtain ⟨-, hscans⟩ := providersOf_and_binariesOf_eq_scan true ⟨[crowdedBranch]⟩
  obtain ⟨hproviders, hbinaries⟩ :=
    hscans _ (ofSnapshot_crowdedBranch true) _ _ branch?_crowdedBranch
  obtain ⟨providers, hproviders, htabulates⟩ := hproviders capabilities true
  obtain ⟨binaries, hbinaries, hmem⟩ := hbinaries sources
  have hbuilt : ∃ p ∈ crowdedBranch.packages, p.IsShown true ∧
      p.IsBinaryIn crowdedBranch.packages crowdedScope ∧
        p.BuiltFrom crowdedBranch.packages ⟨"twin"⟩ ∧ p.name = ⟨"lib"⟩ := by
    decide +kernel
  obtain ⟨p, hp, hshown, hbinary, htwin, hname⟩ := hbuilt
  refine ⟨_, providers, binaries, ofSnapshot_crowdedBranch true, hproviders, ?_⟩
  simp only [htabulates.mem_values_iff, hmem]
  refine ⟨by decide +kernel, by decide +kernel, by decide +kernel, by decide +kernel, hbinaries,
    p, hp, hshown, hbinary, ⟨⟨"twin"⟩, by decide +kernel, htwin⟩, hname⟩

end Universe

end BuildPlan
