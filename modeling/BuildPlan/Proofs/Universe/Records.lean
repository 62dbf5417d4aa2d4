import BuildPlan.Proofs.Universe.Index

/-! # What a snapshot says

The answers of an index are about the packages and facts of its branch: a capability is required by
those packages of which a fact says so, and provided by the binaries that have its name or of which
a fact says so. A binary belongs to the last source package of its archive, and a name to the last
branch that has it.
-/
namespace BuildPlan

@[simp] theorem Scope.admits_withDependencyType (scope : Scope) (t : DependencyType) (a : Arch) :
    (scope.withDependencyType t).admits a = scope.admits a := rfl

@[simp] theorem Scope.dependencyType_withDependencyType (scope : Scope) (t : DependencyType) :
    (scope.withDependencyType t).dependencyType = t := rfl

/-- The branch of a snapshot that goes by a name. -/
def Snapshot.branch? (s : Snapshot) (name : String) : Option BranchSnapshot :=
  (s.branches.filter fun b => Text.lowerCase b.name == name).getLast?

theorem Snapshot.mem_of_branch? {s : Snapshot} {name : String} {b : BranchSnapshot}
    (h : s.branch? name = some b) : b ∈ s.branches :=
  List.mem_of_mem_filter (List.mem_of_getLast? h)

theorem Snapshot.branch?_singleton {b : BranchSnapshot} {name : String}
    (h : Text.lowerCase b.name = name) : branch? ⟨[b]⟩ name = some b := by
  simp [branch?, h]

/-- Of the branches with one lower-case name the last one goes by it. -/
theorem Snapshot.branch?_of_append {s : Snapshot} {b : BranchSnapshot}
    {earlier later : List BranchSnapshot} (h : s.branches = earlier ++ b :: later)
    (hlast : ∀ b' ∈ later, Text.lowerCase b'.name ≠ Text.lowerCase b.name) :
    s.branch? (Text.lowerCase b.name) = some b := by
  have hnone : later.filter (fun b' => Text.lowerCase b'.name == Text.lowerCase b.name) = [] := by
    simpa using hlast
  simp [branch?, h, List.filter_append, hnone]

theorem Snapshot.lowerCase_of_branch? {s : Snapshot} {name : String} {b : BranchSnapshot}
    (h : s.branch? name = some b) : Text.lowerCase b.name = name :=
  beq_iff_eq.1 (List.mem_filter.1 (List.mem_of_getLast? h)).2

section Options

variable {α β : Type} {r : α → β → Prop} {o : Option α} {o' : Option β}

theorem exists_of_rel_left (h : Option.Rel r o o') {a : α} (ha : o = some a) :
    ∃ b, o' = some b ∧ r a b := by
  subst ha
  cases h with
  | some hab => exact ⟨_, rfl, hab⟩

theorem exists_of_rel_right (h : Option.Rel r o o') {b : β} (hb : o' = some b) :
    ∃ a, o = some a ∧ r a b := by
  subst hb
  cases h with
  | some hab => exact ⟨_, rfl, hab⟩

theorem rel_of_rel {r' : α → β → Prop} (h : Option.Rel r o o')
    (hr : ∀ a b, o = some a → o' = some b → r a b → r' a b) : Option.Rel r' o o' := by
  cases h with
  | none => exact .none
  | some hab => exact .some (hr _ _ rfl rfl hab)

end Options

/-- If the branches of snapshots correspond to each other, so do those that go by a name. -/
theorem Snapshot.rel_branch? {r : BranchSnapshot → BranchSnapshot → Prop}
    (hname : ∀ b b', r b b' → b'.name = b.name) {s s' : Snapshot}
    (h : List.Forall₂ r s.branches s'.branches) (name : String) :
    Option.Rel r (s.branch? name) (s'.branch? name) := by
  have hsame : ∀ b b', r b b' →
      (Text.lowerCase b.name == name ↔ Text.lowerCase b'.name == name) := by
    intro b b' hb
    rw [hname b b' hb]
  have hreverse := List.forall₂_reverse_iff.2 (List.rel_filter (fun b b' => hsame b b') h)
  rw [branch?, branch?, ← List.head?_reverse, ← List.head?_reverse]
  generalize (s.branches.filter _).reverse = l at hreverse ⊢
  generalize (s'.branches.filter _).reverse = l' at hreverse ⊢
  cases hreverse with
  | nil => exact .none
  | cons hb _ => exact .some hb

namespace Package

/-- The source package that a package was built from. -/
def source? (packages : List Package) (p : Package) : Option Package :=
  (packages.filter fun q => q.isSource && q.sourceRpm == p.sourceRpm).getLast?

/-- One of the binaries that a scope admits. -/
structure IsBinaryIn (packages : List Package) (scope : Scope) (q : Package) : Prop where
  mem : q ∈ packages
  binary : q.isSource = false
  admits : scope.admits q.arch = true

theorem isBinaryIn_iff {packages : List Package} {scope : Scope} {q : Package} :
    q.IsBinaryIn packages scope ↔
      q ∈ packages ∧ q.isSource = false ∧ scope.admits q.arch = true :=
  ⟨fun h => ⟨h.mem, h.binary, h.admits⟩, fun ⟨hmem, hbinary, hadmits⟩ => ⟨hmem, hbinary, hadmits⟩⟩

instance {packages : List Package} {scope : Scope} {q : Package} :
    Decidable (q.IsBinaryIn packages scope) :=
  decidable_of_iff _ isBinaryIn_iff.symm

/-- The source package that this one was built from has a name. -/
def BuiltFrom (packages : List Package) (source : PackageName) (q : Package) : Prop :=
  (q.source? packages).map (·.name) = some source

instance {packages : List Package} {source : PackageName} {q : Package} :
    Decidable (q.BuiltFrom packages source) :=
  inferInstanceAs (Decidable ((q.source? packages).map (·.name) = some source))

end Package

namespace BranchSnapshot

variable (b : BranchSnapshot)

/-- A fact of the branch is about a package and a capability. -/
def States (kind : DependencyKind) (p : Package) (a : Capability) : Prop :=
  ∃ d ∈ b.dependencies, d.kind = kind ∧ d.subject = p.hash ∧ d.name = a

instance {kind : DependencyKind} {p : Package} {a : Capability} : Decidable (b.States kind p a) :=
  inferInstanceAs
    (Decidable (∃ d ∈ b.dependencies, d.kind = kind ∧ d.subject = p.hash ∧ d.name = a))

/-- A binary provides its own name, and what the branch says. -/
def Provides (p : Package) (a : Capability) : Prop :=
  .ofPackage p.name = a ∨ b.States .provide p a

instance {p : Package} {a : Capability} : Decidable (b.Provides p a) :=
  inferInstanceAs (Decidable (.ofPackage p.name = a ∨ b.States .provide p a))

end BranchSnapshot

theorem firstRepeated?_eq_none_iff {seen : Std.ExtTreeSet PackageHash}
    {hashes : List PackageHash} :
    firstRepeated? seen hashes = none ↔ hashes.Nodup ∧ ∀ h ∈ hashes, h ∉ seen := by
  induction hashes generalizing seen with
  | nil => simp [firstRepeated?]
  | cons h rest ih =>
    unfold firstRepeated?
    by_cases hseen : h ∈ seen
    · simp [hseen]
    · rw [if_neg (by simpa using hseen), ih]
      simp only [Std.ExtTreeSet.mem_insert, Std.LawfulEqCmp.compare_eq_iff_eq, List.nodup_cons,
        List.mem_cons, forall_eq_or_imp]
      grind

namespace BranchIndex

variable {skipDebuginfo : Bool} {b : BranchSnapshot}

theorem ofSnapshot_eq_ok_iff {index : BranchIndex} : ofSnapshot skipDebuginfo b = .ok index ↔
    (b.packages.map (·.hash)).Nodup ∧ index = ofPackages (keptPackages skipDebuginfo b) b := by
  have hnone : firstRepeated? ∅ (b.packages.map (·.hash)) = none ↔
      (b.packages.map (·.hash)).Nodup := by
    rw [firstRepeated?_eq_none_iff]
    exact and_iff_left fun _ _ => Std.ExtTreeSet.not_mem_empty
  rw [← hnone]
  unfold ofSnapshot
  split
  · next h => simp [h]
  · next h => simp [h, eq_comm]

theorem nodup_hash_keptPackages (h : (b.packages.map (·.hash)).Nodup) :
    ((keptPackages skipDebuginfo b).map (·.hash)).Nodup :=
  h.sublist (List.filter_sublist.map _)

variable {packages : List Package} (hhash : (packages.map (·.hash)).Nodup)

theorem owner?_eq_map_source? (p : Package) :
    (ofPackages packages b).owner? p = (p.source? packages).map (·.name) := by
  have hfilter : ((packages.filter (·.isSource)).map fun q => (q.sourceRpm, q.name)).filter
      (fun e => e.1 == p.sourceRpm) =
        (packages.filter fun q => q.isSource && q.sourceRpm == p.sourceRpm).map
          fun q => (q.sourceRpm, q.name) := by
    rw [List.filter_map, List.filter_filter]
    congr 1
    exact List.filter_congr fun q _ => Bool.and_comm ..
  simp only [owner?, ofPackages, sourcesOf, Package.source?]
  rw [getElem?_ofList_eq_getLast?, hfilter, List.getLast?_map, Option.map_map]
  rfl

theorem mem_builtFrom {p : Package} {n : PackageName} :
    p ∈ (ofPackages packages b).builtFrom.values n ↔ p ∈ packages ∧ p.isSource = false ∧
      (p.source? packages).map (·.name) = some n := by
  rw [← owner?_eq_map_source? (b := b)]
  simp only [ofPackages, owner?, Multimap.mem_values_ofPairs, List.mem_filterMap, List.mem_filter,
    Option.map_eq_some_iff, Prod.mk.injEq, Bool.not_eq_true']
  constructor
  · rintro ⟨q, ⟨hq, hbinary⟩, _, hsource, rfl, rfl⟩
    exact ⟨hq, hbinary, hsource⟩
  · rintro ⟨hp, hbinary, hsource⟩
    exact ⟨p, ⟨hp, hbinary⟩, n, hsource, rfl, rfl⟩

theorem mem_binariesFrom {p : Package} {n : PackageName} {scope : Scope} :
    p ∈ (ofPackages packages b).binariesFrom n scope ↔ p ∈ packages ∧ p.isSource = false ∧
      (p.source? packages).map (·.name) = some n ∧ scope.admits p.arch = true := by
  rw [binariesFrom, List.mem_filter, mem_builtFrom, and_assoc, and_assoc]

theorem mem_binariesOf {source m : PackageName} {scope : Scope} :
    m ∈ (ofPackages packages b).binariesOf (.ofList [source]) scope ↔
      ∃ p ∈ packages, p.isSource = false ∧ (p.source? packages).map (·.name) = some source ∧
        scope.admits p.arch = true ∧ p.name = m := by
  simp only [binariesOf, Std.ExtTreeSet.mem_ofList, List.contains_iff_mem, List.mem_map,
    List.mem_flatMap, Std.ExtTreeSet.mem_toList, mem_binariesFrom]
  simp [and_assoc]

section Facts

include hhash

theorem mem_factsOf {kind : DependencyKind} {dependencies : List Dependency} {d : Dependency}
    {p : Package} : (d, p) ∈ factsOf kind packages dependencies ↔
      p ∈ packages ∧ d ∈ dependencies ∧ d.kind = kind ∧ d.subject = p.hash := by
  have hkeys : ((packages.map fun p => (p.hash, p)).map Prod.fst).Nodup := by
    rwa [List.map_map]
  simp only [factsOf, List.mem_filterMap, List.mem_filter, beq_iff_eq, Option.map_eq_some_iff,
    getElem?_ofList_eq_some_iff hkeys, List.mem_map, Prod.mk.injEq]
  constructor
  · rintro ⟨_, ⟨hd, hkind⟩, _, ⟨q, hq, hsubject, rfl⟩, rfl, rfl⟩
    exact ⟨hq, hd, hkind, hsubject.symm⟩
  · rintro ⟨hp, hd, hkind, hsubject⟩
    exact ⟨d, ⟨hd, hkind⟩, p, ⟨p, hp, hsubject.symm, rfl⟩, rfl, rfl⟩

theorem mem_requirementsOfPackage {p : Package} (hp : p ∈ packages) {a : Capability} :
    a ∈ (ofPackages packages b).requirementsOfPackage p ↔ b.States .require p a := by
  simp only [requirementsOfPackage, ofPackages, Multimap.mem_values_ofPairs, List.mem_map,
    Prod.exists, mem_factsOf hhash, Prod.mk.injEq, BranchSnapshot.States]
  constructor
  · rintro ⟨d, q, ⟨-, hd, hkind, hsubject⟩, hsame, hname⟩
    exact ⟨d, hd, hkind, hsubject.trans hsame, hname⟩
  · rintro ⟨d, hd, hkind, hsubject, hname⟩
    exact ⟨d, p, ⟨hp, hd, hkind, hsubject⟩, rfl, hname⟩

theorem mem_providing {p : Package} {a : Capability} :
    p ∈ (ofPackages packages b).providing.values a ↔
      p ∈ packages ∧ p.isSource = false ∧ b.Provides p a := by
  simp only [ofPackages, Multimap.mem_values_ofPairs, List.mem_append, List.mem_map,
    List.mem_filter, Prod.exists, mem_factsOf hhash, Prod.mk.injEq, Bool.not_eq_true',
    BranchSnapshot.Provides, BranchSnapshot.States]
  constructor
  · intro h
    rcases h with ⟨q, ⟨hq, hbinary⟩, hname, rfl⟩ | ⟨d, q, ⟨⟨hq, hfact⟩, hbinary⟩, hname, rfl⟩
    · exact ⟨hq, hbinary, Or.inl hname⟩
    · exact ⟨hq, hbinary, Or.inr ⟨d, hfact.1, hfact.2.1, hfact.2.2, hname⟩⟩
  · rintro ⟨hp, hbinary, hname | ⟨d, hd, hkind, hsubject, hname⟩⟩
    · exact Or.inl ⟨p, ⟨hp, hbinary⟩, hname, rfl⟩
    · exact Or.inr ⟨d, p, ⟨⟨hp, hd, hkind, hsubject⟩, hbinary⟩, hname, rfl⟩

/-! ### Answers -/

variable {scope : Scope}

/-- A source requires what a source package of its name requires, or a binary built from it,
whichever of the two the scope follows. -/
theorem mem_requirementsOfName_source {n : PackageName} {a : Capability} :
    a ∈ (ofPackages packages b).requirementsOfName .source scope n ↔
      ∃ p ∈ packages, b.States .require p a ∧
        (p.isSource = true ∧ p.name = n ∧ scope.dependencyType.includesSource = true ∨
          p.isSource = false ∧ (p.source? packages).map (·.name) = some n ∧
            scope.admits p.arch = true ∧ scope.dependencyType.includesBinary = true) := by
  have hown : ∀ p, p ∈ ((ofPackages packages b).named.values n).filter
      (contributes .source scope) ↔ p ∈ packages ∧ p.isSource = true ∧ p.name = n ∧
        scope.dependencyType.includesSource = true := by
    intro p
    rw [List.mem_filter, mem_named, contributes]
    cases p.isSource <;> simp [NameReading.coversSource, NameReading.coversBinary, and_assoc]
  have hbuilt : ∀ p, p ∈ (if NameReading.source.coversSource &&
      scope.dependencyType.includesBinary then (ofPackages packages b).binariesFrom n scope
        else []) ↔
        p ∈ packages ∧ p.isSource = false ∧ (p.source? packages).map (·.name) = some n ∧
          scope.admits p.arch = true ∧ scope.dependencyType.includesBinary = true := by
    intro p
    cases scope.dependencyType.includesBinary <;>
      simp [NameReading.coversSource, mem_binariesFrom]
  simp only [requirementsOfName, Std.ExtTreeSet.mem_ofList, List.contains_iff_mem,
    List.mem_flatMap, List.mem_append, hown, hbuilt]
  constructor
  · rintro ⟨p, ⟨hp, hrole⟩ | ⟨hp, hrole⟩, ha⟩
    · exact ⟨p, hp, (mem_requirementsOfPackage hhash hp).1 ha, Or.inl hrole⟩
    · exact ⟨p, hp, (mem_requirementsOfPackage hhash hp).1 ha, Or.inr hrole⟩
  · rintro ⟨p, hp, ha, hrole⟩
    refine ⟨p, ?_, (mem_requirementsOfPackage hhash hp).2 ha⟩
    exact hrole.imp (fun h => ⟨hp, h⟩) fun h => ⟨hp, h⟩

theorem mem_providersOfCapability_iff {asSource : Bool} {a : Capability} {m : PackageName} :
    m ∈ (ofPackages packages b).providersOfCapability scope asSource a ↔
      ∃ q ∈ packages, q.isSource = false ∧ scope.admits q.arch = true ∧ b.Provides q a ∧
        (if asSource then (q.source? packages).map (·.name) else some q.name) = some m := by
  simp only [mem_providersOfCapability, mem_providing hhash, owner?_eq_map_source?]
  constructor
  · rintro ⟨q, ⟨hq, hbinary, hprovides⟩, hadmits, hm⟩
    exact ⟨q, hq, hbinary, hadmits, hprovides, hm⟩
  · rintro ⟨q, hq, hbinary, hadmits, hprovides, hm⟩
    exact ⟨q, ⟨hq, hbinary, hprovides⟩, hadmits, hm⟩

/-- On the source side of a scope a name needs another if one of its source packages requires
something that a binary built from the other provides. -/
theorem needs_withDependencyType_source_iff {n m : PackageName} :
    (ofPackages packages b).Needs (scope.withDependencyType .source) .source true n m ↔
      ∃ p ∈ packages, p.isSource = true ∧ p.name = n ∧ ∃ a, b.States .require p a ∧
        ∃ q ∈ packages, q.isSource = false ∧ scope.admits q.arch = true ∧ b.Provides q a ∧
          (q.source? packages).map (·.name) = some m := by
  simp only [Needs, mem_requirementsOfName_source hhash, mem_providersOfCapability_iff hhash,
    Scope.admits_withDependencyType, Scope.dependencyType_withDependencyType,
    DependencyType.includesSource, DependencyType.includesBinary, if_true]
  constructor
  · rintro ⟨a, ⟨p, hp, ha, hrole⟩, hprovider⟩
    simp only [and_true, Bool.false_eq_true, and_false, or_false] at hrole
    exact ⟨p, hp, hrole.1, hrole.2, a, ha, hprovider⟩
  · rintro ⟨p, hp, hsource, hname, a, ha, hprovider⟩
    exact ⟨a, ⟨p, hp, ha, Or.inl ⟨hsource, hname, trivial⟩⟩, hprovider⟩

end Facts

end BranchIndex

namespace Universe

variable {u : Universe} {skipDebuginfo : Bool} {s : Snapshot}
  (h : ofSnapshot skipDebuginfo s = .ok u)
include h

theorem getElem?_branches (name : String) : u.branches[name]? = (s.branch? name).map fun b =>
    .ofPackages (BranchIndex.keptPackages skipDebuginfo b) b := by
  obtain ⟨entries, hentries, hu⟩ := bind_eq_ok_iff.1 h
  obtain rfl := Except.ok.inj hu
  have hmap : entries = s.branches.map fun b =>
      (Text.lowerCase b.name, .ofPackages (BranchIndex.keptPackages skipDebuginfo b) b) := by
    refine eq_map_of_mapM (fun b entry hentry => ?_) hentries
    obtain ⟨index, hindex, hentry⟩ := bind_eq_ok_iff.1 hentry
    rw [← Except.ok.inj hentry, BranchIndex.ofSnapshot_eq_ok hindex]
  rw [getElem?_ofList_eq_getLast?, hmap, List.filter_map, List.getLast?_map, Option.map_map]
  rfl

theorem exists_branch? {name : String} {index : BranchIndex} (hbranch : u.branch name = .ok index) :
    ∃ b, s.branch? name = some b ∧
      index = .ofPackages (BranchIndex.keptPackages skipDebuginfo b) b := by
  rw [branch_eq_ok_iff, getElem?_branches h] at hbranch
  obtain ⟨b, hb, hindex⟩ := Option.map_eq_some_iff.1 hbranch
  exact ⟨b, hb, hindex.symm⟩

theorem nodup_hash_of_mem {b : BranchSnapshot} (hb : b ∈ s.branches) :
    (b.packages.map (·.hash)).Nodup := by
  obtain ⟨entries, hentries, -⟩ := bind_eq_ok_iff.1 h
  obtain ⟨entry, hentry⟩ := exists_mapM_eq_ok_iff.1 ⟨entries, hentries⟩ b hb
  obtain ⟨index, hindex, -⟩ := bind_eq_ok_iff.1 hentry
  exact (BranchIndex.ofSnapshot_eq_ok_iff.1 hindex).1

theorem nodup_hash_of_branch? {name : String} {b : BranchSnapshot} (hb : s.branch? name = some b) :
    ((BranchIndex.keptPackages skipDebuginfo b).map (·.hash)).Nodup :=
  BranchIndex.nodup_hash_keptPackages (nodup_hash_of_mem h (s.mem_of_branch? hb))

omit h in
/-- A snapshot is indexed unless one of its branches repeats a hash. -/
theorem exists_ofSnapshot
    (hhash : ∀ b ∈ s.branches, firstRepeated? ∅ (b.packages.map (·.hash)) = none) :
    ∃ u, ofSnapshot skipDebuginfo s = .ok u := by
  have hentry : ∀ b ∈ s.branches, ∃ entry, (do
      return (Text.lowerCase b.name, ← BranchIndex.ofSnapshot skipDebuginfo b) :
        Except UniverseError (String × BranchIndex)) = .ok entry := by
    intro b hb
    rw [BranchIndex.ofSnapshot, hhash b hb]
    exact ⟨_, rfl⟩
  obtain ⟨entries, hentries⟩ := exists_mapM_eq_ok_iff.2 hentry
  exact ⟨_, bind_eq_ok_iff.2 ⟨entries, hentries, rfl⟩⟩

omit h in
theorem exists_ofSnapshot_of_nodup (hhash : ∀ b ∈ s.branches, (b.packages.map (·.hash)).Nodup) :
    ∃ u, ofSnapshot skipDebuginfo s = .ok u :=
  exists_ofSnapshot fun b hb =>
    firstRepeated?_eq_none_iff.2 ⟨hhash b hb, fun _ _ => Std.ExtTreeSet.not_mem_empty⟩

theorem exists_own {name : String} {b : BranchSnapshot} (hb : s.branch? name = some b) :
    ∃ own, ofSnapshot skipDebuginfo ⟨[b]⟩ = .ok own ∧ u.branches[name]? = own.branches[name]? := by
  obtain ⟨entries, hentries, -⟩ := bind_eq_ok_iff.1 h
  obtain ⟨entry, hentry⟩ :=
    exists_mapM_eq_ok_iff.1 ⟨entries, hentries⟩ b (Snapshot.mem_of_branch? hb)
  obtain ⟨index, hindex, -⟩ := bind_eq_ok_iff.1 hentry
  have hown : ofSnapshot skipDebuginfo ⟨[b]⟩ = .ok ⟨.ofList [(Text.lowerCase b.name, index)]⟩ := by
    simp [ofSnapshot, hindex]
  refine ⟨_, hown, ?_⟩
  rw [getElem?_branches h, getElem?_branches hown, hb,
    Snapshot.branch?_singleton (Snapshot.lowerCase_of_branch? hb)]

end Universe

end BuildPlan
