import BuildPlan.Proofs.Universe.Sight

/-! # What a scope does not see

Binaries for other architectures, debug symbols that are skipped, facts that no index looks at and
other branches can be left out of a snapshot. The answers to all calls about the scope stay the
same.
-/
namespace BuildPlan

/-! ### Snapshots with something left out -/

/-- The package is not seen: a binary for an architecture that is not admitted, or one with debug
symbols when these are skipped. -/
inductive Package.Hidden (skipDebuginfo : Bool) (scope : Scope) (p : Package) : Prop
  | arch (hbinary : p.isSource = false) (harch : scope.admits p.arch = false)
  | debuginfo (hskip : skipDebuginfo = true) (hdebuginfo : p.isDebuginfo = true)

/-- No index looks at the fact, or the scope does not see what it is about. -/
inductive Dependency.Idle (b : BranchSnapshot) (skipDebuginfo : Bool) (scope : Scope)
    (d : Dependency) : Prop
  | conflict (hkind : d.kind = .conflict)
  | obsolete (hkind : d.kind = .obsolete)
  | ofSource {p : Package} (hkind : d.kind = .provide) (hp : p ∈ b.packages)
    (hsubject : d.subject = p.hash) (hsource : p.isSource = true)
  | ofHidden {p : Package} (hp : p ∈ b.packages) (hsubject : d.subject = p.hash)
    (hhidden : p.Hidden skipDebuginfo scope)
  | ofNone (hnone : ∀ p ∈ b.packages, d.subject ≠ p.hash)

theorem Package.hidden_iff {skipDebuginfo : Bool} {scope : Scope} {p : Package} :
    p.Hidden skipDebuginfo scope ↔ p.isSource = false ∧ scope.admits p.arch = false ∨
      skipDebuginfo = true ∧ p.isDebuginfo = true := by
  constructor
  · intro h
    cases h with
    | arch hbinary harch => exact Or.inl ⟨hbinary, harch⟩
    | debuginfo hskip hdebuginfo => exact Or.inr ⟨hskip, hdebuginfo⟩
  · intro h
    rcases h with ⟨hbinary, harch⟩ | ⟨hskip, hdebuginfo⟩
    · exact .arch hbinary harch
    · exact .debuginfo hskip hdebuginfo

theorem Dependency.idle_iff {b : BranchSnapshot} {skipDebuginfo : Bool} {scope : Scope}
    {d : Dependency} : d.Idle b skipDebuginfo scope ↔ d.kind = .conflict ∨ d.kind = .obsolete ∨
      (∃ p ∈ b.packages, d.subject = p.hash ∧
        (d.kind = .provide ∧ p.isSource = true ∨ p.Hidden skipDebuginfo scope)) ∨
      ∀ p ∈ b.packages, d.subject ≠ p.hash := by
  constructor
  · intro h
    cases h with
    | conflict hkind => exact Or.inl hkind
    | obsolete hkind => exact Or.inr (Or.inl hkind)
    | ofSource hkind hp hsubject hsource =>
      exact Or.inr (Or.inr (Or.inl ⟨_, hp, hsubject, Or.inl ⟨hkind, hsource⟩⟩))
    | ofHidden hp hsubject hhidden =>
      exact Or.inr (Or.inr (Or.inl ⟨_, hp, hsubject, Or.inr hhidden⟩))
    | ofNone hnone => exact Or.inr (Or.inr (Or.inr hnone))
  · intro h
    rcases h with hkind | hkind | ⟨p, hp, hsubject, ⟨hkind, hsource⟩ | hhidden⟩ | hnone
    · exact .conflict hkind
    · exact .obsolete hkind
    · exact .ofSource hkind hp hsubject hsource
    · exact .ofHidden hp hsubject hhidden
    · exact .ofNone hnone

instance {skipDebuginfo : Bool} {scope : Scope} {p : Package} :
    Decidable (p.Hidden skipDebuginfo scope) :=
  decidable_of_iff _ Package.hidden_iff.symm

instance {b : BranchSnapshot} {skipDebuginfo : Bool} {scope : Scope} {d : Dependency} :
    Decidable (d.Idle b skipDebuginfo scope) :=
  decidable_of_iff _ Dependency.idle_iff.symm

/-- The same branch without some packages that are hidden and some facts that are idle. -/
structure BranchSnapshot.Trimmed (skipDebuginfo : Bool) (scope : Scope) (b b' : BranchSnapshot) :
    Prop where
  name_eq : b'.name = b.name
  archs_eq : b'.archs = b.archs
  acl_eq : b'.acl = b.acl
  packages_sublist : b'.packages.Sublist b.packages
  hidden : ∀ p ∈ b.packages, p ∉ b'.packages → p.Hidden skipDebuginfo scope
  dependencies_sublist : b'.dependencies.Sublist b.dependencies
  idle : ∀ d ∈ b.dependencies, d ∉ b'.dependencies → d.Idle b skipDebuginfo scope

/-- The same snapshot without some branches that do not go by the name of the scope's branch, and
with the others trimmed. -/
def Snapshot.Trimmed (skipDebuginfo : Bool) (scope : Scope) (s s' : Snapshot) : Prop :=
  ∃ rest : List BranchSnapshot, rest.Sublist s.branches ∧
    rest.filter (fun b => Text.lowerCase b.name == scope.branch) =
      s.branches.filter (fun b => Text.lowerCase b.name == scope.branch) ∧
    List.Forall₂ (BranchSnapshot.Trimmed skipDebuginfo scope) rest s'.branches

/-! ### Branches -/

theorem filter_eq_of_sublist {α : Type} {l l' : List α} (h : l'.Sublist l) (hl : l.Nodup)
    {f : α → Bool} (hf : ∀ a ∈ l, f a = true → a ∈ l') : l'.filter f = l.filter f := by
  apply (h.filter f).eq_of_length_le
  apply List.Subperm.length_le
  apply List.subperm_of_subset (hl.filter f)
  intro a ha
  obtain ⟨hmem, hfa⟩ := List.mem_filter.1 ha
  exact List.mem_filter.2 ⟨hf a hmem hfa, hfa⟩

namespace BranchSnapshot.Trimmed

variable {skipDebuginfo : Bool} {scope : Scope} {b b' : BranchSnapshot} {p : Package}
  (h : b.Trimmed skipDebuginfo scope b')
include h

theorem keptPackages_sublist : (BranchIndex.keptPackages skipDebuginfo b').Sublist
    (BranchIndex.keptPackages skipDebuginfo b) :=
  h.packages_sublist.filter _

omit h in
theorem not_hidden (hp : p ∈ BranchIndex.keptPackages skipDebuginfo b) (hseen : p.SeenIn scope) :
    ¬ p.Hidden skipDebuginfo scope := by
  intro hhidden
  cases hhidden with
  | arch hbinary harch => simp [Package.SeenIn, hbinary, harch] at hseen
  | debuginfo hskip hdebuginfo =>
    have hkept := (List.mem_filter.1 hp).2
    simp [hskip, hdebuginfo] at hkept

theorem mem_keptPackages (hp : p ∈ BranchIndex.keptPackages skipDebuginfo b)
    (hseen : p.SeenIn scope) : p ∈ BranchIndex.keptPackages skipDebuginfo b' := by
  obtain ⟨hmem, hkept⟩ := List.mem_filter.1 hp
  have hstays : p ∈ b'.packages := by
    by_contra hleft
    exact not_hidden hp hseen (h.hidden p hmem hleft)
  exact List.mem_filter.2 ⟨hstays, hkept⟩

variable (hhash : (b.packages.map (·.hash)).Nodup)
include hhash

theorem mem_dependencies (hp : p ∈ BranchIndex.keptPackages skipDebuginfo b)
    (hseen : p.SeenIn scope) {d : Dependency} (hd : d ∈ b.dependencies)
    (hsubject : d.subject = p.hash)
    (hkind : d.kind = .require ∨ d.kind = .provide ∧ p.isSource = false) :
    d ∈ b'.dependencies := by
  have hmem := List.mem_of_mem_filter hp
  have hsame : ∀ q ∈ b.packages, d.subject = q.hash → q = p := by
    intro q hq hsubject'
    exact List.inj_on_of_nodup_map hhash hq hmem (hsubject'.symm.trans hsubject)
  by_contra hleft
  cases h.idle d hd hleft with
  | conflict hconflict => simp [hconflict] at hkind
  | obsolete hobsolete => simp [hobsolete] at hkind
  | ofSource hprovide hq hsubject' hsource =>
    obtain rfl := hsame _ hq hsubject'
    simp [hprovide, hsource] at hkind
  | ofHidden hq hsubject' hhidden =>
    obtain rfl := hsame _ hq hsubject'
    exact not_hidden hp hseen hhidden
  | ofNone hnone => exact hnone p hmem hsubject

theorem states_iff (hp : p ∈ BranchIndex.keptPackages skipDebuginfo b) (hseen : p.SeenIn scope)
    {kind : DependencyKind} (hkind : kind = .require ∨ kind = .provide ∧ p.isSource = false)
    (a : Capability) : b.States kind p a ↔ b'.States kind p a := by
  constructor
  · rintro ⟨d, hd, rfl, hsubject, hname⟩
    exact ⟨d, h.mem_dependencies hhash hp hseen hd hsubject hkind, rfl, hsubject, hname⟩
  · rintro ⟨d, hd, hrest⟩
    exact ⟨d, h.dependencies_sublist.subset hd, hrest⟩

theorem source?_keptPackages (p : Package) :
    p.source? (BranchIndex.keptPackages skipDebuginfo b) =
      p.source? (BranchIndex.keptPackages skipDebuginfo b') := by
  have hnodup : (BranchIndex.keptPackages skipDebuginfo b).Nodup :=
    (List.Nodup.of_map _ hhash).filter _
  rw [Package.source?, Package.source?, filter_eq_of_sublist h.keptPackages_sublist hnodup]
  intro q hq hsource
  exact h.mem_keptPackages hq (Or.inl (Bool.and_eq_true_iff.1 hsource).1)

theorem alike (t : DependencyType) :
    b.Alike (scope.withDependencyType t) (BranchIndex.keptPackages skipDebuginfo b)
      (BranchIndex.keptPackages skipDebuginfo b') b' where
  mem_archs _ := by rw [h.archs_eq]
  acl_eq := h.acl_eq.symm
  mem_packages _ hseen :=
    ⟨fun hp => h.mem_keptPackages hp hseen, fun hp => h.keptPackages_sublist.subset hp⟩
  source?_eq := h.source?_keptPackages hhash
  requires_iff _ hp hseen := h.states_iff hhash hp hseen (Or.inl rfl)
  provides_iff _ hp hbinary hadmits :=
    h.states_iff hhash hp (Or.inr hadmits) (Or.inr ⟨rfl, hbinary⟩)

end BranchSnapshot.Trimmed

namespace Snapshot.Trimmed

variable {skipDebuginfo : Bool} {scope : Scope} {s s' : Snapshot} {u u' : Universe}
  (h : s.Trimmed skipDebuginfo scope s') (hu : Universe.ofSnapshot skipDebuginfo s = .ok u)
include h hu

theorem exists_ofSnapshot : ∃ u', Universe.ofSnapshot skipDebuginfo s' = .ok u' := by
  obtain ⟨rest, hsublist, -, htrimmed⟩ := h
  apply Universe.exists_ofSnapshot_of_nodup
  intro b' hb'
  obtain ⟨b, hb, htrimmed⟩ := exists_of_mem_forall₂ htrimmed hb'
  have hhash := Universe.nodup_hash_of_mem hu (hsublist.subset hb)
  exact hhash.sublist (htrimmed.packages_sublist.map _)

theorem rel_branch? : Option.Rel (fun b b' => (b.packages.map (·.hash)).Nodup ∧
    b.Trimmed skipDebuginfo scope b') (s.branch? scope.branch) (s'.branch? scope.branch) := by
  obtain ⟨rest, -, hfilter, htrimmed⟩ := h
  have hbranch : s.branch? scope.branch = Snapshot.branch? ⟨rest⟩ scope.branch := by
    rw [branch?, branch?, hfilter]
  have hrel := Snapshot.rel_branch? (s := ⟨rest⟩) (fun _ _ => BranchSnapshot.Trimmed.name_eq)
    htrimmed scope.branch
  rw [← hbranch] at hrel
  apply rel_of_rel hrel
  exact fun b b' hb _ htrimmed => ⟨Universe.nodup_hash_of_mem hu (s.mem_of_branch? hb), htrimmed⟩

/-- No call about the scope has another answer, whichever requirements the scope follows. -/
theorem answer_eq (hu' : Universe.ofSnapshot skipDebuginfo s' = .ok u') {t : DependencyType}
    {c : Call} (hc : c.About (scope.withDependencyType t)) : u.answer c = u'.answer c := by
  have hrepresents := Universe.represents_of_ofSnapshot hu
  apply hrepresents.answer_eq (Universe.represents_of_ofSnapshot hu') _ hc
  apply rel_of_rel (h.rel_branch? hu)
  exact fun b b' _ _ ⟨hhash, htrimmed⟩ => htrimmed.alike hhash t

theorem needs_iff (hu' : Universe.ofSnapshot skipDebuginfo s' = .ok u') {reading : NameReading}
    {asSource : Bool} {n m : PackageName} :
    u.Needs scope reading asSource n m ↔ u'.Needs scope reading asSource n m := by
  have hrequirements : ∀ names, u.requirementsOf names reading scope =
      u'.requirementsOf names reading scope := fun names =>
    h.answer_eq hu hu' (t := scope.dependencyType) (c := .requirementsOf names reading scope) rfl
  have hproviders : ∀ capabilities, u.providersOf capabilities scope asSource =
      u'.providersOf capabilities scope asSource := fun capabilities =>
    h.answer_eq hu hu' (t := scope.dependencyType)
      (c := .providersOf capabilities scope asSource) rfl
  simp only [Universe.Needs, hrequirements, hproviders]

end Snapshot.Trimmed

end BuildPlan
