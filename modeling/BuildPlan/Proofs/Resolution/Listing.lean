import BuildPlan.Proofs.Resolution.Outcome
import BuildPlan.Proofs.Resolution.Request
import BuildPlan.Proofs.Universe.Sight

/-! # How a snapshot is listed

In which order a branch lists its packages, facts and architectures does not matter, with one
exception: of several source packages with one archive the last one counts. Nor does it matter how
often a fact is stated, or in which order an index goes through the binaries to note them at their
sources.
-/
namespace BuildPlan

/-- The same branch, listed in another way. Source packages with one archive keep their order. -/
structure BranchSnapshot.Rearranged (b b' : BranchSnapshot) : Prop where
  name_eq : b'.name = b.name
  archs_perm : b'.archs.Perm b.archs
  packages_perm : b'.packages.Perm b.packages
  sources_eq : ∀ rpm, b'.packages.filter (fun p => p.isSource && p.sourceRpm == rpm) =
    b.packages.filter fun p => p.isSource && p.sourceRpm == rpm
  mem_dependencies : ∀ d, d ∈ b'.dependencies ↔ d ∈ b.dependencies
  acl_eq : b'.acl = b.acl

namespace BranchSnapshot.Rearranged

variable {b b' : BranchSnapshot} (h : b.Rearranged b')
include h

theorem mem_keptPackages {skipDebuginfo : Bool} {p : Package} :
    p ∈ BranchIndex.keptPackages skipDebuginfo b ↔
      p ∈ BranchIndex.keptPackages skipDebuginfo b' :=
  (h.packages_perm.filter _).symm.mem_iff

theorem source?_keptPackages {skipDebuginfo : Bool} (p : Package) :
    p.source? (BranchIndex.keptPackages skipDebuginfo b) =
      p.source? (BranchIndex.keptPackages skipDebuginfo b') := by
  rw [Package.source?, Package.source?, BranchIndex.keptPackages, BranchIndex.keptPackages,
    List.filter_comm, List.filter_comm _ _ b'.packages, h.sources_eq]

theorem states_iff {kind : DependencyKind} {p : Package} {a : Capability} :
    b.States kind p a ↔ b'.States kind p a := by
  simp only [States, h.mem_dependencies]

theorem alike (skipDebuginfo : Bool) (scope : Scope) :
    b.Alike scope (BranchIndex.keptPackages skipDebuginfo b)
      (BranchIndex.keptPackages skipDebuginfo b') b' where
  mem_archs _ := h.archs_perm.symm.mem_iff
  acl_eq := h.acl_eq.symm
  mem_packages _ _ := h.mem_keptPackages
  source?_eq := h.source?_keptPackages
  requires_iff _ _ _ _ := h.states_iff
  provides_iff _ _ _ _ _ := h.states_iff

end BranchSnapshot.Rearranged

theorem filter_sources_eq_of_perm {packages packages' : List Package}
    (hperm : packages'.Perm packages)
    (hrpm : ((packages.filter (·.isSource)).map (·.sourceRpm)).Nodup) (rpm : String) :
    packages'.filter (fun p => p.isSource && p.sourceRpm == rpm) =
      packages.filter fun p => p.isSource && p.sourceRpm == rpm := by
  have hfilter := hperm.filter fun p => p.isSource && p.sourceRpm == rpm
  have hnodup : ((packages.filter fun p => p.isSource && p.sourceRpm == rpm).map
      (·.sourceRpm)).Nodup := by
    refine hrpm.sublist (List.Sublist.map _ ?_)
    exact List.monotone_filter_right _ fun p hp => (Bool.and_eq_true_iff.1 hp).1
  have hsame : ∀ p ∈ packages.filter (fun p => p.isSource && p.sourceRpm == rpm),
      p.sourceRpm = rpm := by
    intro p hp
    exact beq_iff_eq.1 (Bool.and_eq_true_iff.1 (List.mem_filter.1 hp).2).2
  generalize packages.filter (fun p => p.isSource && p.sourceRpm == rpm) = l at *
  cases l with
  | nil => exact hfilter.eq_nil
  | cons p rest =>
    cases rest with
    | nil => exact List.perm_singleton.1 hfilter
    | cons q rest => simp [hsame] at hnodup

/-! ### Binaries noted in any order -/

namespace BranchIndex

/-- Each binary with the source that it was built from. -/
def builtPairs (packages : List Package) : List (PackageName × Package) :=
  (packages.filter (!·.isSource)).filterMap fun p =>
    (sourcesOf packages)[p.sourceRpm]?.map fun s => (s, p)

/-- The index of a branch, with the binaries noted at their sources in some order. -/
def Fills (packages : List Package) (b : BranchSnapshot) (index : BranchIndex) : Prop :=
  ∃ pairs : List (PackageName × Package), pairs.Perm (builtPairs packages) ∧
    index = { ofPackages packages b with builtFrom := .ofPairs pairs }

variable {packages : List Package} {b : BranchSnapshot} {index : BranchIndex}

theorem fills_ofPackages : Fills packages b (ofPackages packages b) := ⟨_, .refl _, rfl⟩

theorem Fills.represents (h : Fills packages b index) (hhash : (packages.map (·.hash)).Nodup) :
    index.Represents packages b := by
  obtain ⟨pairs, hperm, rfl⟩ := h
  have hindex := represents_ofPackages (b := b) hhash
  refine { hindex with mem_builtFrom := fun p n => ?_ }
  rw [← hindex.mem_builtFrom, ofPackages, Multimap.mem_values_ofPairs, Multimap.mem_values_ofPairs]
  exact hperm.mem_iff

end BranchIndex

namespace Universe

/-- A universe of a snapshot, of which each index has noted binaries in an order of its own. -/
def Fills (skipDebuginfo : Bool) (u : Universe) (s : Snapshot) : Prop :=
  ∀ name, Option.Rel
    (fun index b => BranchIndex.Fills (BranchIndex.keptPackages skipDebuginfo b) b index)
    u.branches[name]? (s.branch? name)

variable {skipDebuginfo : Bool} {s s' : Snapshot} {u v v' : Universe}

theorem fills_of_ofSnapshot (h : ofSnapshot skipDebuginfo s = .ok u) : u.Fills skipDebuginfo s := by
  intro name
  rw [getElem?_branches h]
  cases s.branch? name with
  | none => exact .none
  | some b => exact .some BranchIndex.fills_ofPackages

theorem Fills.represents (h : v.Fills skipDebuginfo s) (hu : ofSnapshot skipDebuginfo s = .ok u) :
    v.Represents skipDebuginfo s := fun name =>
  rel_of_rel (h name) fun _ _ _ hb hfills => hfills.represents (nodup_hash_of_branch? hu hb)

section Rearranged

variable (h : List.Forall₂ BranchSnapshot.Rearranged s.branches s'.branches)
include h

theorem exists_ofSnapshot_of_rearranged (hu : ofSnapshot skipDebuginfo s = .ok u) :
    ∃ u', ofSnapshot skipDebuginfo s' = .ok u' := by
  apply exists_ofSnapshot_of_nodup
  intro b' hb'
  obtain ⟨b, hb, hrearranged⟩ := exists_of_mem_forall₂ h hb'
  exact (hrearranged.packages_perm.map _).nodup_iff.2 (nodup_hash_of_mem hu hb)

variable (hv : v.Represents skipDebuginfo s) (hv' : v'.Represents skipDebuginfo s')
include hv hv'

theorem Represents.answer_eq_of_rearranged (c : Call) : v.answer c = v'.answer c := by
  obtain ⟨scope, hc⟩ := c.exists_about
  apply hv.answer_eq hv' _ hc
  apply rel_of_rel (Snapshot.rel_branch? (fun _ _ => BranchSnapshot.Rearranged.name_eq) h _)
  exact fun b b' _ _ hrearranged => hrearranged.alike skipDebuginfo scope

theorem Represents.packageNames_eq_of_rearranged : v.packageNames = v'.packageNames := by
  apply Std.ExtTreeSet.ext_mem
  intro n
  have hrel := Snapshot.rel_branch? (fun _ _ => BranchSnapshot.Rearranged.name_eq) h
  rw [hv.mem_packageNames, hv'.mem_packageNames]
  constructor
  · rintro ⟨name, b, hb, p, hp, hname⟩
    obtain ⟨b', hb', hrearranged⟩ := exists_of_rel_left (hrel name) hb
    exact ⟨name, b', hb', p, hrearranged.mem_keptPackages.1 hp, hname⟩
  · rintro ⟨name, b', hb', p, hp, hname⟩
    obtain ⟨b, hb, hrearranged⟩ := exists_of_rel_right (hrel name) hb'
    exact ⟨name, b, hb, p, hrearranged.mem_keptPackages.2 hp, hname⟩

end Rearranged

/-- A snapshot that is listed in another way is accepted like before. Whichever way their indexes
are filled, the universes of both give the same answers and the same outcomes. -/
theorem answer_eq_and_resolve_eq_of_rearranged (hu : ofSnapshot skipDebuginfo s = .ok u)
    (h : List.Forall₂ BranchSnapshot.Rearranged s.branches s'.branches) :
    ∃ u', ofSnapshot skipDebuginfo s' = .ok u' ∧
      u.Fills skipDebuginfo s ∧ u'.Fills skipDebuginfo s' ∧
      ∀ v v' : Universe, v.Fills skipDebuginfo s → v'.Fills skipDebuginfo s' →
        (∀ call, v.answer call = v'.answer call) ∧
        ∀ (config : Config) (withAcl : Bool) (request : Request) (p : Progress),
          (Resolver.ofUniverse v config withAcl).resolve v.world request p =
            (Resolver.ofUniverse v' config withAcl).resolve v'.world request p := by
  obtain ⟨u', hu'⟩ := exists_ofSnapshot_of_rearranged h hu
  refine ⟨u', hu', fills_of_ofSnapshot hu, fills_of_ofSnapshot hu', fun v v' hv hv' => ?_⟩
  have hrepresents := hv.represents hu
  have hrepresents' := hv'.represents hu'
  have hanswer := hrepresents.answer_eq_of_rearranged h hrepresents'
  have hworld : v.world = v'.world := by
    funext past call
    rw [world, world, hanswer call]
  refine ⟨hanswer, fun config withAcl request p => ?_⟩
  rw [Resolver.ofUniverse, Resolver.ofUniverse, hworld,
    hrepresents.packageNames_eq_of_rearranged h hrepresents']

end Universe

/-! ### A branch listed backwards -/

/-- The small branch with all its lists reversed, and with each fact stated twice. -/
def reversedBranch : BranchSnapshot :=
  { cycleBranch with
    archs := cycleBranch.archs.reverse
    packages := cycleBranch.packages.reverse
    dependencies := cycleBranch.dependencies.reverse ++ cycleBranch.dependencies }

theorem rearranged_reversedBranch : cycleBranch.Rearranged reversedBranch where
  name_eq := rfl
  archs_perm := List.reverse_perm _
  packages_perm := List.reverse_perm _
  sources_eq := filter_sources_eq_of_perm (List.reverse_perm _) (by decide +kernel)
  mem_dependencies d := by simp [reversedBranch]
  acl_eq := rfl

theorem Universe.answer_eq_and_resolve_eq_of_rearranged_reversed : ∃ u result,
    ofSnapshot true ⟨[reversedBranch]⟩ = .ok u ∧
      ((Resolver.ofUniverse u .default true).resolve u.world (cycleRequest .full) ⟨[], 0⟩).1 =
        .resolved result ∧ ⟨"libc"⟩ ∈ result.names := by
  have hrearranged : List.Forall₂ BranchSnapshot.Rearranged (Snapshot.mk [cycleBranch]).branches
      (Snapshot.mk [reversedBranch]).branches := .cons rearranged_reversedBranch .nil
  obtain ⟨u, hu, hfills, hfills', hsame⟩ :=
    answer_eq_and_resolve_eq_of_rearranged ofSnapshot_cycleBranch hrearranged
  obtain ⟨-, hresolve'⟩ := hsame _ _ hfills hfills'
  obtain ⟨result, hresolve, hlibc⟩ := exists_resolved_cycleRequest
  refine ⟨u, result, hu, ?_, hlibc⟩
  rw [← hresolve' .default true (cycleRequest .full) ⟨[], 0⟩]
  exact hresolve

end BuildPlan
