import BuildPlan.Proofs.Resolution.Backing

/-! # Who may build what

A branch has an entry for each source package that says who may build it. The records of a result
show the entries of their own names. Those are the right ones if the records name sources. A record
of a binary shows the entry of whichever source has the name of the binary, and this need not be the
source that the binary was built from.
-/
namespace BuildPlan

variable {u : Universe} {skipDebuginfo : Bool} {s : Snapshot}

/-- A package has a source package: a source is its own, and a binary has the one that it was built
from. -/
def Package.HasSource (packages : List Package) (source : PackageName) (d : Package) : Prop :=
  if d.isSource then d.name = source else d.BuiltFrom packages source

structure ResolvedPackage.IsAbout (q : ResolvedPackage) (d : Package) : Prop where
  name_eq : d.name = q.name
  sourceRpm_eq : d.sourceRpm = q.sourceRpm

/-- A record shows the entry of a source package in a branch, and shows nobody just if there is none
or nobody in it. -/
structure BranchSnapshot.ShowsAcl (b : BranchSnapshot) (source : PackageName)
    (q : ResolvedPackage) : Prop where
  acl_eq : q.acl = (b.acl[source]?).getD []
  eq_nil_iff : q.acl = [] ↔ b.acl[source]? = none ∨ b.acl[source]? = some []

theorem BranchSnapshot.showsAcl_of_acl_eq {b : BranchSnapshot} {source : PackageName}
    {q : ResolvedPackage} (h : q.acl = (b.acl[source]?).getD []) : b.ShowsAcl source q := by
  constructor
  · exact h
  · rw [h]
    cases b.acl[source]? <;> simp

theorem CheckedRequest.asSource_eq_true_iff {r : CheckedRequest} :
    r.asSource = true ↔ ∃ depth halfStep, r.goal = .build depth halfStep := by
  unfold asSource
  cases r.goal <;> simp

namespace Resolver

variable {config : Config} {request : Request} {p : Progress} {result : Resolution}

theorem exists_package_of_record (hu : Universe.ofSnapshot skipDebuginfo s = .ok u)
    (h : ((ofUniverse u config true).resolve u.world request p).1 = .resolved result) :
    ∃ b, s.branch? result.branch = some b ∧ ∀ q ∈ result.packages,
      q.acl = (b.acl[q.name]?).getD [] ∧
      ∃ d ∈ BranchIndex.keptPackages skipDebuginfo b, q.IsAbout d ∧
        (d.isSource = true ↔ ∃ depth halfStep, request.goal = .build depth halfStep) := by
  obtain ⟨checked, b, haccepted, hb, hbranch, -, hrecords⟩ := exists_comesFrom_of_resolve hu h
  refine ⟨b, by rw [hbranch, hb], ?_⟩
  intro q hq
  obtain ⟨⟨d, hd⟩, hacl⟩ := hrecords q hq
  obtain ⟨hmem, hname, hkind⟩ := BranchIndex.package_of_describeName? hd.describe_eq
  refine ⟨hacl, d.package, hmem, ⟨hname, hd.shows.sourceRpm_eq.symm⟩, ?_⟩
  rw [hkind, CheckedRequest.asSource_eq_true_iff, haccepted.goal_eq]

/-- Every record shows the entry of its own name. In a build closure this is the entry of its source
package, and in a full closure it is so if the source has the name of the binary. -/
theorem resolve_acl_eq_entry (hu : Universe.ofSnapshot skipDebuginfo s = .ok u)
    (h : ((ofUniverse u config true).resolve u.world request p).1 = .resolved result) :
    ∃ b, s.branch? result.branch = some b ∧
      let packages := BranchIndex.keptPackages skipDebuginfo b
      ∀ q ∈ result.packages, b.ShowsAcl q.name q ∧ ∃ d ∈ packages, q.IsAbout d ∧
        (d.isSource = true ↔ ∃ depth halfStep, request.goal = .build depth halfStep) ∧
        ∀ source, d.HasSource packages source → d.isSource = true ∨ source = d.name →
          b.ShowsAcl source q := by
  obtain ⟨b, hb, hrecords⟩ := exists_package_of_record hu h
  refine ⟨b, hb, ?_⟩
  intro packages q hq
  obtain ⟨hacl, d, hd, habout, hkind⟩ := hrecords q hq
  refine ⟨BranchSnapshot.showsAcl_of_acl_eq hacl, d, hd, habout, hkind, ?_⟩
  intro source hsource hsame
  have hname : source = q.name := by
    rw [← habout.name_eq]
    rcases hsame with hisSource | hname
    · rw [Package.HasSource, if_pos hisSource] at hsource
      exact hsource.symm
    · exact hname
  rw [hname]
  exact BranchSnapshot.showsAcl_of_acl_eq hacl

end Resolver

/-! ### A source with the name of a binary -/

/-- The binary `libc` was built from `c`, while there is a source `libc` as well. -/
def namesakeBranch : BranchSnapshot :=
  (SnapshotBuilder.start "Sisyphus"
    |>.source "a" ["libc"]
    |>.source "c" [] |>.binary "c" "libc" .x86_64 [] []
    |>.source "libc" [] |>.acl "c" ["alice"] |>.acl "libc" ["bob"]).current

def namesakeUniverse : Universe :=
  ⟨.ofList [("sisyphus",
    BranchIndex.ofPackages (BranchIndex.keptPackages true namesakeBranch) namesakeBranch)]⟩

theorem ofSnapshot_namesakeBranch :
    Universe.ofSnapshot true ⟨[namesakeBranch]⟩ = .ok namesakeUniverse :=
  Universe.ofSnapshot_singleton (by decide +kernel) (by decide +kernel)

theorem accepted_namesakeUniverse {goal : Goal}
    (h : (cycleRequest goal).checkGoal .default = .ok ()) :
    (cycleRequest goal).Accepted namesakeUniverse .default 0
      ⟨goal, (cycleRequest goal).seedSet, cycleScope, ⟨none, false, none⟩⟩ :=
  accepted_of_cycleScope h (by decide +kernel)

namespace Resolver

/-- The record of the source `c` shows its own entry. -/
theorem resolve_acl_eq_entry_namesake : ∃ result,
    ((ofUniverse namesakeUniverse .default true).resolve namesakeUniverse.world
        (cycleRequest (.build 2 false)) ⟨[], 0⟩).1 = .resolved result ∧
      ∃ q ∈ result.packages, q.name = ⟨"c"⟩ ∧ q.acl = ["alice"] := by
  have hgoal : (cycleRequest (.build 2 false)).checkGoal .default = .ok () := by decide +kernel
  obtain ⟨result, hresolve, q, hq, hname, -⟩ :=
    (accepted_namesakeUniverse hgoal).exists_record_of_eval
      (ofUniverse namesakeUniverse .default true) (p := ⟨[], 0⟩) ofSnapshot_namesakeBranch rfl
      (n := ⟨"c"⟩) (k := 2) (by decide +kernel)
  obtain ⟨b, hb, hrecords⟩ := resolve_acl_eq_entry ofSnapshot_namesakeBranch hresolve
  obtain rfl := List.mem_singleton.1 (Snapshot.mem_of_branch? hb)
  refine ⟨result, hresolve, q, hq, hname, ?_⟩
  rw [(hrecords q hq).1.acl_eq, hname]
  decide +kernel

end Resolver

/-- In a full closure the record of the binary `libc`, which was built from `c`, shows the entry of
the source `libc`. -/
theorem full_shows_acl_of_namesake :
    let packages := BranchIndex.keptPackages true namesakeBranch
    ∃ result, ((Resolver.ofUniverse namesakeUniverse .default true).resolve namesakeUniverse.world
        (cycleRequest .full) ⟨[], 0⟩).1 = .resolved result ∧
      ∃ q ∈ result.packages, ∃ d ∈ packages, q.IsAbout d ∧ d.HasSource packages ⟨"c"⟩ ∧
        q.acl = ["bob"] ∧ ¬ namesakeBranch.ShowsAcl ⟨"c"⟩ q := by
  intro packages
  have haccepted : (cycleRequest .full).Accepted namesakeUniverse .default 0 _ :=
    accepted_namesakeUniverse rfl
  obtain ⟨result, hresolve, q, hq, hname, -⟩ :=
    haccepted.exists_record_of_eval (.ofUniverse namesakeUniverse .default true) (p := ⟨[], 0⟩)
      ofSnapshot_namesakeBranch rfl (n := ⟨"libc"⟩) (k := 2) (by decide +kernel)
  obtain ⟨b, hb, hrecords⟩ :=
    Resolver.exists_package_of_record ofSnapshot_namesakeBranch hresolve
  obtain rfl := List.mem_singleton.1 (Snapshot.mem_of_branch? hb)
  obtain ⟨hacl, d, hd, habout, hkind⟩ := hrecords q hq
  have hbinary : d.isSource = false := by
    rw [Bool.eq_false_iff, ne_eq, hkind]
    rintro ⟨_, _, ⟨⟩⟩
  have hsource : ∀ d ∈ packages, d.name = ⟨"libc"⟩ → d.isSource = false →
      (d.source? packages).map (·.name) = some ⟨"c"⟩ := by decide +kernel
  have hbob : q.acl = ["bob"] := by
    rw [hacl, hname]
    decide +kernel
  refine ⟨result, hresolve, q, hq, d, hd, habout, ?_, hbob, ?_⟩
  · rw [Package.HasSource, if_neg (by simp [hbinary])]
    exact hsource d hd (habout.name_eq.trans hname) hbinary
  · intro hshows
    have halice : (namesakeBranch.acl[(⟨"c"⟩ : PackageName)]?).getD [] = ["alice"] := by
      decide +kernel
    rw [hshows.acl_eq, halice] at hbob
    exact absurd hbob (by decide)

end BuildPlan
