import BuildPlan.Proofs.Universe.Scan

/-! # Snapshots built by hand

Calls declare packages, each in the branch that is under construction. The packages of a branch are
those that were declared in it, and they are numbered in turn across the branches. So no two have
one hash, each fact is about a package of its branch, and a binary belongs to the source package
that was declared with the same text, whichever of them came first.
-/
namespace BuildPlan

namespace SnapshotBuilder

inductive Call where
  | branch (name : String)
  | archs (archs : List Arch)
  | source (name : String) (requires : List String)
  | binary (source name : String) (arch : Arch) (requires provides : List String)
  | package (name : String) (requires : List String)
  | acl (name : String) (members : List String)

def apply (b : SnapshotBuilder) : Call → SnapshotBuilder
  | .branch name => b.branch name
  | .archs archs => b.archs archs
  | .source name requires => b.source name requires
  | .binary source name arch requires provides => b.binary source name arch requires provides
  | .package name requires => b.package name requires
  | .acl name members => b.acl name members

/-- The builder that has been told some things, beginning with the name of the first branch. -/
def ofCalls (first : String) (calls : List Call) : SnapshotBuilder :=
  calls.foldl apply (start first)

/-- A package as it is declared. -/
inductive Declaration where
  | source (name : String) (requires : List String)
  | binary (origin name : String) (arch : Arch) (requires provides : List String)

namespace Declaration

/-- A package that is declared after some others. -/
def record (earlier : Nat) (name : String) (arch : Arch) (isSource : Bool) (origin : String) :
    Package where
  hash := ⟨UInt64.ofNat (earlier + 1)⟩
  name := .ofText name
  version := "1.0"
  release := "alt1"
  epoch := 0
  serial := 0
  arch := arch
  isSource := isSource
  sourceRpm := archive origin
  buildTime := (Timestamp.ofSeconds? (earlier + 1)).getD .epoch

def package (earlier : Nat) : Declaration → Package
  | .source name _ => record earlier name .src true name
  | .binary origin name arch _ _ => record earlier name arch false origin

def requires : Declaration → List String
  | .source _ requires | .binary _ _ _ requires _ => requires

def provides : Declaration → List String
  | .source _ _ => []
  | .binary _ _ _ _ provides => provides

variable (d : Declaration) (earlier : Nat)

def dependencies : List Dependency :=
  d.requires.map (dependency ⟨UInt64.ofNat (earlier + 1)⟩ .require) ++
    d.provides.map (dependency ⟨UInt64.ofNat (earlier + 1)⟩ .provide)

theorem hash_package : (d.package earlier).hash = ⟨UInt64.ofNat (earlier + 1)⟩ := by
  cases d <;> rfl

theorem subject_of_mem_dependencies {e : Dependency} (he : e ∈ d.dependencies earlier) :
    e.subject = (d.package earlier).hash := by
  rw [hash_package]
  simp only [dependencies, List.mem_append, List.mem_map] at he
  obtain ⟨_, -, rfl⟩ | ⟨_, -, rfl⟩ := he <;> rfl

end Declaration

/-- The packages that a call declares. -/
def Call.declarations : Call → List Declaration
  | .branch _ | .archs _ | .acl _ _ => []
  | .source name requires => [.source name requires]
  | .binary origin name arch requires provides => [.binary origin name arch requires provides]
  | .package name requires => [.source name requires, .binary name name .x86_64 [] []]

/-- What is declared in each branch, in turn, given what has been declared in the first one. -/
def sections (name : String) (declared : List Declaration) :
    List Call → List (String × List Declaration)
  | [] => [(name, declared)]
  | .branch next :: rest => (name, declared) :: sections next [] rest
  | call :: rest => sections name (declared ++ call.declarations) rest

/-- The branch consists of what was declared in it after some other packages. -/
structure Holds (earlier : Nat) (part : String × List Declaration) (s : BranchSnapshot) :
    Prop where
  name : s.name = part.1
  packages : s.packages = (part.2.zipIdx earlier).map fun (d, i) => d.package i
  dependencies : s.dependencies = (part.2.zipIdx earlier).flatMap fun (d, i) => d.dependencies i

/-- Each branch consists of what was declared in it, after the packages of those before it. -/
inductive HoldAll : Nat → List (String × List Declaration) → List BranchSnapshot → Prop
  | nil {earlier} : HoldAll earlier [] []
  | cons {earlier part parts s rest} : Holds earlier part s →
    HoldAll (earlier + part.2.length) parts rest → HoldAll earlier (part :: parts) (s :: rest)

/-- The branch under construction holds what has been declared in it. -/
structure Stands (earlier : Nat) (part : String × List Declaration) (b : SnapshotBuilder) :
    Prop where
  holds : Holds earlier part b.current
  count : b.count = earlier + part.2.length

variable {earlier : Nat} {name : String} {declared : List Declaration} {b : SnapshotBuilder}

theorem stands_start (first : String) : (start first).Stands 0 (first, []) :=
  ⟨⟨rfl, rfl, rfl⟩, rfl⟩

/-- Adds a package as it is declared. -/
def declare (b : SnapshotBuilder) : Declaration → SnapshotBuilder
  | .source name requires => b.source name requires
  | .binary origin name arch requires provides => b.binary origin name arch requires provides

theorem packages_declare (b : SnapshotBuilder) (d : Declaration) :
    (b.declare d).current.packages = b.current.packages ++ [d.package b.count] := by
  cases d <;> rfl

theorem dependencies_declare (b : SnapshotBuilder) (d : Declaration) :
    (b.declare d).current.dependencies = b.current.dependencies ++ d.dependencies b.count := by
  cases d <;> exact List.append_assoc ..

theorem Stands.declare (h : b.Stands earlier (name, declared)) (d : Declaration) :
    (b.declare d).Stands earlier (name, declared ++ [d]) where
  holds := {
    name := by cases d <;> exact h.holds.name
    packages := by
      rw [packages_declare, h.holds.packages, h.count, List.zipIdx_append, List.map_append]
      rfl
    dependencies := by
      rw [dependencies_declare, h.holds.dependencies, h.count, List.zipIdx_append,
        List.flatMap_append]
      simp }
  count := by
    have hcount : (b.declare d).count = b.count + 1 := by cases d <;> rfl
    rw [hcount, h.count]
    simp [Nat.add_assoc]

theorem Stands.apply (h : b.Stands earlier (name, declared)) {call : Call}
    (hcall : ∀ next, call ≠ .branch next) :
    (b.apply call).Stands earlier (name, declared ++ call.declarations) ∧
      (b.apply call).earlier = b.earlier := by
  cases call with
  | branch next => exact absurd rfl (hcall next)
  | archs archs =>
    rw [Call.declarations, List.append_nil]
    exact ⟨⟨⟨h.holds.name, h.holds.packages, h.holds.dependencies⟩, h.count⟩, rfl⟩
  | acl acl members =>
    rw [Call.declarations, List.append_nil]
    exact ⟨⟨⟨h.holds.name, h.holds.packages, h.holds.dependencies⟩, h.count⟩, rfl⟩
  | source name requires => exact ⟨h.declare (.source name requires), rfl⟩
  | binary origin name arch requires provides =>
    exact ⟨h.declare (.binary origin name arch requires provides), rfl⟩
  | package name requires =>
    have hboth := (h.declare (.source name requires)).declare (.binary name name .x86_64 [] [])
    rw [List.append_assoc] at hboth
    exact ⟨hboth, rfl⟩

theorem Stands.branch (h : b.Stands earlier (name, declared)) (next : String) :
    (b.branch next).Stands (earlier + declared.length) (next, []) :=
  ⟨⟨rfl, rfl, rfl⟩, h.count⟩

theorem sections_cons {call : Call} (hcall : ∀ next, call ≠ .branch next) (rest : List Call) :
    sections name declared (call :: rest) =
      sections name (declared ++ call.declarations) rest := by
  cases call with
  | branch next => exact absurd rfl (hcall next)
  | _ => rfl

/-- The branches before the one under construction stay, and calls add to this one and the next. -/
theorem Stands.foldl_apply (h : b.Stands earlier (name, declared)) (calls : List Call) :
    ∃ branches,
      (calls.foldl SnapshotBuilder.apply b).snapshot.branches = b.earlier.reverse ++ branches ∧
        HoldAll earlier (sections name declared calls) branches := by
  induction calls generalizing b earlier name declared with
  | nil => exact ⟨[b.current], List.reverse_cons, .cons h.holds .nil⟩
  | cons call rest ih =>
    by_cases hcall : ∃ next, call = .branch next
    · obtain ⟨next, rfl⟩ := hcall
      obtain ⟨branches, hbranches, hall⟩ := ih (h.branch next)
      refine ⟨b.current :: branches, hbranches.trans ?_, .cons h.holds hall⟩
      simp [SnapshotBuilder.branch]
    · have hcall : ∀ next, call ≠ .branch next := fun next heq => hcall ⟨next, heq⟩
      obtain ⟨hstands, hearlier⟩ := h.apply hcall
      rw [sections_cons hcall, ← hearlier]
      exact ih hstands

theorem holdAll_ofCalls (first : String) (calls : List Call) :
    HoldAll 0 (sections first [] calls) (ofCalls first calls).snapshot.branches := by
  obtain ⟨branches, hbranches, hall⟩ := (stands_start first).foldl_apply calls
  have heq : (ofCalls first calls).snapshot.branches = branches := hbranches
  rwa [heq]

theorem flatMap_sections (name : String) (declared : List Declaration) (calls : List Call) :
    (sections name declared calls).flatMap Prod.snd =
      declared ++ calls.flatMap Call.declarations := by
  induction calls generalizing name declared with
  | nil => simp [sections]
  | cons call rest ih =>
    by_cases hcall : ∃ next, call = .branch next
    · obtain ⟨next, rfl⟩ := hcall
      simp [sections, ih, Call.declarations]
    · rw [sections_cons fun next heq => hcall ⟨next, heq⟩, ih]
      simp

/-! ### Hashes and facts -/

theorem Holds.hashes {part : String × List Declaration} {s : BranchSnapshot}
    (h : Holds earlier part s) : s.packages.map (·.hash) =
      (List.range' earlier part.2.length).map fun i => ⟨UInt64.ofNat (i + 1)⟩ := by
  rw [h.packages, List.map_map, ← List.zipIdx_map_snd, List.map_map]
  exact List.map_congr_left fun p _ => p.1.hash_package p.2

theorem HoldAll.hashes {parts : List (String × List Declaration)} {branches : List BranchSnapshot}
    (h : HoldAll earlier parts branches) : (branches.flatMap (·.packages)).map (·.hash) =
      (List.range' earlier (parts.flatMap Prod.snd).length).map
        fun i => ⟨UInt64.ofNat (i + 1)⟩ := by
  induction h with
  | nil => rfl
  | cons hs _ ih =>
    rw [List.flatMap_cons, List.map_append, hs.hashes, ih, List.flatMap_cons, List.length_append,
      ← List.map_append, List.range'_append_1]

theorem HoldAll.forall₂ {parts : List (String × List Declaration)}
    {branches : List BranchSnapshot} (h : HoldAll earlier parts branches) :
    List.Forall₂ (fun part s => s ∈ branches ∧ ∃ earlier, Holds earlier part s) parts branches := by
  induction h with
  | nil => exact .nil
  | cons hs _ ih =>
    refine .cons ⟨List.mem_cons_self, _, hs⟩ (ih.imp fun part s hs => ?_)
    exact ⟨List.mem_cons_of_mem _ hs.1, hs.2⟩

theorem nodup_hashes {total : Nat} (htotal : total < UInt64.size) :
    ((List.range' 0 total).map fun i => PackageHash.mk (UInt64.ofNat (i + 1))).Nodup := by
  refine List.Nodup.map_on (fun i hi j hj heq => ?_) List.nodup_range'
  have hword := congrArg (fun h : PackageHash => h.word.toNat) heq
  rw [List.mem_range'_1] at hi hj
  simp only at hword
  rw [UInt64.toNat_ofNat_of_lt' (by omega), UInt64.toNat_ofNat_of_lt' (by omega)] at hword
  omega

theorem Holds.exists_subject {part : String × List Declaration} {s : BranchSnapshot}
    (h : Holds earlier part s) {e : Dependency} (he : e ∈ s.dependencies) :
    ∃ p ∈ s.packages, p.hash = e.subject := by
  rw [h.dependencies] at he
  obtain ⟨⟨d, i⟩, hd, he⟩ := List.mem_flatMap.1 he
  refine ⟨d.package i, ?_, (d.subject_of_mem_dependencies i he).symm⟩
  rw [h.packages]
  exact List.mem_map_of_mem hd

/-! ### Owners -/

theorem archive_injective {origin origin' : String} (h : archive origin = archive origin') :
    origin = origin' := by
  have hchars := congrArg String.toList h
  simp only [archive, String.toList_append] at hchars
  exact String.toList_inj.1 (List.append_cancel_right hchars)

theorem Holds.name_of_source {part : String × List Declaration} {s : BranchSnapshot}
    (h : Holds earlier part s) {q : Package} (hq : q ∈ s.packages) (hsource : q.isSource = true)
    {origin : String} (harchive : q.sourceRpm = archive origin) : q.name = .ofText origin := by
  rw [h.packages] at hq
  obtain ⟨⟨d, i⟩, -, rfl⟩ := List.mem_map.1 hq
  cases d with
  | source name requires =>
    obtain rfl := archive_injective harchive
    rfl
  | binary => exact absurd hsource Bool.false_ne_true

theorem Holds.getElem?_packages {part : String × List Declaration} {s : BranchSnapshot}
    (h : Holds earlier part s) {i : Nat} {d : Declaration} (hd : part.2[i]? = some d) :
    s.packages[i]? = some (d.package (earlier + i)) := by
  simp [h.packages, hd]

/-- A package belongs to a source that was declared in its branch with the text of its archive. -/
theorem Holds.builtFrom {part : String × List Declaration} {s : BranchSnapshot}
    (h : Holds earlier part s) {origin : String} {needs : List String}
    (hdeclared : .source origin needs ∈ part.2) {p : Package}
    (harchive : p.sourceRpm = archive origin) : p.BuiltFrom s.packages (.ofText origin) := by
  obtain ⟨i, hi⟩ := List.getElem?_of_mem hdeclared
  have hsource := List.mem_of_getElem? (h.getElem?_packages hi)
  have hne : s.packages.filter (fun q => q.isSource && q.sourceRpm == p.sourceRpm) ≠ [] := by
    refine List.ne_nil_of_mem (List.mem_filter.2 ⟨hsource, ?_⟩)
    simp [Declaration.package, Declaration.record, harchive]
  have hlast := List.mem_filter.1 (List.getLast_mem hne)
  simp only [Bool.and_eq_true, beq_iff_eq] at hlast
  rw [Package.BuiltFrom, Package.source?, List.getLast?_eq_some_getLast hne, Option.map_some,
    h.name_of_source hlast.1 hlast.2.1 (hlast.2.2.trans harchive)]

/-- Each binary that was declared with the text of a source of the branch is found to be built from
this source, unless it is left out. -/
def Owns (skipDebuginfo : Bool) (declared : List Declaration) (branch : BranchSnapshot)
    (index : BranchIndex) : Prop :=
  ∀ (i : Nat) origin name arch requires provides needs,
    declared[i]? = some (.binary origin name arch requires provides) →
    .source origin needs ∈ declared →
    ∃ p, branch.packages[i]? = some p ∧ p.name = .ofText name ∧ p.arch = arch ∧
      p.isSource = false ∧ (p.IsShown skipDebuginfo →
        index.owner? p = some (.ofText origin) ∧
        ∀ scope : Scope, scope.admits arch = true →
          .ofText name ∈ index.binariesOf (.ofList [PackageName.ofText origin]) scope)

theorem Holds.owns {part : String × List Declaration} {s : BranchSnapshot}
    (h : Holds earlier part s) (skipDebuginfo : Bool) : Owns skipDebuginfo part.2 s
      (.ofPackages (BranchIndex.keptPackages skipDebuginfo s) s) := by
  intro i origin name arch requires provides needs hbinary hsource
  have hp := h.getElem?_packages hbinary
  refine ⟨_, hp, rfl, rfl, rfl, fun hshown => ?_⟩
  have hbuilt := h.builtFrom hsource
    (p := Declaration.package (earlier + i) (.binary origin name arch requires provides)) rfl
  rw [Package.BuiltFrom, ← Package.source?_keptPackages skipDebuginfo] at hbuilt
  refine ⟨(BranchIndex.owner?_eq_map_source? _).trans hbuilt, fun scope hadmits => ?_⟩
  have hkept := BranchIndex.mem_keptPackages.2 ⟨List.mem_of_getElem? hp, hshown⟩
  exact BranchIndex.mem_binariesOf.2 ⟨_, hkept, rfl, hbuilt, hadmits, rfl⟩

/-- Whatever a builder is told makes a universe: no two packages have one hash, each fact is about a
package of its branch, and the binaries of each branch belong to the sources declared in it. -/
theorem ofCalls_wellFormed (first : String) (calls : List Call)
    (hfew : (calls.flatMap Call.declarations).length < UInt64.size) :
    let b := ofCalls first calls
    let s := b.snapshot
    ((s.branches.flatMap (·.packages)).map (·.hash)).Nodup ∧
    (∀ branch ∈ s.branches, ∀ d ∈ branch.dependencies, ∃ p ∈ branch.packages,
      p.hash = d.subject) ∧
    (∃ u, b.build = .ok u) ∧
    ∀ skipDebuginfo, ∃ u, Universe.ofSnapshot skipDebuginfo s = .ok u ∧
      List.Forall₂ (fun part branch => branch.name = part.1 ∧
          ∃ index, BranchIndex.ofSnapshot skipDebuginfo branch = .ok index ∧
            (∀ name, s.branch? name = some branch → u.branch name = .ok index) ∧
            Owns skipDebuginfo part.2 branch index)
        (sections first [] calls) s.branches := by
  intro b s
  have hall : HoldAll 0 (sections first [] calls) s.branches := holdAll_ofCalls first calls
  have hnodup : ((s.branches.flatMap (·.packages)).map (·.hash)).Nodup := by
    rw [hall.hashes]
    refine nodup_hashes ?_
    rwa [flatMap_sections, List.nil_append]
  have hbranch : ∀ branch ∈ s.branches, (branch.packages.map (·.hash)).Nodup := by
    rw [List.map_flatMap] at hnodup
    exact (List.nodup_flatMap.1 hnodup).1
  have hindexed : ∀ skipDebuginfo, ∃ u, Universe.ofSnapshot skipDebuginfo s = .ok u :=
    fun _ => Universe.exists_ofSnapshot_of_nodup hbranch
  refine ⟨hnodup, fun branch hmem d hd => ?_, hindexed true, fun skipDebuginfo => ?_⟩
  · obtain ⟨part, -, -, earlier, hholds⟩ := exists_of_mem_forall₂ hall.forall₂ hmem
    exact hholds.exists_subject hd
  · obtain ⟨u, hu⟩ := hindexed skipDebuginfo
    refine ⟨u, hu, hall.forall₂.imp ?_⟩
    rintro part branch ⟨hmem, earlier, hholds⟩
    refine ⟨hholds.name, _, BranchIndex.ofSnapshot_eq_ok_iff.2 ⟨hbranch branch hmem, rfl⟩,
      fun name hname => ?_, hholds.owns skipDebuginfo⟩
    rw [Universe.branch_eq_ok_iff, Universe.getElem?_branches hu, hname]
    rfl

/-- In the second branch a binary is declared before its source, and another one would be left out.
The first branch has a source that no binary belongs to, since the texts differ by a blank. -/
def scatteredCalls : List Call :=
  [.source "lib" [], .branch "P11", .binary " lib" "lib-devel" .noarch ["libc"] [],
    .package "app" ["lib-devel"], .acl "app" ["alice"],
    .binary " lib" "lib-debuginfo" .x86_64 [] [], .archs [.x86_64], .source " lib" ["app"]]

theorem ofCalls_wellFormed_scattered :
    let s := (ofCalls "p10" scatteredCalls).snapshot
    let scope : Scope := .ofArchs "p11" [.x86_64] .both
    (scatteredCalls.flatMap Call.declarations).length < UInt64.size ∧
    ∃ u index, Universe.ofSnapshot true s = .ok u ∧ u.branch "p11" = .ok index ∧
      .ofText "lib-devel" ∈ index.binariesOf (.ofList [PackageName.ofText " lib"]) scope := by
  intro s scope
  have hfew : (scatteredCalls.flatMap Call.declarations).length < UInt64.size := by decide
  obtain ⟨-, -, -, hindexed⟩ := ofCalls_wellFormed "p10" scatteredCalls hfew
  obtain ⟨u, hu, hbranches⟩ := hindexed true
  obtain ⟨first, rest, -, hrest, hs⟩ := List.forall₂_cons_left_iff.1 hbranches
  obtain ⟨second, rest, ⟨hname, index, -, hindex, howns⟩, hnil, rfl⟩ :=
    List.forall₂_cons_left_iff.1 hrest
  obtain rfl := List.forall₂_nil_left_iff.1 hnil
  have hsecond : s.branch? "p11" = some second := by
    have hlower : Text.lowerCase second.name = "p11" := by
      rw [hname]
      decide +kernel
    rw [← hlower]
    exact @Snapshot.branch?_of_append _ second [first] [] hs (by simp)
  obtain ⟨p, -, hpname, -, hbinary, hlisted⟩ :=
    howns 0 " lib" "lib-devel" .noarch ["libc"] [] ["app"] rfl (by simp [Call.declarations])
  have hshown : p.IsShown true := by
    intro _
    rw [Package.isDebuginfo, hpname, hbinary]
    decide +kernel
  exact ⟨hfew, u, index, hu, hindex _ hsecond, (hlisted hshown).2 scope (by decide +kernel)⟩

end SnapshotBuilder

end BuildPlan
