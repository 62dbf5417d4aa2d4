import BuildPlan.Proofs.Resolution.Consumers
import BuildPlan.Proofs.Universe.Sight

/-! # What backs a record

A record shows a single package, the last one built under its name, and the architectures of all the
binaries behind the name. The name was found through a binary that provides something, and the
package is looked up by the name alone. All the same a binary stands behind every record.
-/
namespace BuildPlan

/-! ### The newest package of a kind -/

/-- Of the packages with some property this one was built last, with the greatest hash among those
of one moment. -/
structure Package.IsNewest (P : Package → Prop) (p : Package) : Prop where
  prop : P p
  older : ∀ q, P q → q = p ∨ byAge q p = .lt

theorem Package.isNewest_of_newest? {P : Package → Prop} {packages : List Package} {p : Package}
    (hmem : ∀ q, q ∈ packages ↔ P q) (hhash : ∀ q q', P q → P q' → q.hash = q'.hash → q = q')
    (h : newest? packages = some p) : p.IsNewest P := by
  have hp : P p := (hmem p).1 (mem_of_newest? h)
  constructor
  · exact hp
  · intro q hq
    have hle := isLE_of_newest? h ((hmem q).2 hq)
    cases hage : byAge q p with
    | lt => exact Or.inr rfl
    | eq => exact Or.inl (hhash q p hq hp (hash_eq_of_byAge hage))
    | gt => simp [hage] at hle

/-! ### Descriptions -/

namespace BranchIndex.Represents

variable {index : BranchIndex} {packages : List Package} {b : BranchSnapshot} {scope : Scope}
  {asSource : Bool} {n : PackageName} {d : Description} (h : index.Represents packages b)
include h

theorem hash_injective {p q : Package} (hp : p ∈ packages) (hq : q ∈ packages)
    (hhash : p.hash = q.hash) : p = q :=
  List.inj_on_of_nodup_map h.nodup_hash hp hq hhash

theorem describe_source (hd : index.describeName? scope true n = some d) :
    d.package.IsNewest (fun p => p ∈ packages ∧ p.isSource = true ∧ p.name = n) ∧
      ∀ a, a ∈ d.archs ↔
        ∃ p : Package, p.IsBinaryIn packages scope ∧ p.BuiltFrom packages n ∧ p.arch = a := by
  have hmem : ∀ p, p ∈ (index.named.values n).filter (·.isSource) ↔
      p ∈ packages ∧ p.isSource = true ∧ p.name = n := by
    intro p
    rw [List.mem_filter, h.mem_named, and_assoc, and_comm (a := p.name = n)]
  simp only [describeName?, if_true, Option.map_eq_some_iff] at hd
  obtain ⟨p, hp, rfl⟩ := hd
  constructor
  · exact Package.isNewest_of_newest? hmem (fun q q' hq hq' => h.hash_injective hq.1 hq'.1) hp
  · intro a
    simp only [Std.ExtTreeSet.mem_ofList, List.contains_iff_mem, List.mem_map, h.mem_binariesFrom]
    constructor
    · rintro ⟨q, ⟨hq, hbinary, hsource, hadmits⟩, harch⟩
      exact ⟨q, ⟨hq, hbinary, hadmits⟩, hsource, harch⟩
    · rintro ⟨q, hq, hsource, harch⟩
      exact ⟨q, ⟨hq.mem, hq.binary, hsource, hq.admits⟩, harch⟩

theorem describe_binary (hd : index.describeName? scope false n = some d) :
    d.package.IsNewest (fun p => p.IsBinaryIn packages scope ∧ p.name = n) ∧
      ∀ a, a ∈ d.archs ↔ ∃ p : Package, p.IsBinaryIn packages scope ∧ p.name = n ∧ p.arch = a := by
  have hmem : ∀ p, p ∈ (index.named.values n).filter
      (fun p => !p.isSource && scope.admits p.arch) ↔ p.IsBinaryIn packages scope ∧ p.name = n := by
    intro p
    rw [List.mem_filter, h.mem_named, Bool.and_eq_true, Bool.not_eq_true']
    constructor
    · intro ⟨⟨hp, hname⟩, hbinary, hadmits⟩
      exact ⟨⟨hp, hbinary, hadmits⟩, hname⟩
    · intro ⟨hp, hname⟩
      exact ⟨⟨hp.mem, hname⟩, hp.binary, hp.admits⟩
  simp only [describeName?, Bool.false_eq_true, if_false, Option.map_eq_some_iff] at hd
  obtain ⟨p, hp, rfl⟩ := hd
  constructor
  · exact Package.isNewest_of_newest? hmem
      (fun q q' hq hq' => h.hash_injective hq.1.mem hq'.1.mem) hp
  · intro a
    simp only [Std.ExtTreeSet.mem_ofList, List.contains_iff_mem, List.mem_map, hmem, and_assoc]

theorem exists_binary_of_mem_archs (hd : index.describeName? scope asSource n = some d) {a : Arch}
    (ha : a ∈ d.archs) : ∃ p : Package, p.IsBinaryIn packages scope ∧ p.arch = a := by
  cases asSource with
  | true =>
    obtain ⟨p, hp, -, harch⟩ := ((h.describe_source hd).2 a).1 ha
    exact ⟨p, hp, harch⟩
  | false =>
    obtain ⟨p, hp, -, harch⟩ := ((h.describe_binary hd).2 a).1 ha
    exact ⟨p, hp, harch⟩

theorem isEmpty_archs_eq_false (hd : index.describeName? scope asSource n = some d)
    {c : Capability} (hc : n ∈ index.providersOfCapability scope asSource c) :
    d.archs.isEmpty = false := by
  obtain ⟨p, hp, -, hbinary, hadmits, -, hfound⟩ := h.mem_providersOfCapability.1 hc
  have harch : p.arch ∈ d.archs := by
    cases asSource with
    | true => exact ((h.describe_source hd).2 _).2 ⟨p, ⟨hp, hbinary, hadmits⟩, hfound, rfl⟩
    | false =>
      have hname : p.name = n := Option.some.inj hfound
      exact ((h.describe_binary hd).2 _).2 ⟨p, ⟨hp, hbinary, hadmits⟩, hname, rfl⟩
  rw [← Bool.not_eq_true, isEmpty_iff_forall_notMem]
  intro hempty
  exact hempty p.arch harch

end BranchIndex.Represents

/-! ### Records -/

/-- A record says how an index describes its package, which provides something in the scope. -/
structure ResolvedPackage.ComesFrom (q : ResolvedPackage) (r : CheckedRequest)
    (index : BranchIndex) (d : Description) : Prop where
  describe_eq : index.describeName? r.scope r.asSource q.name = some d
  shows : q.Shows d.package
  archs_eq : q.archs = d.archs
  exists_provides : ∃ c, q.name ∈ index.providersOfCapability r.scope r.asSource c

theorem CheckedRequest.Emits.exists_comesFrom {u : Universe} {r : CheckedRequest} {horizon : Nat}
    {index : BranchIndex} {c : Closure} {kept : PackageSet} {packages : List ResolvedPackage}
    (hemits : r.Emits index c kept packages) (h : r.Finds u horizon index c) {withAcl : Bool}
    {q : ResolvedPackage} (hq : q ∈ annotated index withAcl packages) :
    ∃ d, q.ComesFrom r index d := by
  obtain ⟨hrecord, -⟩ := (annotated_records hemits.records_eq withAcl).2 q hq
  obtain ⟨d, hd, hshows, harchs⟩ := exists_description_of_record hrecord
  have hfound := hemits.mem_discovered (mem_of_mem_annotated hemits.records_eq hq).2
  obtain ⟨hmem, hseed⟩ := h.mem_discovered.1 hfound
  obtain ⟨n, a, -, hprovides⟩ := h.grown.exists_leads q.name hmem hseed
  rw [scope_expansion, asSource_expansion] at hprovides
  refine ⟨d, (BranchIndex.getElem?_describe.1 hd).2, ?_, harchs, a, hprovides⟩
  exact ⟨hshows.1, hshows.2, hshows.3, hshows.4, hshows.5, hshows.6⟩

namespace Resolver

variable {u : Universe} {skipDebuginfo : Bool} {s : Snapshot} {resolver : Resolver}
  {request : Request} {p : Progress} {result : Resolution}

theorem exists_comesFrom_of_resolve (hu : Universe.ofSnapshot skipDebuginfo s = .ok u)
    (h : (resolver.resolve u.world request p).1 = .resolved result) :
    ∃ checked b, request.Accepted u resolver.config p.now checked ∧
      s.branch? checked.scope.branch = some b ∧ result.branch = checked.scope.branch ∧
      let packages := BranchIndex.keptPackages skipDebuginfo b
      let index := BranchIndex.ofPackages packages b
      index.Represents packages b ∧ ∀ q ∈ result.packages, (∃ d, q.ComesFrom checked index d) ∧
        q.acl = if resolver.withAcl then (b.acl[q.name]?).getD [] else [] := by
  obtain ⟨checked, index, c, kept, packages, haccepted, hfinds, hemits, rfl⟩ :=
    exists_emits_of_resolve h
  obtain ⟨b, hb, rfl⟩ := Universe.exists_branch? hu hfinds.branch_eq
  have hhash := Universe.nodup_hash_of_branch? hu hb
  refine ⟨checked, b, haccepted, hb, rfl, BranchIndex.represents_ofPackages hhash, ?_⟩
  intro q hq
  exact ⟨hemits.exists_comesFrom hfinds hq,
    ((CheckedRequest.annotated_records hemits.records_eq resolver.withAcl).2 q hq).2⟩

/-- In a build closure a record shows the newest source package of its name and the architectures
of the binaries built from it, in a full closure the newest binary of its name and the architectures
of all of them. Whichever it is, there is a binary. -/
theorem resolve_records_eq_newest (hu : Universe.ofSnapshot skipDebuginfo s = .ok u)
    (h : (resolver.resolve u.world request p).1 = .resolved result) :
    ∃ checked b, request.check resolver.config = .ok checked ∧
      s.branch? checked.scope.branch = some b ∧
      let packages := BranchIndex.keptPackages skipDebuginfo b
      let scope := checked.scope
      ∀ q ∈ result.packages, q.archs.isEmpty = false ∧
        ((∃ depth halfStep, request.goal = .build depth halfStep) →
          (∃ d : Package, q.Shows d ∧
            d.IsNewest fun d => d ∈ packages ∧ d.isSource = true ∧ d.name = q.name) ∧
          ∀ a, a ∈ q.archs ↔ ∃ d : Package, d.IsBinaryIn packages scope ∧
            d.BuiltFrom packages q.name ∧ d.arch = a) ∧
        (request.goal = .full →
          (∃ d : Package, q.Shows d ∧
            d.IsNewest fun d => d.IsBinaryIn packages scope ∧ d.name = q.name) ∧
          ∀ a, a ∈ q.archs ↔
            ∃ d : Package, d.IsBinaryIn packages scope ∧ d.name = q.name ∧ d.arch = a) := by
  obtain ⟨checked, b, haccepted, hb, -, hindex, hrecords⟩ :=
    exists_comesFrom_of_resolve hu h
  refine ⟨checked, b, haccepted.check_eq, hb, ?_⟩
  intro packages scope q hq
  obtain ⟨⟨d, hd⟩, -⟩ := hrecords q hq
  have hdescribe := hd.describe_eq
  obtain ⟨c, hc⟩ := hd.exists_provides
  rw [hd.archs_eq]
  refine ⟨hindex.isEmpty_archs_eq_false hdescribe hc, ?_, ?_⟩
  · intro ⟨depth, halfStep, hgoal⟩
    have hsource : checked.asSource = true := by
      rw [CheckedRequest.asSource, haccepted.goal_eq, hgoal]
    rw [hsource] at hdescribe
    obtain ⟨hnewest, harchs⟩ := hindex.describe_source hdescribe
    exact ⟨⟨d.package, hd.shows, hnewest⟩, harchs⟩
  · intro hgoal
    have hsource : checked.asSource = false := by
      rw [CheckedRequest.asSource, haccepted.goal_eq, hgoal]
    rw [hsource] at hdescribe
    obtain ⟨hnewest, harchs⟩ := hindex.describe_binary hdescribe
    exact ⟨⟨d.package, hd.shows, hnewest⟩, harchs⟩

end Resolver

/-- The source `b` was built twice. One of its binaries bears the architecture of sources. -/
def rebuiltBranch : BranchSnapshot :=
  (SnapshotBuilder.start "Sisyphus"
    |>.source "a" ["b"] |>.package "b" []
    |>.source "b" [] |>.binary "b" "b-devel" .src [] []).current

def rebuiltUniverse : Universe :=
  ⟨.ofList [("sisyphus",
    BranchIndex.ofPackages (BranchIndex.keptPackages true rebuiltBranch) rebuiltBranch)]⟩

theorem ofSnapshot_rebuiltBranch :
    Universe.ofSnapshot true ⟨[rebuiltBranch]⟩ = .ok rebuiltUniverse :=
  Universe.ofSnapshot_singleton (by decide +kernel) (by decide +kernel)

theorem accepted_rebuiltUniverse {goal : Goal}
    (h : (cycleRequest goal).checkGoal .default = .ok ()) :
    (cycleRequest goal).Accepted rebuiltUniverse .default 0
      ⟨goal, (cycleRequest goal).seedSet, cycleScope, ⟨none, false, none⟩⟩ :=
  accepted_of_cycleScope h (by decide +kernel)

theorem exists_resolved_rebuiltUniverse : ∃ result,
    ((Resolver.ofUniverse rebuiltUniverse .default true).resolve rebuiltUniverse.world
        (cycleRequest (.build 2 false)) ⟨[], 0⟩).1 = .resolved result ∧
      ∃ q ∈ result.packages, q.name = ⟨"b"⟩ := by
  have hgoal : (cycleRequest (.build 2 false)).checkGoal .default = .ok () := by decide +kernel
  obtain ⟨result, hresolve, q, hq, hname, -⟩ :=
    (accepted_rebuiltUniverse hgoal).exists_record_of_eval
      (.ofUniverse rebuiltUniverse .default true) (p := ⟨[], 0⟩) ofSnapshot_rebuiltBranch rfl
      (n := ⟨"b"⟩) (k := 2) (by decide +kernel)
  exact ⟨result, hresolve, q, hq, hname⟩

namespace Resolver

/-- The record of `b` shows the second source package, and the binary of the first one. -/
theorem resolve_records_eq_newest_rebuilt : ∃ result,
    ((ofUniverse rebuiltUniverse .default true).resolve rebuiltUniverse.world
        (cycleRequest (.build 2 false)) ⟨[], 0⟩).1 = .resolved result ∧
      ∃ q ∈ result.packages, q.name = ⟨"b"⟩ ∧ .x86_64 ∈ q.archs ∧
        some q.buildTime = Timestamp.ofSeconds? 4 := by
  obtain ⟨result, hresolve, q, hq, hname⟩ := exists_resolved_rebuiltUniverse
  obtain ⟨checked, b, hcheck, hb, hrecords⟩ :=
    resolve_records_eq_newest ofSnapshot_rebuiltBranch hresolve
  obtain rfl := List.mem_singleton.1 (Snapshot.mem_of_branch? hb)
  obtain rfl := Except.ok.inj
    ((accepted_rebuiltUniverse (by decide +kernel)).check_eq.symm.trans hcheck)
  obtain ⟨-, hbuild, -⟩ := hrecords q hq
  obtain ⟨⟨d, hshows, hnewest⟩, harchs⟩ := hbuild ⟨2, false, rfl⟩
  rw [hname] at hnewest harchs
  let packages := BranchIndex.keptPackages true rebuiltBranch
  have hbinary : ∃ d ∈ packages, d.isSource = false ∧ cycleScope.admits d.arch = true ∧
      (d.source? packages).map (·.name) = some ⟨"b"⟩ ∧ d.arch = .x86_64 := by decide +kernel
  have htime : ∀ d ∈ packages, d.isSource = true → d.name = ⟨"b"⟩ →
      some d.buildTime = Timestamp.ofSeconds? 4 ∨ ∃ d' ∈ packages, d'.isSource = true ∧
        d'.name = ⟨"b"⟩ ∧ d' ≠ d ∧ Package.byAge d' d ≠ .lt := by decide +kernel
  refine ⟨result, hresolve, q, hq, hname, ?_, ?_⟩
  · obtain ⟨d, hd, hkind, hadmits, hsource, harch⟩ := hbinary
    exact (harchs _).2 ⟨d, ⟨hd, hkind, hadmits⟩, hsource, harch⟩
  · obtain ⟨hd, hkind, hdname⟩ := hnewest.prop
    rw [hshows.buildTime_eq]
    apply (htime d hd hkind hdname).resolve_right
    intro ⟨d', hd', hkind', hname', hne, hnewer⟩
    exact (hnewest.older d' ⟨hd', hkind', hname'⟩).elim hne hnewer

variable {u : Universe} {skipDebuginfo : Bool} {s : Snapshot} {resolver : Resolver}
  {request : Request} {p : Progress} {result : Resolution}

/-- A record shows architectures of the scope alone, unless there is a binary that bears the
architecture of sources. -/
theorem resolve_archs_in_scope (hu : Universe.ofSnapshot skipDebuginfo s = .ok u)
    (h : (resolver.resolve u.world request p).1 = .resolved result) :
    ∃ checked b, request.check resolver.config = .ok checked ∧
      s.branch? checked.scope.branch = some b ∧
      let packages := BranchIndex.keptPackages skipDebuginfo b
      let scope := checked.scope
      (∀ a, a ∈ scope.archs ↔ a = .noarch ∨ a ≠ .src ∧
        ((∃ text ∈ request.scope.archs, Arch.ofText? text = some a) ∨
          request.scope.archs = [] ∧ a ∈ resolver.config.archsFor scope.branch)) ∧
      (∀ q ∈ result.packages, ∀ a ∈ q.archs, a ∈ scope.archs ∨
        a = .src ∧ ∃ d ∈ packages, d.isSource = false ∧ d.arch = .src) ∧
      ((∀ d ∈ packages, d.isSource = false → d.arch ≠ .src) →
        ∀ q ∈ result.packages, ∀ a ∈ q.archs, a ∈ scope.archs) := by
  obtain ⟨checked, b, haccepted, hb, -, hindex, hrecords⟩ :=
    exists_comesFrom_of_resolve hu h
  have harchs : ∀ q ∈ result.packages, ∀ a ∈ q.archs, a ∈ checked.scope.archs ∨
      a = .src ∧ ∃ d ∈ BranchIndex.keptPackages skipDebuginfo b,
        d.isSource = false ∧ d.arch = .src := by
    intro q hq a ha
    obtain ⟨⟨d, hd⟩, -⟩ := hrecords q hq
    rw [hd.archs_eq] at ha
    obtain ⟨d', hbinary, rfl⟩ := hindex.exists_binary_of_mem_archs hd.describe_eq ha
    rcases Scope.admits_iff.1 hbinary.admits with hsrc | hscope
    · exact Or.inr ⟨hsrc, d', hbinary.mem, hbinary.binary, hsrc⟩
    · exact Or.inl hscope
  refine ⟨checked, b, haccepted.check_eq, hb, ?_, harchs, ?_⟩
  · intro a
    exact haccepted.mem_archs
  · intro hsources q hq a ha
    apply (harchs q hq a ha).resolve_right
    rintro ⟨-, d, hd, hbinary, hsrc⟩
    exact hsources d hd hbinary hsrc

theorem resolve_archs_in_scope_cycle : ∃ result,
    ((ofUniverse cycleUniverse .default true).resolve cycleUniverse.world
        (cycleRequest .full) ⟨[], 0⟩).1 = .resolved result ∧
      ⟨"libc"⟩ ∈ result.names ∧ ∀ q ∈ result.packages, ∀ a ∈ q.archs, a ∈ cycleScope.archs := by
  obtain ⟨result, hresolve, hname⟩ := exists_resolved_cycleRequest
  obtain ⟨checked, b, hcheck, hb, -, -, harchs⟩ :=
    resolve_archs_in_scope ofSnapshot_cycleBranch hresolve
  obtain rfl := List.mem_singleton.1 (Snapshot.mem_of_branch? hb)
  obtain rfl := Except.ok.inj ((accepted_cycleRequest rfl).check_eq.symm.trans hcheck)
  exact ⟨result, hresolve, hname, harchs (by decide +kernel)⟩

end Resolver

/-- The record of `b` shows the architecture of sources, which is none of those asked for. -/
theorem archs_show_src_of_binary : ∃ result checked,
    ((Resolver.ofUniverse rebuiltUniverse .default true).resolve rebuiltUniverse.world
        (cycleRequest (.build 2 false)) ⟨[], 0⟩).1 = .resolved result ∧
      (cycleRequest (.build 2 false)).check .default = .ok checked ∧
      ∃ q ∈ result.packages, .src ∈ q.archs ∧ .src ∉ checked.scope.archs := by
  obtain ⟨result, hresolve, q, hq, hname⟩ := exists_resolved_rebuiltUniverse
  obtain ⟨checked, b, haccepted, hb, -, hindex, hrecords⟩ :=
    Resolver.exists_comesFrom_of_resolve ofSnapshot_rebuiltBranch hresolve
  obtain rfl := List.mem_singleton.1 (Snapshot.mem_of_branch? hb)
  obtain rfl := Except.ok.inj
    ((accepted_rebuiltUniverse (by decide +kernel)).check_eq.symm.trans haccepted.check_eq)
  have hbinary : ∃ d ∈ BranchIndex.keptPackages true rebuiltBranch, d.isSource = false ∧
      cycleScope.admits d.arch = true ∧ (d.source? (BranchIndex.keptPackages true
        rebuiltBranch)).map (·.name) = some ⟨"b"⟩ ∧ d.arch = .src := by decide +kernel
  obtain ⟨d', hd', hkind, hadmits, hsource, harch⟩ := hbinary
  obtain ⟨⟨d, hd⟩, -⟩ := hrecords q hq
  obtain ⟨-, harchs⟩ := hindex.describe_source hd.describe_eq
  refine ⟨result, _, hresolve, haccepted.check_eq, q, hq, ?_, by decide +kernel⟩
  rw [hd.archs_eq, harchs, hname]
  exact ⟨d', ⟨hd', hkind, hadmits⟩, hsource, harch⟩

end BuildPlan
