import BuildPlan.Proofs.Closure.Completion
import BuildPlan.Proofs.Graph.Sort
import BuildPlan.Resolution

/-! # What a resolution emits

A checked request over a universe ends with the packages that its filters keep, in build order. Each
record says what the universe knows about its package and what the completed closure says.
-/
namespace BuildPlan

/-- A record shows which build of its package is the one that was described. -/
structure ResolvedPackage.Shows (q : ResolvedPackage) (d : Package) : Prop where
  version_eq : q.version = d.version
  release_eq : q.release = d.release
  epoch_eq : q.epoch = d.epoch
  serial_eq : q.serial = d.serial
  sourceRpm_eq : q.sourceRpm = d.sourceRpm
  buildTime_eq : q.buildTime = d.buildTime

namespace CheckedRequest

variable {u : Universe} {index : BranchIndex} {r : CheckedRequest} {c : Closure} {g : Graph}
  {o : BuildOrder} {described : Descriptions}

/-! ### Records -/

theorem record_eq_ok {n : PackageName} {p : ResolvedPackage}
    (h : r.record c g o described n = .ok p) :
    p.name = n ∧ p.acl = [] ∧ p.depth = (c.level? n).getD 0 := by
  unfold record at h
  split at h
  · cases h
  · obtain rfl := Except.ok.inj h
    exact ⟨rfl, rfl, rfl⟩

theorem record_shows {n : PackageName} {p : ResolvedPackage}
    (h : r.record c g o described n = .ok p) :
    p.cycle = o.cycleMembers n ∧ p.requires = g.requires n := by
  unfold record at h
  split at h
  · cases h
  · obtain rfl := Except.ok.inj h
    exact ⟨rfl, rfl⟩

theorem exists_description_of_record {n : PackageName} {p : ResolvedPackage}
    (h : r.record c g o described n = .ok p) :
    ∃ d, described[n]? = some d ∧ p.Shows d.package ∧ p.archs = d.archs := by
  unfold record at h
  split at h
  · cases h
  · next d hd =>
    obtain rfl := Except.ok.inj h
    exact ⟨d, hd, ⟨rfl, rfl, rfl, rfl, rfl, rfl⟩, rfl⟩

theorem record_agrees {r' : CheckedRequest} {c' : Closure} {g' : Graph} {o' : BuildOrder}
    {described' : Descriptions} {n : PackageName} {p p' : ResolvedPackage}
    (h : r.record c g o described n = .ok p) (h' : r'.record c' g' o' described' n = .ok p')
    (hbranch : r'.scope.branch = r.scope.branch) (hdescribed : described'[n]? = described[n]?)
    (hlevel : c'.level? n = c.level? n) :
    p = { p' with cycle := p.cycle, requires := p.requires } := by
  unfold record at h h'
  rw [hdescribed, hbranch, hlevel] at h'
  split at h
  · cases h
  · next d hd =>
    rw [hd] at h'
    obtain rfl := Except.ok.inj h
    obtain rfl := Except.ok.inj h'
    rfl

theorem map_name_of_mapM {names : List PackageName} {packages : List ResolvedPackage}
    (h : names.mapM (r.record c g o described) = .ok packages) :
    packages.map (·.name) = names := by
  rw [mapM_eq_ok_iff] at h
  induction h with
  | nil => rfl
  | cons hrecord _ ih => rw [List.map_cons, (record_eq_ok hrecord).1, ih]

theorem exists_mapM_record {names : List PackageName} (h : ∀ n ∈ names, n ∈ described) :
    ∃ packages, names.mapM (r.record c g o described) = .ok packages := by
  refine exists_mapM_eq_ok_iff.2 fun n hn => ?_
  obtain ⟨d, hd⟩ := Option.isSome_iff_exists.1
    (Std.ExtTreeMap.mem_iff_isSome_getElem?.1 (h n hn))
  simp [record, hd]

/-- The closure of a request when nothing is missing from it. -/
def completed (r : CheckedRequest) (index : BranchIndex) (c : Closure) : Closure :=
  c.completed index r.scope r.reading r.asSource

theorem eval_completeClosure {horizon : Nat} (hbranch : u.branch r.scope.branch = .ok index)
    (hclosure : (r.closure horizon).eval u = .ok c) :
    (r.completeClosure horizon).eval u = .ok (r.completed index c) := by
  rw [completeClosure, Program.eval_bind, hclosure]
  exact Closure.eval_complete hbranch c r.reading r.asSource

/-- The graph of what the members of the completed closure require from each other. -/
def graph (r : CheckedRequest) (index : BranchIndex) (c : Closure) : Graph :=
  (r.completed index c).graph

/-- The record of a package among those that are kept. -/
def recordOf (r : CheckedRequest) (index : BranchIndex) (c : Closure) (kept : PackageSet) :
    PackageName → Except ResolveError ResolvedPackage :=
  r.record (r.completed index c) (r.graph index c) (r.graph index c).sort
    (index.describe kept r.scope r.asSource)

/-- The records of what is kept, in build order. -/
def records (r : CheckedRequest) (index : BranchIndex) (c : Closure) (kept : PackageSet) :
    Except ResolveError (List ResolvedPackage) :=
  ((r.graph index c).sort.order.filter kept.contains).mapM (r.recordOf index c kept)

variable {kept : PackageSet} {packages : List ResolvedPackage}

theorem exists_records
    (h : ∀ n ∈ kept, (index.describeName? r.scope r.asSource n).isSome = true) :
    ∃ packages, r.records index c kept = .ok packages := by
  refine exists_mapM_record fun n hn => ?_
  have hn : n ∈ kept := by simpa using (List.mem_filter.1 hn).2
  exact BranchIndex.mem_describe.2 ⟨hn, h n hn⟩

theorem map_name_records (h : r.records index c kept = .ok packages) :
    packages.map (·.name) = (r.graph index c).sort.order.filter kept.contains :=
  map_name_of_mapM h

theorem recordOf_name (h : r.records index c kept = .ok packages) {p : ResolvedPackage}
    (hp : p ∈ packages) : r.recordOf index c kept p.name = .ok p := by
  obtain ⟨n, -, hn⟩ := exists_of_mem_mapM h hp
  rwa [(record_eq_ok hn).1]

/-! ### Annotations -/

theorem eval_annotate (h : u.branch r.scope.branch = .ok index) (width : Nat)
    (packages : List ResolvedPackage) :
    (r.annotate width packages).eval u =
      .ok (packages.map fun p => { p with acl := index.acl[p.name]?.getD [] }) := by
  have hreply : (fun n => u.reply (.aclOf n r.scope.branch)) =
      fun n => (pure (index.acl[n]?.getD []) : Except ResolveError _) := by
    funext n
    rw [Universe.reply, Universe.answer, Universe.aclOf_eq h]
    rfl
  have hzip : packages.zipWith (fun p acl => { p with acl })
      ((packages.map (·.name)).map fun n => index.acl[n]?.getD []) =
        packages.map fun p => { p with acl := index.acl[p.name]?.getD [] } := by
    rw [List.map_map, List.zipWith_map_right, List.zipWith_self]
    rfl
  simp only [annotate, Program.eval, hreply, List.mapM_pure]
  exact congrArg Except.ok hzip

/-! ### The whole program -/

/-- What the records become when those who may build the packages are noted in them. -/
def annotated (index : BranchIndex) (withAcl : Bool) (packages : List ResolvedPackage) :
    List ResolvedPackage :=
  if withAcl then packages.map fun p => { p with acl := index.acl[p.name]?.getD [] } else packages

theorem eval_program_eq_bind (resolver : Resolver) (hscope : u.checkScope r.scope = .ok ())
    (hbranch : u.branch r.scope.branch = .ok index)
    (hclosure : (r.closure resolver.horizon).eval u = .ok c) :
    (r.program resolver).eval u =
      (r.filters.kept r.scope r.reading (r.graph index c) (r.graph index c).sort
          c.discovered).eval u >>= fun kept =>
        r.records index c kept >>= fun packages =>
          .ok ⟨r.scope.branch, annotated index resolver.withAcl packages⟩ := by
  have hcheck : (Program.call (.checkScope r.scope) : Program Unit).eval u = .ok () := by
    refine (Program.eval_call u (.checkScope r.scope)).trans ?_
    rw [Universe.reply, Universe.answer, hscope]
    rfl
  have hcomplete := eval_completeClosure hbranch hclosure
  have hdiscovered : (r.completed index c).discovered = c.discovered :=
    Closure.discovered_completed
  simp only [program, Program.eval_bind, hcheck, hcomplete, hdiscovered,
    Program.eval_describe hbranch, ok_bind, records, recordOf, graph]
  refine bind_congr fun kept => ?_
  split
  · next e he =>
    rw [he]
    rfl
  · next packages hpackages =>
    rw [hpackages, ok_bind]
    cases resolver.withAcl with
    | true =>
      simp only [if_true, Program.eval_bind, eval_annotate hbranch]
      rfl
    | false => rfl

theorem annotated_records (h : r.records index c kept = .ok packages) (withAcl : Bool) :
    (annotated index withAcl packages).map (·.name) =
        (r.graph index c).sort.order.filter kept.contains ∧
      ∀ p ∈ annotated index withAcl packages,
        r.recordOf index c kept p.name = .ok { p with acl := [] } ∧
          p.acl = if withAcl then index.acl[p.name]?.getD [] else [] := by
  have hacl : ∀ p ∈ packages, p = { p with acl := [] } := by
    intro p hp
    rw [← (record_eq_ok (recordOf_name h hp)).2.1]
  cases withAcl with
  | true =>
    rw [annotated, if_pos rfl, List.map_map]
    refine ⟨map_name_records h, fun p hp => ?_⟩
    obtain ⟨q, hq, rfl⟩ := List.mem_map.1 hp
    exact ⟨(recordOf_name h hq).trans (congrArg Except.ok (hacl q hq)), rfl⟩
  | false =>
    refine ⟨map_name_records h, fun p hp => ?_⟩
    have hrecord := recordOf_name h hp
    exact ⟨hrecord.trans (congrArg Except.ok (hacl p hp)), (record_eq_ok hrecord).2.1⟩

theorem mem_of_mem_annotated (h : r.records index c kept = .ok packages) {withAcl : Bool}
    {p : ResolvedPackage} (hp : p ∈ annotated index withAcl packages) :
    p.name ∈ (r.graph index c).nodes ∧ p.name ∈ kept := by
  have hname : p.name ∈ (r.graph index c).sort.order.filter kept.contains :=
    (annotated_records h withAcl).1 ▸ List.mem_map_of_mem hp
  obtain ⟨horder, hkept⟩ := List.mem_filter.1 hname
  exact ⟨Graph.mem_order_sort.1 horder, Std.ExtTreeSet.contains_iff_mem.1 hkept⟩

theorem mem_names_annotated (h : r.records index c kept = .ok packages) (withAcl : Bool)
    (hkept : ∀ n ∈ kept, n ∈ c.members) {n : PackageName} :
    n ∈ (annotated index withAcl packages).map (·.name) ↔ n ∈ kept := by
  rw [(annotated_records h withAcl).1, List.mem_filter, Graph.mem_order_sort, graph,
    Closure.mem_nodes_graph, Std.ExtTreeSet.contains_iff_mem]
  exact and_iff_right_of_imp (hkept n)

theorem level_of_mem_annotated (h : r.records index c kept = .ok packages) {withAcl : Bool}
    (hkept : ∀ n ∈ kept, n ∈ c.members) {p : ResolvedPackage}
    (hp : p ∈ annotated index withAcl packages) : c.levels[p.name]? = some p.depth := by
  have hrecord := ((annotated_records h withAcl).2 p hp).1
  have hdepth : p.depth = (c.levels[p.name]?).getD 0 := (record_eq_ok hrecord).2.2
  obtain ⟨k, hk⟩ := Closure.mem_members.1 (hkept p.name (mem_of_mem_annotated h hp).2)
  rw [hdepth, hk]
  rfl

end CheckedRequest

end BuildPlan
