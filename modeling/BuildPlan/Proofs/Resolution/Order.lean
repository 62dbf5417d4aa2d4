import BuildPlan.Proofs.Graph.Precedence
import BuildPlan.Proofs.Resolution.Outcome

/-! # The order of a result

The packages of a result stand as they do in the build order of the whole closure, to which the
seeds and everything that filters leave out belong. So a result can be built from its front to its
back, one cycle after the other.
-/
namespace BuildPlan

/-- Records that stand in the build order of a graph, each of them with its cycle. -/
structure Graph.Lists (g : Graph) (packages : List ResolvedPackage) : Prop where
  nodup : (packages.map (·.name)).Nodup
  mem_nodes : ∀ a ∈ packages, a.name ∈ g.nodes
  mem_cycle : ∀ a ∈ packages, ∀ n, n ∈ a.cycle ↔ n ≠ a.name ∧ g.Joined a.name n
  groupNumber_le : packages.Pairwise fun a b =>
    g.sort.groupNumber a.name ≤ g.sort.groupNumber b.name

namespace Graph.Lists

variable {g : Graph} {packages : List ResolvedPackage} (h : g.Lists packages) {i j k : Nat}
  {a b d : ResolvedPackage}
include h

theorem name_ne (ha : packages[i]? = some a) (hb : packages[j]? = some b) (hij : i ≠ j) :
    a.name ≠ b.name := by
  intro hname
  have hi : (packages.map (·.name))[i]? = some a.name := by simp [ha]
  have hj : (packages.map (·.name))[j]? = some b.name := by simp [hb]
  obtain ⟨hlt, -⟩ := List.getElem?_eq_some_iff.1 hi
  exact hij ((List.getElem?_inj hlt h.nodup).1 (by rw [hi, hj, hname]))

theorem groupNumber_le_of_lt (ha : packages[i]? = some a) (hb : packages[j]? = some b)
    (hij : i < j) : g.sort.groupNumber a.name ≤ g.sort.groupNumber b.name := by
  obtain ⟨hi, rfl⟩ := List.getElem?_eq_some_iff.1 ha
  obtain ⟨hj, rfl⟩ := List.getElem?_eq_some_iff.1 hb
  exact List.pairwise_iff_getElem.1 h.groupNumber_le i j hi hj hij

theorem joined_iff (ha : packages[i]? = some a) (hb : packages[j]? = some b) :
    g.Joined a.name b.name ↔ g.sort.groupNumber a.name = g.sort.groupNumber b.name :=
  (groupNumber_sort_eq_iff (h.mem_nodes a (List.mem_of_getElem? ha))
    (h.mem_nodes b (List.mem_of_getElem? hb))).symm

theorem lt_of_reaches (ha : packages[i]? = some a) (hb : packages[j]? = some b)
    (hab : g.Reaches a.name b.name) (hba : ¬ g.Reaches b.name a.name) : j < i := by
  by_contra hle
  rcases Nat.eq_or_lt_of_le (Nat.not_lt.1 hle) with rfl | hlt
  · obtain rfl := Option.some.inj (ha.symm.trans hb)
    exact hba .refl
  · have hsame := Nat.le_antisymm (h.groupNumber_le_of_lt ha hb hlt) hab.groupNumber_sort_le
    exact hba ((h.joined_iff ha hb).2 hsame).2

theorem mem_cycle_iff (ha : packages[i]? = some a) (hb : packages[j]? = some b) (hij : i ≠ j) :
    b.name ∈ a.cycle ↔ g.Joined a.name b.name := by
  rw [h.mem_cycle a (List.mem_of_getElem? ha)]
  exact and_iff_right (h.name_ne ha hb hij).symm

theorem mem_cycle_of_between (ha : packages[i]? = some a) (hb : packages[j]? = some b)
    (hd : packages[k]? = some d) (hik : i < k) (hkj : k < j) (hab : g.Joined a.name b.name) :
    d.name ∈ a.cycle ∧ d.name ∈ b.cycle := by
  have hsame := (h.joined_iff ha hb).1 hab
  have hak := h.groupNumber_le_of_lt ha hd hik
  have hkb := h.groupNumber_le_of_lt hd hb hkj
  rw [h.mem_cycle_iff ha hd (by omega), h.mem_cycle_iff hb hd (by omega), h.joined_iff ha hd,
    h.joined_iff hb hd]
  omega

end Graph.Lists

theorem CheckedRequest.lists_annotated {r : CheckedRequest} {index : BranchIndex} {c : Closure}
    {kept : PackageSet} {packages : List ResolvedPackage}
    (h : r.records index c kept = .ok packages) (withAcl : Bool) :
    (r.graph index c).Lists (annotated index withAcl packages) := by
  obtain ⟨hnames, hrecords⟩ := annotated_records h withAcl
  have hnodes : ∀ a ∈ annotated index withAcl packages, a.name ∈ (r.graph index c).nodes :=
    fun a ha => (mem_of_mem_annotated h ha).1
  refine ⟨?_, hnodes, fun a ha n => ?_, ?_⟩
  · rw [hnames]
    exact (Graph.nodup_order_sort _).filter _
  · rw [(record_shows (hrecords a ha).1).1, Graph.mem_cycleMembers_sort]
    exact and_iff_right (hnodes a ha)
  · have hpairwise := (Graph.pairwise_order_sort (r.graph index c)).filter kept.contains
    rwa [← hnames, List.pairwise_map] at hpairwise

namespace Resolver

variable {resolver : Resolver} {u : Universe} {request : Request} {p : Progress}

/-- A result names no seed and nothing twice, and what a package requires stands before it, even if
the way leads through packages that are left out. Only the packages of a cycle may require each
other; they stand side by side, and each of them names the others. -/
theorem resolve_front_to_back {result : Resolution}
    (h : (resolver.resolve u.world request p).1 = .resolved result) :
    ∃ checked c, request.check resolver.config = .ok checked ∧
      (checked.completeClosure resolver.horizon).eval u = .ok c ∧
      result.names.Nodup ∧ (∀ n ∈ result.names, n ∉ checked.seeds) ∧
      ∀ (i j : Nat) (a b : ResolvedPackage), result.packages[i]? = some a →
        result.packages[j]? = some b → i ≠ j →
        (c.graph.Reaches a.name b.name → ¬ c.graph.Reaches b.name a.name → j < i) ∧
        (c.graph.Reaches a.name b.name ∧ c.graph.Reaches b.name a.name →
          b.name ∈ a.cycle ∧ a.name ∈ b.cycle ∧
            ∀ (k : Nat) (d : ResolvedPackage), i < k → k < j → result.packages[k]? = some d →
              d.name ∈ a.cycle ∧ d.name ∈ b.cycle) ∧
        (¬ (c.graph.Reaches a.name b.name ∧ c.graph.Reaches b.name a.name) →
          b.name ∉ a.cycle ∧ a.name ∉ b.cycle) := by
  obtain ⟨checked, haccepted, heval⟩ := accepted_of_resolve h
  obtain ⟨index, c, hfinds⟩ :=
    CheckedRequest.exists_finds haccepted.checkScope_eq resolver.horizon
  obtain ⟨kept, packages, hemits, rfl⟩ := hfinds.exists_emits_of_eval resolver heval
  have hlists := CheckedRequest.lists_annotated hemits.records_eq resolver.withAcl
  refine ⟨checked, _, haccepted.check_eq, hfinds.eval_completeClosure, hlists.nodup,
    fun n hn => ?_, fun i j a b ha hb hij => ⟨hlists.lt_of_reaches ha hb, ?_, ?_⟩⟩
  · exact (hfinds.mem_discovered.1
      (hemits.mem_discovered ((hemits.mem_names_annotated _).1 hn))).2
  · intro hab
    exact ⟨(hlists.mem_cycle_iff ha hb hij).2 hab,
      (hlists.mem_cycle_iff hb ha hij.symm).2 (Graph.Joined.symm hab),
      fun k d hik hkj hd => hlists.mem_cycle_of_between ha hb hd hik hkj hab⟩
  · intro hab
    exact ⟨mt (hlists.mem_cycle_iff ha hb hij).1 hab,
      fun hmem => hab (Graph.Joined.symm ((hlists.mem_cycle_iff hb ha hij.symm).1 hmem))⟩

theorem get?_eq_some_iff_of_resolve {result : Resolution}
    (h : (resolver.resolve u.world request p).1 = .resolved result) {name : String}
    {a : ResolvedPackage} :
    result.get? name = some a ↔ a ∈ result.packages ∧ a.name = ⟨name⟩ := by
  obtain ⟨checked, index, c, kept, packages, -, -, hemits, rfl⟩ := exists_emits_of_resolve h
  have hnodup := (CheckedRequest.lists_annotated hemits.records_eq resolver.withAcl).nodup
  have hfound : ∀ {l : List ResolvedPackage} {b}, (l.find? fun q => q.name.text == name) = some b →
      b ∈ l ∧ b.name = ⟨name⟩ := by
    intro l b hb
    have htext := List.find?_some hb
    exact ⟨List.mem_of_find?_eq_some hb, congrArg PackageName.mk (beq_iff_eq.1 htext)⟩
  refine ⟨hfound, fun ⟨ha, hname⟩ => ?_⟩
  cases hget : Resolution.get? _ name with
  | none => exact absurd (List.find?_eq_none.1 hget a ha) (by simp [hname])
  | some b =>
    obtain ⟨hb, hname'⟩ := hfound hget
    rw [List.inj_on_of_nodup_map hnodup hb ha (hname'.trans hname.symm)]

/-- The packages `b` and `libc` require each other by way of the seed, which is not emitted. -/
theorem resolve_front_to_back_cycle : ∃ result,
    ((Resolver.ofUniverse cycleUniverse .default true).resolve cycleUniverse.world
        (cycleRequest .full) ⟨[], 0⟩).1 = .resolved result ∧
      result.names.Nodup ∧ ∃ q ∈ result.packages, q.name = ⟨"b"⟩ ∧ ⟨"libc"⟩ ∈ q.cycle := by
  have haccepted : (cycleRequest .full).Accepted cycleUniverse .default 0 _ :=
    accepted_cycleRequest rfl
  obtain ⟨result, c, hresolve, heval, -, hnames, -⟩ := Request.Accepted.exists_resolved
    (.ofUniverse cycleUniverse .default true) (p := ⟨[], 0⟩) ofSnapshot_cycleBranch haccepted rfl
  obtain ⟨checked, c', hcheck, heval', hnodup, -, hpairs⟩ := resolve_front_to_back hresolve
  obtain rfl := Except.ok.inj (haccepted.check_eq.symm.trans hcheck)
  obtain rfl := Except.ok.inj (heval.symm.trans heval')
  have hclosure : (c.discovered.toList, c.graph.requires ⟨"a"⟩, c.graph.requires ⟨"b"⟩,
      c.graph.requires ⟨"libc"⟩) =
        ([⟨"b"⟩, ⟨"libc"⟩], [⟨"b"⟩, ⟨"libc"⟩], [⟨"a"⟩], [⟨"b"⟩]) :=
    eq_of_map_eq_ok (f := fun c : Closure => (c.discovered.toList, c.graph.requires ⟨"a"⟩,
      c.graph.requires ⟨"b"⟩, c.graph.requires ⟨"libc"⟩)) heval (by decide +kernel)
  simp only [Prod.mk.injEq] at hclosure
  obtain ⟨hfound, ha, hb, hlibc⟩ := hclosure
  have hjoined : c.graph.Joined ⟨"b"⟩ ⟨"libc"⟩ := by
    have hba : c.graph.Requires ⟨"b"⟩ ⟨"a"⟩ := (Graph.mem_requires _).1 (by simp [hb])
    have hac : c.graph.Requires ⟨"a"⟩ ⟨"libc"⟩ := (Graph.mem_requires _).1 (by simp [ha])
    have hcb : c.graph.Requires ⟨"libc"⟩ ⟨"b"⟩ := (Graph.mem_requires _).1 (by simp [hlibc])
    exact ⟨.tail (.single hba) hac, .single hcb⟩
  have hrecord : ∀ n ∈ c.discovered.toList, ∃ q ∈ result.packages, q.name = n := fun n hn =>
    List.mem_map.1 ((hnames n).2 (Std.ExtTreeSet.mem_toList.1 hn))
  obtain ⟨q, hq, hname⟩ := hrecord ⟨"b"⟩ (by simp [hfound])
  obtain ⟨q', hq', hname'⟩ := hrecord ⟨"libc"⟩ (by simp [hfound])
  obtain ⟨i, hi⟩ := List.getElem?_of_mem hq
  obtain ⟨j, hj⟩ := List.getElem?_of_mem hq'
  have hij : i ≠ j := by
    rintro rfl
    rw [Option.some.inj (hi.symm.trans hj), hname'] at hname
    exact absurd hname (by decide)
  obtain ⟨hcycle, -⟩ := (hpairs i j q q' hi hj hij).2.1 (by rwa [hname, hname'])
  exact ⟨result, hresolve, hnodup, q, hq, hname, hname' ▸ hcycle⟩

end Resolver

end BuildPlan
