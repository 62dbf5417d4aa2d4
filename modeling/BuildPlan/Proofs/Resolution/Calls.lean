import BuildPlan.Proofs.Session.Calls
import BuildPlan.Resolution

/-! # What a resolution asks

The first call of a resolution is the check of its scope. All others are about this scope, or about
the source side of it in a half step, and none of them is about nothing. Who may build a package is
asked only for annotations.
-/
namespace BuildPlan

/-- A call about a scope, other than its check, that is not about nothing. -/
inductive Call.Concerns (scope : Scope) : Call → Prop
  | requirementsOf {names : PackageSet} {reading : NameReading} (h : names.isEmpty = false) :
    Concerns scope (.requirementsOf names reading scope)
  | providersOf {capabilities : CapabilitySet} {asSource : Bool}
    (h : capabilities.isEmpty = false) :
    Concerns scope (.providersOf capabilities scope asSource)
  | binariesOf {sources : PackageSet} (h : sources.isEmpty = false) :
    Concerns scope (.binariesOf sources scope)
  | describe {names : PackageSet} {asSource : Bool} (h : names.isEmpty = false) :
    Concerns scope (.describe names scope asSource)
  | aclOf {n : PackageName} : Concerns scope (.aclOf n scope.branch)

/-- A call about a scope that does not ask who may build a package. -/
def Call.Searches (scope : Scope) (c : Call) : Prop := c.Concerns scope ∧ c.kind ≠ .aclOf

theorem Call.Concerns.kind_ne {scope : Scope} {c : Call} (h : c.Concerns scope) :
    c.kind ≠ .checkScope := by
  cases h <;> exact fun hkind => by cases hkind

theorem Call.failure_eq_accessor {c : Call} (h : c.kind ≠ .checkScope) (e : UniverseError) :
    c.failure e = .accessor e := by
  cases c <;> first | rfl | exact absurd rfl h

namespace Program

variable (scope : Scope)

theorem allCalls_requirementsOf (names : PackageSet) (reading : NameReading) :
    (Program.requirementsOf names reading scope).AllCalls (Call.Searches scope) := by
  unfold Program.requirementsOf
  split
  · trivial
  · next h => exact ⟨⟨.requirementsOf (Bool.eq_false_iff.2 h), nofun⟩, fun _ => trivial⟩

theorem allCalls_providersOf (capabilities : CapabilitySet) (asSource : Bool) :
    (Program.providersOf capabilities scope asSource).AllCalls (Call.Searches scope) := by
  unfold Program.providersOf
  split
  · trivial
  · next h => exact ⟨⟨.providersOf (Bool.eq_false_iff.2 h), nofun⟩, fun _ => trivial⟩

theorem allCalls_binariesOf (sources : PackageSet) :
    (Program.binariesOf sources scope).AllCalls (Call.Searches scope) := by
  unfold Program.binariesOf
  split
  · trivial
  · next h => exact ⟨⟨.binariesOf (Bool.eq_false_iff.2 h), nofun⟩, fun _ => trivial⟩

theorem allCalls_describe (names : PackageSet) (asSource : Bool) :
    (Program.describe names scope asSource).AllCalls (Call.Searches scope) := by
  unfold Program.describe
  split
  · trivial
  · next h => exact ⟨⟨.describe (Bool.eq_false_iff.2 h), nofun⟩, fun _ => trivial⟩

end Program

namespace Closure

variable (c : Closure) (scope : Scope) (reading : NameReading) (asSource : Bool)

theorem allCalls_discover (frontier : PackageSet) :
    (c.discover scope reading asSource frontier).AllCalls (Call.Searches scope) :=
  .bind (Program.allCalls_requirementsOf scope frontier reading) fun _ =>
    .bind (Program.allCalls_providersOf scope _ asSource) fun _ => trivial

theorem allCalls_complete : (c.complete scope reading asSource).AllCalls (Call.Searches scope) :=
  .bind (Program.allCalls_requirementsOf scope _ reading) fun _ =>
    .bind (Program.allCalls_providersOf scope _ asSource) fun _ => trivial

end Closure

namespace Expansion

variable (x : Expansion)

/-- The calls that the growth of a closure may make. -/
def MayAsk (call : Call) : Prop :=
  call.Concerns x.scope ∨
    x.halfStep = true ∧ call.Concerns (x.scope.withDependencyType .source)

theorem allCalls_sourceProviders (frontier : PackageSet) :
    (x.sourceProviders frontier).AllCalls
      (Call.Searches (x.scope.withDependencyType .source)) :=
  .bind (Program.allCalls_requirementsOf _ frontier .source) fun _ =>
    .bind (Program.allCalls_providersOf _ _ true) fun _ => trivial

theorem allCalls_candidates (reading : NameReading) (last : Bool) (frontier : PackageSet)
    (c : Closure) : (x.candidates reading last frontier c).AllCalls fun call =>
      x.MayAsk call ∧ call.kind ≠ .aclOf := by
  refine .bind ((c.allCalls_discover x.scope reading x.asSource frontier).mono
    fun _ => And.imp_left Or.inl) fun _ => ?_
  dsimp only
  split
  · next hhalf =>
    obtain ⟨hhalf, -⟩ := (Bool.and_eq_true ..).mp hhalf
    exact .bind ((x.allCalls_sourceProviders frontier).mono
      fun _ => And.imp_left fun h => Or.inr ⟨hhalf, h⟩) fun _ => trivial
  · trivial

theorem allCalls_grow (rounds : Nat) (reading : NameReading) (level : Nat)
    (frontier : PackageSet) (c : Closure) :
    (x.grow rounds reading level frontier c).AllCalls fun call =>
      x.MayAsk call ∧ call.kind ≠ .aclOf := by
  induction rounds generalizing reading level frontier c with
  | zero => trivial
  | succ rounds ih =>
    rw [grow]
    split
    · trivial
    · exact .bind (x.allCalls_candidates ..) fun _ => ih ..

end Expansion

theorem Filters.allCalls_kept (f : Filters) (scope : Scope) (reading : NameReading) (g : Graph)
    (o : BuildOrder) (emitted : PackageSet) :
    (f.kept scope reading g o emitted).AllCalls (Call.Searches scope) := by
  have hmatching : ∀ requirement : RequirementFilter,
      (requirement.matching scope reading emitted).AllCalls (Call.Searches scope) := by
    intro requirement
    refine .bind ?_ fun binaries => ?_
    · cases requirement with
      | packages names => trivial
      | builtFrom source => exact Program.allCalls_binariesOf scope _
    · split
      · trivial
      · exact .bind (Program.allCalls_requirementsOf scope emitted reading) fun _ =>
          .bind (Program.allCalls_providersOf scope _ false) fun _ => trivial
  refine .bind ?_ fun _ => .bind ?_ fun _ => trivial
  · unfold keptByLeaf
    split
    · unfold Program.ofRequest
      split <;> trivial
    · trivial
  · unfold keptByRequirement
    split
    · exact hmatching _
    · trivial

namespace CheckedRequest

variable (r : CheckedRequest)

/-- The calls that a resolution may make once its scope has been checked. -/
def MayAsk (call : Call) : Prop :=
  call.Concerns r.scope ∨
    (∃ depth, r.goal = .build depth true) ∧ call.Concerns (r.scope.withDependencyType .source)

theorem kind_ne_of_mayAsk {r : CheckedRequest} {c : Call} (h : r.MayAsk c) :
    c.kind ≠ .checkScope := by
  rcases h with h | ⟨-, h⟩
  · exact h.kind_ne
  · exact h.kind_ne

theorem allCalls_closure (horizon : Nat) : (r.closure horizon).AllCalls fun call =>
    r.MayAsk call ∧ call.kind ≠ .aclOf := by
  unfold closure
  split
  · next depth hgoal =>
    refine (Expansion.allCalls_grow (.build r.scope true) ..).mono fun _ => And.imp_left fun h => ?_
    exact h.imp_right fun ⟨_, hside⟩ => ⟨⟨depth, hgoal⟩, hside⟩
  · refine (Expansion.allCalls_grow (.build r.scope false) ..).mono fun _ =>
      And.imp_left fun h => ?_
    exact Or.inl (h.resolve_right fun ⟨hhalf, _⟩ => by cases hhalf)
  · refine (Expansion.allCalls_grow (.full r.scope) ..).mono fun _ => And.imp_left fun h => ?_
    exact Or.inl (h.resolve_right fun ⟨hhalf, _⟩ => by cases hhalf)

theorem allCalls_completeClosure (horizon : Nat) :
    (r.completeClosure horizon).AllCalls fun call => r.MayAsk call ∧ call.kind ≠ .aclOf :=
  .bind (r.allCalls_closure horizon) fun c =>
    (c.allCalls_complete r.scope r.reading r.asSource).mono fun _ => And.imp_left Or.inl

/-- A resolution checks its scope, completes its closure, and goes on with calls about the scope. -/
theorem exists_program_eq_bind (resolver : Resolver) : ∃ next : Closure → Program Resolution,
    r.program resolver = .ask (.checkScope r.scope) (fun _ =>
      r.completeClosure resolver.horizon >>= next) ∧
      ∀ c, (next c).AllCalls (Call.Concerns r.scope) := by
  refine ⟨_, rfl, fun c => ?_⟩
  refine .bind ((r.filters.allCalls_kept ..).mono fun _ => And.left) fun kept => ?_
  refine .bind ((Program.allCalls_describe r.scope kept r.asSource).mono fun _ => And.left)
    fun described => ?_
  dsimp only
  split
  · trivial
  · split
    · exact .bind ⟨fun n _ => .aclOf, fun _ => trivial⟩ fun _ => trivial
    · trivial

/-- The scope is checked first and never again. -/
theorem exists_program_eq_ask (resolver : Resolver) : ∃ next,
    r.program resolver = .ask (.checkScope r.scope) next ∧
      ∀ answer, (next answer).AllCalls r.MayAsk := by
  obtain ⟨next, hprogram, hnext⟩ := r.exists_program_eq_bind resolver
  refine ⟨_, hprogram, fun _ => ?_⟩
  exact .bind ((r.allCalls_completeClosure resolver.horizon).mono fun _ => And.left)
    fun c => (hnext c).mono fun _ => Or.inl

theorem allCalls_kind_ne_aclOf {resolver : Resolver} (h : resolver.withAcl = false) :
    (r.program resolver).AllCalls fun call => call.kind ≠ .aclOf := by
  refine .bind ⟨nofun, fun _ => trivial⟩ fun _ => ?_
  refine .bind ((r.allCalls_completeClosure resolver.horizon).mono fun _ => And.right) fun c => ?_
  refine .bind ((r.filters.allCalls_kept ..).mono fun _ => And.right) fun kept => ?_
  refine .bind ((Program.allCalls_describe r.scope kept r.asSource).mono fun _ => And.right)
    fun described => ?_
  dsimp only
  rw [h]
  split <;> trivial

theorem kind_eq_checkScope_iff (resolver : Resolver) (u : Universe) {k : Nat} {c : Call}
    (h : ((r.program resolver).calls u)[k]? = some c) : c.kind = .checkScope ↔ k = 0 := by
  obtain ⟨next, hprogram, hnext⟩ := r.exists_program_eq_ask resolver
  rw [hprogram, Program.calls] at h
  cases k with
  | zero =>
    obtain rfl := Option.some.inj h
    exact iff_of_true rfl rfl
  | succ k =>
    refine iff_of_false ?_ k.succ_ne_zero
    have hc := List.mem_of_getElem? (List.getElem?_cons_succ ▸ h)
    split at hc
    · next answer _ => exact kind_ne_of_mayAsk ((hnext answer).of_mem_calls u hc)
    · cases hc

end CheckedRequest

end BuildPlan
