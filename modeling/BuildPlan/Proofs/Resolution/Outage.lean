import BuildPlan.Proofs.Resolution.Calls
import BuildPlan.Proofs.Resolution.Outcome

/-! # When a call fails

A resolution of which one call fails makes no further call and has no result. Its error is that of
the call, unchanged; only what refuses a scope at the very first call is the mistake of the caller.
-/
namespace BuildPlan

/-- What it means for a resolution that the call after so many others fails. -/
def ResolveError.ofCallAt : Nat → UniverseError → ResolveError
  | 0, .unknownBranch branch => .invalid (.unknownBranch branch)
  | 0, .unknownArch _ arch => .invalid (.unknownArch arch)
  | _, e => .accessor e

theorem Call.failure_eq_ofCallAt {c : Call} {k : Nat} (h : c.kind = .checkScope ↔ k = 0)
    (e : UniverseError) : c.failure e = .ofCallAt k e := by
  cases k with
  | zero =>
    cases c with
    | checkScope scope => cases e <;> rfl
    | _ => cases h.2 rfl
  | succ k =>
    rw [failure_eq_accessor (mt h.1 k.succ_ne_zero)]
    cases e <;> rfl

namespace Resolver

variable {resolver : Resolver} {u : Universe} {request : Request} {checked : CheckedRequest}
  {p : Progress}

theorem resolve_of_scope_refused (h : request.check resolver.config = .ok checked)
    {allowance : Allowance}
    (hstart : Allowance.start? p.now request.deadline resolver.config.accessorTimeout =
      some allowance) {world : World} {e : UniverseError}
    (hrefused : (world p.past (.checkScope checked.scope)).outcome = .error e) :
    ((∃ error, (resolver.resolve world request p).1 = .failed error) ∨
        (resolver.resolve world request p).1 = .panicked ∧
          (world p.past (.checkScope checked.scope)).delay ≠ 0 ∧
          allowance.timer? p.now = none) ∧
      (resolver.resolve world request p).2.past = .checkScope checked.scope :: p.past := by
  obtain ⟨next, hprogram, -⟩ := checked.exists_program_eq_ask resolver
  obtain ⟨stop, hending⟩ : ∃ stop, (allowance.ending p.now (.checkScope checked.scope)
      (world p.past (.checkScope checked.scope))).outcome = .error stop := by
    unfold Allowance.ending
    rw [hrefused]
    dsimp only
    split
    · exact ⟨_, rfl⟩
    · split
      · exact ⟨_, rfl⟩
      · split <;> exact ⟨_, rfl⟩
  rw [resolve_eq_of_start h hstart, hprogram, Program.run]
  simp only [hending]
  cases stop with
  | failed error => exact ⟨Or.inl ⟨error, rfl⟩, trivial⟩
  | panicked =>
    have hpanic := Allowance.hasPanicked_ending.1 (Ending.hasPanicked_iff.2 hending)
    exact ⟨Or.inr ⟨rfl, hpanic⟩, trivial⟩

def calls (resolver : Resolver) (u : Universe) (request : Request) (now : Nat) : List Call :=
  match request.check resolver.config with
  | .error _ => []
  | .ok checked =>
    match Allowance.start? now request.deadline resolver.config.accessorTimeout with
    | none => []
    | some _ => (checked.program resolver).calls u

theorem calls_of_accepted {now : Nat} (h : request.Accepted u resolver.config now checked) :
    resolver.calls u request now = (checked.program resolver).calls u := by
  obtain ⟨allowance, hstart⟩ := Option.isSome_iff_exists.1 h.starts
  rw [calls, h.check_eq]
  simp only [hstart]

theorem calls_cases (resolver : Resolver) (u : Universe) (request : Request) (p : Progress) :
    (resolver.calls u request p.now = [] ∧
        ∃ outcome, ∀ world, resolver.resolve world request p = (outcome, p)) ∨
      ∃ checked allowance, request.check resolver.config = .ok checked ∧
        Allowance.start? p.now request.deadline resolver.config.accessorTimeout =
          some allowance ∧
        resolver.calls u request p.now = (checked.program resolver).calls u := by
  unfold calls
  cases hcheck : request.check resolver.config with
  | error error =>
    exact .inl ⟨rfl, _, resolve_of_check_eq_error hcheck⟩
  | ok checked =>
    cases hstart : Allowance.start? p.now request.deadline resolver.config.accessorTimeout with
    | none => exact .inl ⟨rfl, _, resolve_of_start_eq_none hcheck hstart⟩
    | some allowance => exact .inr ⟨checked, allowance, rfl, rfl, rfl⟩

theorem resolve_world_snd (resolver : Resolver) (u : Universe) (request : Request)
    (p : Progress) : (resolver.resolve u.world request p).2 =
      ⟨(resolver.calls u request p.now).reverse ++ p.past, p.now⟩ := by
  rcases resolver.calls_cases u request p with
    ⟨hcalls, outcome, hresolve⟩ | ⟨checked, allowance, hcheck, hstart, hcalls⟩
  · rw [hcalls, hresolve]
    rfl
  · rw [hcalls, resolve_eq_of_start hcheck hstart, Program.run_world_eq]

theorem kind_eq_checkScope_iff {k : Nat} {c : Call}
    (h : (resolver.calls u request p.now)[k]? = some c) : c.kind = .checkScope ↔ k = 0 := by
  rcases resolver.calls_cases u request p with ⟨hcalls, -⟩ | ⟨checked, _, -, -, hcalls⟩
  · simp [hcalls] at h
  · rw [hcalls] at h
    exact checked.kind_eq_checkScope_iff resolver u h

theorem resolve_failingAt_eq {k : Nat} {c : Call}
    (h : (resolver.calls u request p.now)[k]? = some c) (e : UniverseError) :
    resolver.resolve (u.world.failingAt (p.past.length + k) e) request p =
      (.failed (.ofCallAt k e),
        ⟨((resolver.calls u request p.now).take (k + 1)).reverse ++ p.past, p.now⟩) := by
  rw [← Call.failure_eq_ofCallAt (kind_eq_checkScope_iff h)]
  rcases resolver.calls_cases u request p with
    ⟨hcalls, -⟩ | ⟨checked, allowance, hcheck, hstart, hcalls⟩
  · simp [hcalls] at h
  · rw [hcalls] at h ⊢
    rw [resolve_eq_of_start hcheck hstart, Program.run_failingAt u _ allowance e h]
    rfl

/-- A run in which the call at one place fails has made the calls that stand before it in the run
over the universe, and this one. Requests that fail their own checks ask nothing, and those whose
scope is refused ask nothing else. -/
theorem resolve_failingAt (resolver : Resolver) (u : Universe) (request : Request)
    (p : Progress) :
    let calls := resolver.calls u request p.now
    (resolver.resolve u.world request p).2 = ⟨calls.reverse ++ p.past, p.now⟩ ∧
      (∀ (k : Nat) (c : Call), calls[k]? = some c → (c.kind = .checkScope ↔ k = 0) ∧
        ∀ e, resolver.resolve (u.world.failingAt (p.past.length + k) e) request p =
          (.failed (.ofCallAt k e), ⟨(calls.take (k + 1)).reverse ++ p.past, p.now⟩)) ∧
      (∀ error, request.check resolver.config = .error error → ∀ world,
        resolver.resolve world request p = (.failed (.invalid error), p)) ∧
      ∀ checked allowance, request.check resolver.config = .ok checked →
        Allowance.start? p.now request.deadline resolver.config.accessorTimeout =
          some allowance →
        ∀ (world : World) (e : UniverseError),
          (world p.past (.checkScope checked.scope)).outcome = .error e →
            ((∃ error, (resolver.resolve world request p).1 = .failed error) ∨
              (resolver.resolve world request p).1 = .panicked ∧
                (world p.past (.checkScope checked.scope)).delay ≠ 0 ∧
                allowance.timer? p.now = none) ∧
            (resolver.resolve world request p).2.past =
              .checkScope checked.scope :: p.past :=
  ⟨resolver.resolve_world_snd u request p,
    fun _ _ hk => ⟨kind_eq_checkScope_iff hk, resolve_failingAt_eq hk⟩,
    fun _ => resolve_of_check_eq_error,
    fun _ _ h hstart _ _ => resolve_of_scope_refused h hstart⟩

/-- The third call is about the providers of what `a` requires. An unknown branch is no mistake of
the caller there. -/
theorem resolve_failingAt_cycle :
    let resolver := Resolver.ofUniverse cycleUniverse .default true
    let calls := resolver.calls cycleUniverse (cycleRequest .full) 0
    calls[2]?.map (·.kind) = some .providersOf ∧
      resolver.resolve (cycleUniverse.world.failingAt 2 (.unknownBranch "gone"))
          (cycleRequest .full) ⟨[], 0⟩ =
        (.failed (.accessor (.unknownBranch "gone")), ⟨(calls.take 3).reverse, 0⟩) := by
  intro resolver calls
  have hkind : calls[2]?.map (·.kind) = some .providersOf := by decide +kernel
  obtain ⟨c, hc, -⟩ := Option.map_eq_some_iff.1 hkind
  obtain ⟨-, hfail, -⟩ :=
    resolve_failingAt resolver cycleUniverse (cycleRequest .full) ⟨[], 0⟩
  have hfailed := (hfail 2 c hc).2 (.unknownBranch "gone")
  rw [List.append_nil] at hfailed
  exact ⟨hkind, hfailed⟩

end Resolver

end BuildPlan
