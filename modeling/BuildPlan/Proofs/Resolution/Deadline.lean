import BuildPlan.Proofs.Resolution.Outage
import BuildPlan.Proofs.Session.Pace
import Mathlib.Order.Bounds.Basic

/-! # Deadlines

A deadline is a budget that all calls of a resolution share; without one each call has a limit of
its own. In both cases a resolution that runs out of time fails as one, at the first call that comes
too late, and one that does not ends as if its calls had been answered at once.
-/
namespace BuildPlan

theorem Config.dvd_toNanos_accessorTimeout (config : Config) :
    Clock.tick ∣ config.accessorTimeout.toNanos :=
  Nat.dvd_add (Nat.dvd_mul_left_of_dvd ⟨1000, rfl⟩ _) (Nat.dvd_zero _)

namespace Request

/-- Whether a request has run out of time when so many of its calls have been answered, given how
many milliseconds each of them takes. -/
def RunsOut (request : Request) (config : Config) (delay : Nat → Nat) (count : Nat) : Prop :=
  match request.deadline with
  | some budget => budget.toNanos < (∑ j ∈ Finset.range count, delay j) * Clock.tick
  | none => 0 < count ∧ config.accessorTimeout.toNanos < delay (count - 1) * Clock.tick

/-- When a call that begins now must have ended, for a request that was made at a given time. -/
def expiry (request : Request) (config : Config) (made now : Nat) : Nat :=
  match request.deadline with
  | some budget => made + budget.toNanos
  | none => now + config.accessorTimeout.toNanos

def InMillis (request : Request) : Prop :=
  ∀ budget, request.deadline = some budget → Clock.tick ∣ budget.toNanos

variable {request : Request} {config : Config} {allowance : Allowance} {delays : Nat → Nat}
  {p : Progress}

theorem not_runsOut_zero (request : Request) (config : Config) (delay : Nat → Nat) :
    ¬ request.RunsOut config delay 0 := by
  unfold RunsOut
  cases request.deadline <;> simp

theorem start_eq_some_iff {now : Nat} :
    Allowance.start? now request.deadline config.accessorTimeout = some allowance ↔
      request.deadline = none ∧ allowance = .perCall config.accessorTimeout ∨
      ∃ budget, request.deadline = some budget ∧
        now + budget.toNanos < Clock.limit ∧
        allowance = .shared budget (now + budget.toNanos) := by
  unfold Allowance.start?
  cases request.deadline <;> simp [eq_comm]

theorem start_eq_none_iff {now : Nat} :
    Allowance.start? now request.deadline config.accessorTimeout = none ↔
      ∃ budget, request.deadline = some budget ∧ Clock.limit ≤ now + budget.toNanos := by
  unfold Allowance.start?
  cases request.deadline with
  | none => simp only [reduceCtorEq, false_and, exists_false]
  | some budget =>
    simp only [Option.some.injEq, exists_eq_left', ite_eq_right_iff, reduceCtorEq, imp_false,
      Nat.not_lt]

section Started

variable (hstart : Allowance.start? p.now request.deadline config.accessorTimeout =
  some allowance)
include hstart

theorem allowed_of_start : allowance.allowed = request.deadline.getD config.accessorTimeout := by
  obtain ⟨hnone, rfl⟩ | ⟨budget, hsome, -, rfl⟩ := start_eq_some_iff.1 hstart
  · rw [hnone]
    rfl
  · rw [hsome]
    rfl

theorem expiry_of_start (now : Nat) :
    allowance.expiry now = request.expiry config p.now now := by
  obtain ⟨hnone, rfl⟩ | ⟨budget, hsome, -, rfl⟩ := start_eq_some_iff.1 hstart
  · simp only [Allowance.expiry, expiry, hnone]
  · simp only [Allowance.expiry, expiry, hsome]

theorem inStep_of_start (hmillis : request.InMillis) : allowance.InStep p.now := by
  obtain ⟨hnone, rfl⟩ | ⟨budget, hsome, -, rfl⟩ := start_eq_some_iff.1 hstart
  · exact config.dvd_toNanos_accessorTimeout
  · obtain ⟨k, hk⟩ := hmillis budget hsome
    rw [Allowance.InStep, hk, Nat.add_mul_mod_self_left]

theorem max_expiry_of_start {count : Nat}
    (hcount : ¬ request.RunsOut config (p.ahead delays) count) :
    max (p.timeAfter delays count) (Clock.roundUp (allowance.expiry (p.timeAfter delays count))) =
      Clock.roundUp (request.expiry config p.now (p.timeAfter delays count)) := by
  rw [expiry_of_start hstart]
  refine Nat.max_eq_right (le_trans ?_ (Clock.le_roundUp _))
  obtain ⟨hnone, rfl⟩ | ⟨budget, hsome, -, rfl⟩ := start_eq_some_iff.1 hstart
  · simp only [expiry, hnone]
    exact Nat.le_add_right ..
  · simp only [RunsOut, hsome] at hcount
    simp only [expiry, hsome, Progress.timeAfter]
    omega

theorem isLateAt_iff_runsOut {count : Nat}
    (hcount : ¬ request.RunsOut config (p.ahead delays) count) :
    allowance.IsLateAt delays p count ↔
      request.RunsOut config (p.ahead delays) (count + 1) := by
  obtain ⟨hnone, rfl⟩ | ⟨budget, hsome, -, rfl⟩ := start_eq_some_iff.1 hstart
  · simp only [RunsOut, hnone, Allowance.IsLateAt, Allowance.IsLate, Allowance.expiry,
      Nat.add_sub_cancel, Clock.tick]
    omega
  · simp only [RunsOut, hsome, Clock.tick] at hcount ⊢
    simp only [Allowance.IsLateAt, Allowance.IsLate, Allowance.expiry, Progress.timeAfter,
      Finset.sum_range_succ, Clock.tick]
    omega

end Started

end Request

namespace Resolver

variable {resolver : Resolver} {u : Universe} {request : Request} {checked : CheckedRequest}
  {allowance : Allowance} {delays : Nat → Nat} {p : Progress}

section Started

variable (hacl : resolver.withAcl = false)
  (hcheck : request.check resolver.config = .ok checked)
  (hstart : Allowance.start? p.now request.deadline resolver.config.accessorTimeout =
    some allowance)
  (hmillis : request.InMillis)
  (hpanic : (resolver.resolve (u.world.delayed delays) request p).1 ≠ .panicked)
include hacl hcheck hstart hmillis hpanic

theorem resolve_delayed_of_runsOut {k : Nat} (hk : k < ((checked.program resolver).calls u).length)
    (hout : request.RunsOut resolver.config (p.ahead delays) (k + 1))
    (hfirst : ∀ j ≤ k, ¬ request.RunsOut resolver.config (p.ahead delays) j) :
    resolver.resolve (u.world.delayed delays) request p =
      (.failed (.timeout (request.deadline.getD resolver.config.accessorTimeout)),
        ⟨(((checked.program resolver).calls u).take (k + 1)).reverse ++ p.past,
          Clock.roundUp (request.expiry resolver.config p.now (p.timeAfter delays k))⟩) := by
  have hlate := (Request.isLateAt_iff_runsOut hstart (hfirst k le_rfl)).2 hout
  have hprompt : ∀ j < k, ¬ allowance.IsLateAt delays p j := fun j hj =>
    mt (Request.isLateAt_iff_runsOut hstart (hfirst j hj.le)).1 (hfirst (j + 1) hj)
  rw [resolve_eq_of_start hcheck hstart] at hpanic ⊢
  rw [Program.run_delayed_of_isLateAt (Request.inStep_of_start hstart hmillis)
    (mt Outcome.ofRun_eq_panicked_iff.2 hpanic) (checked.allCalls_kind_ne_aclOf hacl) hk hlate
    hprompt, Request.allowed_of_start hstart, Request.max_expiry_of_start hstart (hfirst k le_rfl)]
  rfl

theorem resolve_delayed_of_not_runsOut (hnever : ∀ i ≤ ((checked.program resolver).calls u).length,
      ¬ request.RunsOut resolver.config (p.ahead delays) i) :
    resolver.resolve (u.world.delayed delays) request p =
      ((resolver.resolve u.world request p).1,
        ⟨((checked.program resolver).calls u).reverse ++ p.past,
          p.timeAfter delays ((checked.program resolver).calls u).length⟩) := by
  have hprompt : ∀ k < ((checked.program resolver).calls u).length,
      ¬ allowance.IsLateAt delays p k := fun k hk =>
    mt (Request.isLateAt_iff_runsOut hstart (hnever k hk.le)).1 (hnever (k + 1) hk)
  rw [resolve_eq_of_start hcheck hstart] at hpanic ⊢
  rw [resolve_eq_of_start hcheck hstart,
    Program.run_delayed_of_not_isLateAt (Request.inStep_of_start hstart hmillis)
      (mt Outcome.ofRun_eq_panicked_iff.2 hpanic) (checked.allCalls_kind_ne_aclOf hacl) hprompt,
    Program.run_world]

end Started

theorem limit_lt_of_resolve_eq_panicked {world : World}
    (h : (resolver.resolve world request p).1 = .panicked) : ∃ now, p.now ≤ now ∧
      Clock.limit < request.expiry resolver.config p.now now + Clock.tick := by
  obtain ⟨-, hnone | ⟨allowance, hstart, past, c, now, -, -, hnow, -, htimer⟩⟩ :=
    fails_of_resolve_eq_panicked h
  · obtain ⟨budget, hsome, hle⟩ := Request.start_eq_none_iff.1 hnone
    have hexpiry : request.expiry resolver.config p.now p.now = p.now + budget.toNanos := by
      rw [Request.expiry, hsome]
    exact ⟨p.now, le_rfl, hexpiry ▸ lt_add_of_le_of_pos hle (by decide)⟩
  · refine ⟨now, hnow, ?_⟩
    rw [← Request.expiry_of_start hstart]
    exact Allowance.limit_lt_of_timer?_eq_none htimer

end Resolver

end BuildPlan
