import BuildPlan.Proofs.Session.Clock
import Mathlib.Algebra.BigOperators.Intervals

/-! # Runs at a given pace

A world may give its answers after other delays: one for the first call, one for the second, and so
on. Calls that are made one after the other end when the delays so far have passed, so that the
delays alone tell which call is the first to come too late. The run ends with this call, out of
time. If there is none, it ends as it does without any delays.
-/
namespace BuildPlan

/-- The world with other delays, in milliseconds. How many calls were made before tells how long a
call takes. -/
def World.delayed (world : World) (delays : Nat → Nat) : World := fun past call =>
  ⟨delays past.length * Clock.tick, (world past call).outcome⟩

namespace Progress

variable (p : Progress) (delays : Nat → Nat)

def ahead : Nat → Nat := fun j => delays (p.past.length + j)

/-- The instant when so many more calls have been answered. -/
def timeAfter (count : Nat) : Nat :=
  p.now + (∑ j ∈ Finset.range count, p.ahead delays j) * Clock.tick

theorem timeAfter_zero : p.timeAfter delays 0 = p.now := by simp [timeAfter]

theorem timeAfter_succ (count : Nat) :
    p.timeAfter delays (count + 1) =
      p.timeAfter delays count + p.ahead delays count * Clock.tick := by
  rw [timeAfter, Finset.sum_range_succ, timeAfter, Nat.add_mul, Nat.add_assoc]

def answered (c : Call) : Progress := ⟨c :: p.past, p.now + p.ahead delays 0 * Clock.tick⟩

@[simp] theorem past_answered (c : Call) : (p.answered delays c).past = c :: p.past := rfl

@[simp] theorem now_answered (c : Call) :
    (p.answered delays c).now = p.now + p.ahead delays 0 * Clock.tick := rfl

@[simp] theorem ahead_answered (c : Call) (j : Nat) :
    (p.answered delays c).ahead delays j = p.ahead delays (j + 1) := by
  rw [ahead, ahead, past_answered, List.length_cons, Nat.add_assoc, Nat.add_comm 1]

theorem timeAfter_answered (c : Call) (count : Nat) :
    (p.answered delays c).timeAfter delays count = p.timeAfter delays (count + 1) := by
  simp only [timeAfter, ahead_answered, now_answered, Finset.sum_range_succ', Nat.add_mul]
  omega

end Progress

namespace Allowance

variable (allowance : Allowance)

/-- The allowance ends whole milliseconds after every call that begins whole milliseconds from
now. -/
def InStep (now : Nat) : Allowance → Prop
  | perCall limit => Clock.tick ∣ limit.toNanos
  | shared _ expiry => expiry % Clock.tick = now % Clock.tick

variable {allowance} in
theorem InStep.answered {delays : Nat → Nat} {p : Progress} (h : allowance.InStep p.now)
    (c : Call) : allowance.InStep (p.answered delays c).now := by
  cases allowance with
  | perCall limit =>
    rw [InStep] at h ⊢
    exact h
  | shared budget expiry =>
    rw [InStep, Progress.now_answered, Nat.add_mul_mod_self_right]
    exact h

/-- Whether a call that begins now and takes so many milliseconds comes too late. -/
def IsLate (now delay : Nat) : Prop :=
  delay ≠ 0 ∧ max now (allowance.expiry now) < now + delay * Clock.tick

variable {allowance} in
theorem InStep.isLate_iff {now time delay : Nat} (h : allowance.InStep now)
    (htimer : allowance.timer? now = some time) (hdelay : delay ≠ 0) :
    allowance.IsLate now delay ↔ time < now + delay * Clock.tick := by
  have hstep : allowance.expiry now % Clock.tick = now % Clock.tick := by
    cases allowance with
    | perCall limit =>
      obtain ⟨k, hk⟩ : Clock.tick ∣ limit.toNanos := h
      rw [expiry, hk, Nat.add_mul_mod_self_left]
    | shared budget expiry => exact h
  rw [IsLate, and_iff_right hdelay, eq_of_timer? htimer]
  unfold Clock.roundUp Clock.tick at *
  omega

/-- Whether the call that comes after so many others is too late, if all of them are in time. -/
def IsLateAt (delays : Nat → Nat) (p : Progress) (count : Nat) : Prop :=
  allowance.IsLate (p.timeAfter delays count) (p.ahead delays count)

theorem isLateAt_zero_iff {delays : Nat → Nat} {p : Progress} :
    allowance.IsLateAt delays p 0 ↔ allowance.IsLate p.now (p.ahead delays 0) := by
  rw [IsLateAt, p.timeAfter_zero]

theorem isLateAt_answered_iff {delays : Nat → Nat} {p : Progress} (c : Call) {count : Nat} :
    allowance.IsLateAt delays (p.answered delays c) count ↔
      allowance.IsLateAt delays p (count + 1) := by
  rw [IsLateAt, IsLateAt, p.timeAfter_answered, p.ahead_answered]

end Allowance

namespace Program

variable {α : Type} {u : Universe} {allowance : Allowance} {delays : Nat → Nat} {p : Progress}

theorem exists_timer_of_run_ask {world : World} {c : Call} {next : c.Answer → Program α}
    (h : ((ask c next).run world allowance p).1 ≠ .error .panicked)
    (hdelay : (world p.past c).delay ≠ 0) : ∃ time, allowance.timer? p.now = some time := by
  refine Option.ne_none_iff_exists'.1 fun hnone => h ?_
  have hpanic := Ending.hasPanicked_iff.1 (Allowance.hasPanicked_ending.2 ⟨hdelay, hnone⟩)
  simp only [run_ask, hpanic]

section Step

variable (hstep : allowance.InStep p.now) (c : Call) (next : c.Answer → Program α)
  (hpanic : ((ask c next).run (u.world.delayed delays) allowance p).1 ≠ .error .panicked)
include hstep hpanic

theorem run_ask_of_isLate (h : allowance.IsLate p.now (p.ahead delays 0)) :
    (ask c next).run (u.world.delayed delays) allowance p =
      (.error (.failed (.timeout allowance.allowed)),
        ⟨c :: p.past, max p.now (Clock.roundUp (allowance.expiry p.now))⟩) := by
  have hdelay : (u.world.delayed delays p.past c).delay ≠ 0 :=
    Nat.mul_ne_zero h.1 (by decide)
  obtain ⟨time, htimer⟩ := exists_timer_of_run_ask hpanic hdelay
  have hending : allowance.ending p.now c (u.world.delayed delays p.past c) =
      ⟨time, .error (.failed (.timeout allowance.allowed))⟩ := by
    simp only [Allowance.ending, if_neg hdelay, htimer]
    exact if_neg (Nat.not_le.2 ((hstep.isLate_iff htimer h.1).1 h))
  simp only [run_ask, hending, Allowance.eq_of_timer? htimer]

theorem run_ask_of_not_isLate (h : ¬ allowance.IsLate p.now (p.ahead delays 0)) :
    (ask c next).run (u.world.delayed delays) allowance p =
      match u.reply c with
      | .ok answer => (next answer).run (u.world.delayed delays) allowance (p.answered delays c)
      | .error e => (.error (.failed e), p.answered delays c) := by
  have hending : allowance.ending p.now c (u.world.delayed delays p.past c) =
      ⟨p.now + p.ahead delays 0 * Clock.tick, (u.reply c).mapError .failed⟩ := by
    by_cases hzero : p.ahead delays 0 = 0
    · have hdelay : (u.world.delayed delays p.past c).delay = 0 := by
        rw [World.delayed, show delays p.past.length = 0 from hzero, Nat.zero_mul]
      rw [ending_of_prompt allowance p.now hdelay, hzero, Nat.zero_mul]
      rfl
    · have hdelay : (u.world.delayed delays p.past c).delay ≠ 0 :=
        Nat.mul_ne_zero hzero (by decide)
      obtain ⟨time, htimer⟩ := exists_timer_of_run_ask hpanic hdelay
      simp only [Allowance.ending, if_neg hdelay, htimer]
      exact if_pos (Nat.not_lt.1 (mt (hstep.isLate_iff htimer hzero).2 h))
  simp only [run_ask, hending]
  cases u.reply c <;> rfl

end Step

/-- The first call that is too late is the last one. -/
theorem run_delayed_of_isLateAt {program : Program α} (hstep : allowance.InStep p.now)
    (hpanic : (program.run (u.world.delayed delays) allowance p).1 ≠ .error .panicked)
    (hprogram : program.AllCalls fun c => c.kind ≠ .aclOf) {k : Nat}
    (hk : k < (program.calls u).length) (hlate : allowance.IsLateAt delays p k)
    (hfirst : ∀ j < k, ¬ allowance.IsLateAt delays p j) :
    program.run (u.world.delayed delays) allowance p =
      (.error (.failed (.timeout allowance.allowed)),
        ⟨((program.calls u).take (k + 1)).reverse ++ p.past, max (p.timeAfter delays k)
          (Clock.roundUp (allowance.expiry (p.timeAfter delays k)))⟩) := by
  induction program using induction_inTurn generalizing p k with
  | done _ | fail _ => cases hk
  | ask c next ih =>
    cases k with
    | zero =>
      rw [allowance.isLateAt_zero_iff] at hlate
      rw [run_ask_of_isLate hstep c next hpanic hlate, p.timeAfter_zero, calls_ask]
      rfl
    | succ k =>
      have hprompt := mt allowance.isLateAt_zero_iff.2 (hfirst 0 k.succ_pos)
      have hrun := run_ask_of_not_isLate hstep c next hpanic hprompt
      rw [hrun] at hpanic ⊢
      rw [calls_ask] at hk ⊢
      cases hreply : u.reply c with
      | error e => simp [hreply] at hk
      | ok answer =>
        simp only [hreply] at hpanic
        simp only [hreply, List.length_cons, Nat.succ_lt_succ_iff] at hk
        have hrest := ih answer (hstep.answered c) hpanic (hprogram.2 answer) hk
          ((allowance.isLateAt_answered_iff c).2 hlate) fun j hj =>
            mt (allowance.isLateAt_answered_iff c).1 (hfirst (j + 1) (Nat.succ_lt_succ hj))
        rw [p.timeAfter_answered] at hrest
        simp [hrest]
  | nil width branch next ih => exact ih hstep hpanic (hprogram.2 []) hk hlate hfirst
  | cons width n names branch next ih => exact absurd rfl (hprogram.1 n List.mem_cons_self)

/-- If no call is too late, the delays add up and change nothing else. -/
theorem run_delayed_of_not_isLateAt {program : Program α} (hstep : allowance.InStep p.now)
    (hpanic : (program.run (u.world.delayed delays) allowance p).1 ≠ .error .panicked)
    (hprogram : program.AllCalls fun c => c.kind ≠ .aclOf)
    (h : ∀ k < (program.calls u).length, ¬ allowance.IsLateAt delays p k) :
    program.run (u.world.delayed delays) allowance p = ((program.eval u).mapError .failed,
      ⟨(program.calls u).reverse ++ p.past,
        p.timeAfter delays (program.calls u).length⟩) := by
  induction program using induction_inTurn generalizing p with
  | done _ | fail _ => simp [run, eval, calls, p.timeAfter_zero]
  | ask c next ih =>
    rw [calls_ask] at h ⊢
    have hprompt := mt allowance.isLateAt_zero_iff.2 (h 0 (Nat.succ_pos _))
    have hrun := run_ask_of_not_isLate hstep c next hpanic hprompt
    rw [hrun] at hpanic ⊢
    rw [eval_ask]
    cases hreply : u.reply c with
    | error e => simp [p.timeAfter_succ, p.timeAfter_zero, Progress.answered]
    | ok answer =>
      simp only [hreply] at h hpanic
      have hrest := ih answer (hstep.answered c) hpanic (hprogram.2 answer)
        fun j hj => mt (allowance.isLateAt_answered_iff c).1 (h (j + 1) (Nat.succ_lt_succ hj))
      rw [p.timeAfter_answered] at hrest
      simp [hrest]
  | nil width branch next ih => exact ih hstep hpanic (hprogram.2 []) h
  | cons width n names branch next ih => exact absurd rfl (hprogram.1 n List.mem_cons_self)

end Program

end BuildPlan
