import BuildPlan.Proofs.Session.Calls
import Mathlib.Order.Lattice.Nat

/-! # The end of the clock

A timer cannot be set within the last tick of the clock. A run that comes to a call for which it has
to wait then panics, and no run panics for any other reason. When all calls share a budget, it does
not matter which of them has to be waited for.
-/
namespace BuildPlan

theorem Clock.limit_eq : limit = 2 ^ 63 * 1_000_000_000 := by decide

theorem Clock.le_roundUp (instant : Nat) : instant ≤ roundUp instant := by
  unfold roundUp tick
  omega

theorem Clock.ring?_eq_none_iff {instant : Nat} :
    ring? instant = none ↔ limit < instant + tick := by
  unfold ring? tick
  split
  · simp only [reduceCtorEq, false_iff]
    omega
  · simp only [true_iff]
    omega

theorem Clock.eq_roundUp_of_ring? {instant time : Nat} (h : ring? instant = some time) :
    time = roundUp instant := by
  unfold ring? at h
  split at h
  · exact (Option.some.inj h).symm
  · cases h

theorem Allowance.timer?_shared_eq_none_iff {budget : Span} {expiry now : Nat} :
    (shared budget expiry).timer? now = none ↔ Clock.limit < expiry + Clock.tick := by
  rw [timer?, Option.map_eq_none_iff, Clock.ring?_eq_none_iff]

theorem Allowance.timer?_perCall_eq_none_iff {limit : Span} {now : Nat} :
    (perCall limit).timer? now = none ↔
      now + limit.toNanos < Clock.limit ∧ Clock.limit < now + limit.toNanos + Clock.tick := by
  rw [timer?]
  split
  · next hlt => rw [Clock.ring?_eq_none_iff, and_iff_right hlt]
  · next hle => simp [hle]

theorem Allowance.limit_lt_of_timer?_eq_none {allowance : Allowance} {now : Nat}
    (h : allowance.timer? now = none) : Clock.limit < allowance.expiry now + Clock.tick := by
  cases allowance with
  | perCall limit => exact (timer?_perCall_eq_none_iff.1 h).2
  | shared budget expiry => exact timer?_shared_eq_none_iff.1 h

/-- A call is given up at the first tick that is not before the end of its allowance. -/
theorem Allowance.eq_of_timer? {allowance : Allowance} {now time : Nat}
    (h : allowance.timer? now = some time) :
    time = max now (Clock.roundUp (allowance.expiry now)) := by
  cases allowance with
  | perCall limit =>
    have hle : now ≤ Clock.roundUp (now + limit.toNanos) :=
      (Nat.le_add_right ..).trans (Clock.le_roundUp _)
    rw [expiry, Nat.max_eq_right hle]
    rw [timer?] at h
    split at h
    · exact Clock.eq_roundUp_of_ring? h
    · exact (Option.some.inj h).symm
  | shared budget expiry =>
    rw [timer?] at h
    obtain ⟨ring, hring, rfl⟩ := Option.map_eq_some_iff.1 h
    rw [Clock.eq_roundUp_of_ring? hring]
    rfl

theorem Allowance.le_time_ending (allowance : Allowance) (now : Nat) {c : Call}
    (response : Response c.Answer) : now ≤ (allowance.ending now c response).time := by
  unfold ending
  dsimp only
  split
  · exact le_rfl
  · split
    · exact le_rfl
    · next htimer =>
      split
      · exact Nat.le_add_right ..
      · exact eq_of_timer? htimer ▸ Nat.le_max_left ..

theorem Ending.hasPanicked_iff {α : Type} {ending : Ending α} :
    ending.hasPanicked = true ↔ ending.outcome = .error .panicked := by
  unfold hasPanicked
  split
  · next h => simp [h]
  · next h => simpa using h

theorem Allowance.hasPanicked_ending {allowance : Allowance} {now : Nat} {c : Call}
    {response : Response c.Answer} : (allowance.ending now c response).hasPanicked = true ↔
      response.delay ≠ 0 ∧ allowance.timer? now = none := by
  have hanswer : ∀ time, (Ending.mk time
      ((response.outcome.mapError c.failure).mapError Stop.failed)).hasPanicked = false := by
    intro time
    cases response.outcome <;> rfl
  unfold ending
  by_cases hdelay : response.delay = 0
  · simp only [hdelay, if_true, hanswer, ne_eq, not_true, false_and, Bool.false_eq_true]
  · cases allowance.timer? now with
    | none => simp [hdelay, Ending.hasPanicked]
    | some time =>
      simp only [hdelay, if_false, reduceCtorEq, and_false, iff_false]
      split
      · rw [hanswer]
        exact Bool.false_ne_true
      · exact Bool.false_ne_true

/-- How far a session has come may be further than before. -/
structure Progress.IsAfter (q p : Progress) : Prop where
  past : p.past <:+ q.past
  now : p.now ≤ q.now

theorem Progress.IsAfter.refl (p : Progress) : p.IsAfter p := ⟨List.suffix_rfl, le_rfl⟩

theorem Progress.IsAfter.trans {p q r : Progress} (h : r.IsAfter q) (h' : q.IsAfter p) :
    r.IsAfter p := ⟨h'.past.trans h.past, h'.now.trans h.now⟩

/-- One of the calls that were made after others had to be waited for. -/
def World.Waits (world : World) (since calls : List Call) : Prop :=
  ∃ past c, c :: past <:+ calls ∧ since <:+ past ∧ (world past c).delay ≠ 0

/-- One of them had to be waited for from an instant at which no timer could be set. -/
def Allowance.Fails (allowance : Allowance) (world : World) (since : Progress)
    (calls : List Call) : Prop :=
  ∃ past c now, c :: past <:+ calls ∧ since.past <:+ past ∧ since.now ≤ now ∧
    (world past c).delay ≠ 0 ∧ allowance.timer? now = none

section Panics

variable {world : World} {allowance : Allowance} {p q : Progress} {calls : List Call}

theorem Allowance.Fails.mono (h : allowance.Fails world q calls) (hq : q.IsAfter p)
    {more : List Call} (hcalls : calls <:+ more) : allowance.Fails world p more := by
  obtain ⟨past, c, now, hc, hpast, hnow, hfails⟩ := h
  exact ⟨past, c, now, hc.trans hcalls, hq.past.trans hpast, hq.now.trans hnow, hfails⟩

theorem Allowance.Fails.waits {since : Progress} (h : allowance.Fails world since calls) :
    world.Waits since.past calls := by
  obtain ⟨past, c, _, hc, hpast, -, hdelay, -⟩ := h
  exact ⟨past, c, hc, hpast, hdelay⟩

theorem not_waits_self (world : World) (calls : List Call) : ¬ world.Waits calls calls := by
  rintro ⟨past, c, hc, hpast, -⟩
  exact absurd (hc.length_le.trans hpast.length_le) (Nat.not_succ_le_self past.length)

theorem World.Waits.split {since middle : List Call} (h : world.Waits since calls)
    (hmiddle : middle <:+ calls) : world.Waits since middle ∨ world.Waits middle calls := by
  obtain ⟨past, c, hc, hpast, hdelay⟩ := h
  rcases List.suffix_or_suffix_of_suffix hc hmiddle with hle | hle
  · exact Or.inl ⟨past, c, hle, hpast, hdelay⟩
  · rcases List.suffix_cons_iff.1 hle with rfl | hle
    · exact Or.inl ⟨past, c, List.suffix_rfl, hpast, hdelay⟩
    · exact Or.inr ⟨past, c, hc, hle, hdelay⟩

theorem waits_cons_iff {c : Call} : world.Waits calls (c :: calls) ↔
    (world calls c).delay ≠ 0 := by
  constructor
  · rintro ⟨past, c', hc, hpast, hdelay⟩
    have hlength : (c' :: past).length = (c :: calls).length :=
      le_antisymm hc.length_le (Nat.succ_le_succ hpast.length_le)
    obtain ⟨rfl, rfl⟩ := List.cons.inj (hc.eq_of_length hlength)
    exact hdelay
  · exact fun h => ⟨calls, c, List.suffix_rfl, List.suffix_rfl, h⟩

/-! ### Look-ups -/

namespace LookupQueue

variable (world : World) (allowance : Allowance) (width : Nat) (branch : String)

theorem fill_panics (begun : List (Ending (List String))) (p : Progress)
    (waiting : List PackageName) :
    let filled := fill world allowance width branch begun p waiting
    filled.2.IsAfter p ∧ (filled.1.begun.any Ending.hasPanicked = true →
      begun.any Ending.hasPanicked = true ∨ allowance.Fails world p filled.2.past) := by
  induction waiting generalizing begun p with
  | nil => exact ⟨.refl p, Or.inl⟩
  | cons n waiting ih =>
    rw [fill]
    split
    · obtain ⟨hafter, hpanic⟩ := ih
        (begun ++ [allowance.ending p.now (.aclOf n branch) (world p.past (.aclOf n branch))])
        { p with past := .aclOf n branch :: p.past }
      have hnext : Progress.IsAfter { p with past := .aclOf n branch :: p.past } p :=
        ⟨List.suffix_cons .., le_rfl⟩
      refine ⟨hafter.trans hnext, fun hany => ?_⟩
      rcases hpanic hany with hbegun | hfails
      · rw [List.any_append, Bool.or_eq_true, List.any_cons, List.any_nil, Bool.or_false,
          Allowance.hasPanicked_ending] at hbegun
        refine hbegun.imp_right fun h => ?_
        exact ⟨p.past, _, p.now, hafter.past, List.suffix_rfl, le_rfl, h⟩
      · exact Or.inr (hfails.mono hnext List.suffix_rfl)
    · exact ⟨.refl p, Or.inl⟩

theorem start_panics (queue : LookupQueue) (p : Progress) :
    let started := queue.start world allowance branch p
    started.2.IsAfter p ∧ (started.1.begun.any Ending.hasPanicked = true →
      queue.begun.any Ending.hasPanicked = true ∨ allowance.Fails world p started.2.past) := by
  unfold start
  split
  · obtain ⟨hafter, hpanic⟩ := fill_panics world allowance 1 branch [] p queue.waiting
    exact ⟨hafter, fun hany => Or.inr ((hpanic hany).resolve_left Bool.false_ne_true)⟩
  · exact ⟨.refl p, Or.inl⟩

theorem await_panics (time : Nat) (queue : LookupQueue) (p : Progress) :
    let awaited := queue.await world allowance width branch time p
    awaited.2.IsAfter p ∧ (awaited.1.begun.any Ending.hasPanicked = true →
      queue.begun.any Ending.hasPanicked = true ∨ allowance.Fails world p awaited.2.past) := by
  unfold await
  split
  · next hlt =>
    obtain ⟨hafter, hpanic⟩ :=
      fill_panics world allowance width branch queue.begun p queue.waiting
    exact ⟨⟨hafter.past, hlt.le⟩, hpanic⟩
  · exact ⟨.refl p, Or.inl⟩

variable {world allowance branch}

theorem any_hasPanicked_fill (hnone : ∀ now, allowance.timer? now = none)
    {begun : List (Ending (List String))} {p : Progress} {waiting : List PackageName}
    (h : begun.any Ending.hasPanicked = true ∨
      world.Waits p.past (fill world allowance width branch begun p waiting).2.past) :
    (fill world allowance width branch begun p waiting).1.begun.any Ending.hasPanicked = true := by
  induction waiting generalizing begun p with
  | nil => exact h.resolve_right (not_waits_self world p.past)
  | cons n waiting ih =>
    rw [fill] at h ⊢
    split
    · next hroom =>
      rw [if_pos hroom] at h
      apply ih
      rw [List.any_append, Bool.or_eq_true, or_assoc]
      refine h.imp_right fun hwaits => ?_
      have hafter := (fill_panics world allowance width branch
        (begun ++ [allowance.ending p.now (.aclOf n branch) (world p.past (.aclOf n branch))])
        { p with past := .aclOf n branch :: p.past } waiting).1
      refine (hwaits.split hafter.past).imp_left fun hfirst => ?_
      rw [List.any_cons, List.any_nil, Bool.or_false, Allowance.hasPanicked_ending]
      exact ⟨waits_cons_iff.1 hfirst, hnone p.now⟩
    · next hroom =>
      rw [if_neg hroom] at h
      exact h.resolve_right (not_waits_self world p.past)

theorem any_hasPanicked_start (hnone : ∀ now, allowance.timer? now = none) {queue : LookupQueue}
    {p : Progress} (h : world.Waits p.past (queue.start world allowance branch p).2.past) :
    (queue.start world allowance branch p).1.begun.any Ending.hasPanicked = true := by
  unfold start at h ⊢
  split
  · next hempty =>
    rw [if_pos hempty] at h
    exact any_hasPanicked_fill 1 hnone (Or.inr h)
  · next hbusy =>
    rw [if_neg hbusy] at h
    exact absurd h (not_waits_self world p.past)

theorem any_hasPanicked_await (hnone : ∀ now, allowance.timer? now = none) {time : Nat}
    {queue : LookupQueue} {p : Progress} (h : queue.begun.any Ending.hasPanicked = true ∨
      world.Waits p.past (queue.await world allowance width branch time p).2.past) :
    (queue.await world allowance width branch time p).1.begun.any Ending.hasPanicked = true := by
  unfold await at h ⊢
  split
  · next hlt =>
    rw [if_pos hlt] at h
    exact any_hasPanicked_fill width hnone h
  · next hle =>
    rw [if_neg hle] at h
    exact h.resolve_right (not_waits_self world p.past)

end LookupQueue

namespace Program

variable {α : Type}

theorem runLookups_panics (world : World) (allowance : Allowance) (width : Nat) (branch : String)
    (turns : Nat) (queue : LookupQueue) (p : Progress) :
    let run := runLookups world allowance width branch turns queue p
    run.2.IsAfter p ∧ (run.1 = .error .panicked →
      queue.begun.any Ending.hasPanicked = true ∨ allowance.Fails world p run.2.past) := by
  induction turns generalizing queue p with
  | zero => exact ⟨.refl p, fun h => by cases h⟩
  | succ turns ih =>
    obtain ⟨hstarted, hstart⟩ := queue.start_panics world allowance branch p
    simp only [runLookups]
    generalize queue.start world allowance branch p = started at hstarted hstart ⊢
    split
    · exact ⟨hstarted, fun h => by cases h⟩
    · next first later hbegun =>
      obtain ⟨hawaited, hawait⟩ :=
        started.1.await_panics world allowance width branch first.time started.2
      generalize started.1.await world allowance width branch first.time started.2 = awaited
        at hawaited hawait ⊢
      have hstart' : started.1.begun.any Ending.hasPanicked = true →
          queue.begun.any Ending.hasPanicked = true ∨ allowance.Fails world p awaited.2.past :=
        fun h => (hstart h).imp_right (·.mono (.refl p) hawaited.past)
      split
      · next hany =>
        refine ⟨hawaited.trans hstarted, fun _ => ?_⟩
        exact (hawait hany).elim hstart' fun h => Or.inr (h.mono hstarted List.suffix_rfl)
      · next hnone =>
        split
        · next e hfirst =>
          refine ⟨hawaited.trans hstarted, fun h => hstart' ?_⟩
          obtain rfl := Except.error.inj h
          rw [hbegun, List.any_cons, Ending.hasPanicked_iff.2 hfirst, Bool.true_or]
        · obtain ⟨hafter, hpanic⟩ :=
            ih { awaited.1 with begun := awaited.1.begun.tail } awaited.2
          generalize runLookups world allowance width branch turns
            { awaited.1 with begun := awaited.1.begun.tail } awaited.2 = rest at hafter hpanic ⊢
          refine ⟨hafter.trans (hawaited.trans hstarted), fun h => ?_⟩
          have hrest : rest.1 = .error .panicked := by
            cases hrest : rest.1 with
            | ok answers => simp [hrest, Except.map] at h
            | error stop => simpa [hrest, Except.map] using h
          refine Or.inr ?_
          rcases hpanic hrest with hany | hfails
          · obtain ⟨ending, hmem, hending⟩ := List.any_eq_true.1 hany
            exact absurd (List.any_eq_true.2 ⟨ending, List.mem_of_mem_tail hmem, hending⟩) hnone
          · exact hfails.mono (hawaited.trans hstarted) List.suffix_rfl

/-- A run panics only at a call that has to be waited for when no timer can be set. -/
theorem run_panics (world : World) (allowance : Allowance) (program : Program α) (p : Progress) :
    let run := program.run world allowance p
    run.2.IsAfter p ∧ (run.1 = .error .panicked → allowance.Fails world p run.2.past) := by
  induction program generalizing p with
  | done _ | fail _ => exact ⟨.refl p, fun h => by cases h⟩
  | ask c next ih =>
    have hasked : Progress.IsAfter
        ⟨c :: p.past, (allowance.ending p.now c (world p.past c)).time⟩ p :=
      ⟨List.suffix_cons .., allowance.le_time_ending p.now _⟩
    simp only [run_ask]
    split
    · next answer _ =>
      obtain ⟨hafter, hpanic⟩ :=
        ih answer ⟨c :: p.past, (allowance.ending p.now c (world p.past c)).time⟩
      exact ⟨hafter.trans hasked, fun h => (hpanic h).mono hasked List.suffix_rfl⟩
    · next stop hending =>
      refine ⟨hasked, fun h => ?_⟩
      obtain rfl := Except.error.inj h
      exact ⟨p.past, c, p.now, List.suffix_rfl, List.suffix_rfl, le_rfl,
        Allowance.hasPanicked_ending.1 (Ending.hasPanicked_iff.2 hending)⟩
  | lookups width names branch next ih =>
    obtain ⟨hafter, hpanic⟩ :=
      runLookups_panics world allowance width branch names.length ⟨[], names⟩ p
    simp only [run_lookups]
    split
    · next answers q hrun =>
      rw [hrun] at hafter
      obtain ⟨hafter', hpanic'⟩ := ih answers q
      exact ⟨hafter'.trans hafter, fun h => (hpanic' h).mono hafter List.suffix_rfl⟩
    · next stop q hrun =>
      rw [hrun] at hafter hpanic
      exact ⟨hafter, fun h => (hpanic (Except.error.inj h ▸ rfl)).resolve_left Bool.false_ne_true⟩

theorem runLookups_of_waits (hnone : ∀ now, allowance.timer? now = none) {width : Nat}
    {branch : String} {turns : Nat} {queue : LookupQueue} {p : Progress}
    (h : world.Waits p.past (runLookups world allowance width branch turns queue p).2.past) :
    (runLookups world allowance width branch turns queue p).1 = .error .panicked := by
  induction turns generalizing queue p with
  | zero => exact absurd h (not_waits_self world p.past)
  | succ turns ih =>
    have hstart := @LookupQueue.any_hasPanicked_start world allowance branch hnone queue p
    simp only [runLookups] at h ⊢
    generalize queue.start world allowance branch p = started at hstart h ⊢
    split
    · next hbegun =>
      simp only [hbegun] at h
      simp [hbegun] at hstart
      exact absurd h hstart
    · next first later hbegun =>
      have hawait := @LookupQueue.any_hasPanicked_await world allowance width branch hnone
        first.time started.1 started.2
      have hawaited :=
        (started.1.await_panics world allowance width branch first.time started.2).1
      simp only [hbegun] at h
      generalize started.1.await world allowance width branch first.time started.2 = awaited
        at hawait hawaited h ⊢
      split
      · rfl
      · next hquiet =>
        have hprompt : ¬ world.Waits p.past awaited.2.past := fun hwaits =>
          hquiet (hawait ((hwaits.split hawaited.past).imp_left hstart))
        rw [if_neg hquiet] at h
        split
        · next stop hfirst =>
          simp only [hfirst] at h
          exact absurd h hprompt
        · next members hfirst =>
          simp only [hfirst] at h
          have hafter := (runLookups_panics world allowance width branch turns
            { awaited.1 with begun := awaited.1.begun.tail } awaited.2).1
          rw [ih ((h.split hafter.past).resolve_left hprompt)]
          rfl

/-- When no timer can be set, a run that comes to a call for which it has to wait panics. -/
theorem run_of_waits (hnone : ∀ now, allowance.timer? now = none) {program : Program α}
    {p : Progress} (h : world.Waits p.past (program.run world allowance p).2.past) :
    (program.run world allowance p).1 = .error .panicked := by
  induction program generalizing p with
  | done _ | fail _ => exact absurd h (not_waits_self world p.past)
  | ask c next ih =>
    have hwaited : world.Waits p.past (c :: p.past) →
        (allowance.ending p.now c (world p.past c)).outcome = .error .panicked := fun h =>
      Ending.hasPanicked_iff.1 (Allowance.hasPanicked_ending.2 ⟨waits_cons_iff.1 h, hnone p.now⟩)
    simp only [run_ask] at h ⊢
    cases hending : (allowance.ending p.now c (world p.past c)).outcome with
    | ok answer =>
      simp only [hending] at h ⊢
      have hafter := ((next answer).run_panics world allowance
        ⟨c :: p.past, (allowance.ending p.now c (world p.past c)).time⟩).1
      refine ih answer ((h.split hafter.past).resolve_left fun hfirst => ?_)
      cases hending.symm.trans (hwaited hfirst)
    | error stop =>
      simp only [hending] at h ⊢
      exact congrArg _ (Except.error.inj (hending.symm.trans (hwaited h)))
  | lookups width names branch next ih =>
    have hlookups := @runLookups_of_waits world allowance hnone width branch names.length
      ⟨[], names⟩ p
    simp only [run_lookups] at h ⊢
    split
    · next answers q hrun =>
      simp only [hrun] at h hlookups
      refine ih answers ((h.split ((next answers).run_panics world allowance q).1.past).resolve_left
        fun hfirst => ?_)
      cases hlookups hfirst
    · next stop q hrun =>
      simp only [hrun] at h hlookups
      exact congrArg _ (Except.error.inj (hlookups h))

end Program

end Panics

end BuildPlan
