import BuildPlan.Proofs.Resolution.Deadline

/-! # Requests that panic

The limit of a call is an instant, and the clock does not reach all of them. A deadline beyond its
end cannot even be set. One in its last millisecond can be set, but not the timer of a call that has
to be waited for. A limit for one call that lies beyond the end of the clock does no harm.
-/
namespace BuildPlan.Resolver

variable {resolver : Resolver} {world : World} {request : Request} {checked : CheckedRequest}
  {p : Progress}

theorem resolve_panicked_iff_of_deadline {budget : Span}
    (hdeadline : request.deadline = some budget) :
    (resolver.resolve world request p).1 = .panicked ↔
      (∃ checked, request.check resolver.config = .ok checked) ∧
        (Clock.limit ≤ p.now + budget.toNanos ∨
          Clock.limit < p.now + budget.toNanos + Clock.tick ∧
            world.Waits p.past (resolver.resolve world request p).2.past) := by
  constructor
  · intro hpanic
    obtain ⟨hcheck, hnone | ⟨allowance, hstart, hfails⟩⟩ := fails_of_resolve_eq_panicked hpanic
    · obtain ⟨budget', hsome, hle⟩ := Request.start_eq_none_iff.1 hnone
      obtain rfl := Option.some.inj (hdeadline.symm.trans hsome)
      exact ⟨hcheck, Or.inl hle⟩
    · obtain ⟨hnone, -⟩ | ⟨budget', hsome, -, rfl⟩ := Request.start_eq_some_iff.1 hstart
      · cases hdeadline.symm.trans hnone
      · obtain rfl := Option.some.inj (hdeadline.symm.trans hsome)
        have hwaits := hfails.waits
        obtain ⟨_, _, _, -, -, -, -, htimer⟩ := hfails
        exact ⟨hcheck, Or.inr ⟨Allowance.timer?_shared_eq_none_iff.1 htimer, hwaits⟩⟩
  · rintro ⟨⟨checked, hcheck⟩, hend⟩
    cases hstart : Allowance.start? p.now request.deadline resolver.config.accessorTimeout with
    | none => exact congrArg Prod.fst (resolve_of_start_eq_none hcheck hstart world)
    | some allowance =>
      obtain ⟨hnone, -⟩ | ⟨budget', hsome, hlt, rfl⟩ := Request.start_eq_some_iff.1 hstart
      · cases hdeadline.symm.trans hnone
      · obtain rfl := Option.some.inj (hdeadline.symm.trans hsome)
        obtain ⟨hlast, hwaits⟩ := hend.resolve_left (Nat.not_le.2 hlt)
        rw [resolve_eq_of_start hcheck hstart] at hwaits ⊢
        refine Outcome.ofRun_eq_panicked_iff.2 (Program.run_of_waits (fun now => ?_) hwaits)
        exact Allowance.timer?_shared_eq_none_iff.2 hlast

theorem fails_of_resolve_panicked_of_no_deadline (hdeadline : request.deadline = none)
    (h : (resolver.resolve world request p).1 = .panicked) :
    (∃ checked, request.check resolver.config = .ok checked) ∧
      (Allowance.perCall resolver.config.accessorTimeout).Fails world p
        (resolver.resolve world request p).2.past := by
  obtain ⟨hcheck, hnone | ⟨allowance, hstart, hfails⟩⟩ := fails_of_resolve_eq_panicked h
  · obtain ⟨_, hsome, -⟩ := Request.start_eq_none_iff.1 hnone
    cases hdeadline.symm.trans hsome
  · obtain ⟨-, rfl⟩ | ⟨_, hsome, -, -⟩ := Request.start_eq_some_iff.1 hstart
    · exact ⟨hcheck, hfails⟩
    · cases hdeadline.symm.trans hsome

theorem resolve_of_checkScope_waits (hcheck : request.check resolver.config = .ok checked)
    {allowance : Allowance}
    (hstart : Allowance.start? p.now request.deadline resolver.config.accessorTimeout =
      some allowance)
    (hdelay : (world p.past (.checkScope checked.scope)).delay ≠ 0)
    (htimer : allowance.timer? p.now = none) :
    resolver.resolve world request p =
      (.panicked, ⟨.checkScope checked.scope :: p.past, p.now⟩) := by
  obtain ⟨next, hprogram, -⟩ := checked.exists_program_eq_ask resolver
  have hending : allowance.ending p.now (.checkScope checked.scope)
      (world p.past (.checkScope checked.scope)) = ⟨p.now, .error .panicked⟩ := by
    simp only [Allowance.ending, if_neg hdelay, htimer]
  rw [resolve_eq_of_start hcheck hstart, hprogram]
  simp only [Program.run_ask, hending]
  rfl

end BuildPlan.Resolver
