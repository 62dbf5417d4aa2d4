import BuildPlan.Proofs.Session.Evaluation

/-! # Which calls are made

What a program may ask can be read off its tree. Over a universe, which answers at once, calls are
made one after the other, look-ups too. If one of them fails, the program makes no further call: the
calls before it are those of the run in which nothing fails.
-/
namespace BuildPlan

namespace Program

variable {α β : Type}

/-- Every call that the program may make, whatever it is answered, has a property. -/
def AllCalls (P : Call → Prop) : Program α → Prop
  | done _ | fail _ => True
  | ask c next => P c ∧ ∀ answer, (next answer).AllCalls P
  | lookups _ names branch next =>
    (∀ n ∈ names, P (.aclOf n branch)) ∧ ∀ acls, (next acls).AllCalls P

theorem AllCalls.bind {P : Call → Prop} {p : Program α} {f : α → Program β} (hp : p.AllCalls P)
    (hf : ∀ a, (f a).AllCalls P) : (p >>= f).AllCalls P := by
  change (p.bind f).AllCalls P
  induction p with
  | done a => exact hf a
  | fail e => trivial
  | ask c next ih => exact ⟨hp.1, fun answer => ih answer (hp.2 answer)⟩
  | lookups width names branch next ih => exact ⟨hp.1, fun acls => ih acls (hp.2 acls)⟩

theorem AllCalls.mono {P Q : Call → Prop} (h : ∀ c, P c → Q c) {p : Program α}
    (hp : p.AllCalls P) : p.AllCalls Q := by
  induction p with
  | done _ | fail _ => trivial
  | ask c next ih => exact ⟨h c hp.1, fun answer => ih answer (hp.2 answer)⟩
  | lookups width names branch next ih =>
    exact ⟨fun n hn => h _ (hp.1 n hn), fun acls => ih acls (hp.2 acls)⟩

@[elab_as_elim]
theorem induction_inTurn {motive : Program α → Prop} (done : ∀ a, motive (.done a))
    (fail : ∀ e, motive (.fail e))
    (ask : ∀ c next, (∀ answer, motive (next answer)) → motive (.ask c next))
    (nil : ∀ width branch next, motive (next []) → motive (.lookups width [] branch next))
    (cons : ∀ width n names branch next,
      motive (.ask (.aclOf n branch) fun members =>
        .lookups width names branch fun rest => next (members :: rest)) →
      motive (.lookups width (n :: names) branch next)) (p : Program α) : motive p := by
  induction p with
  | done a => exact done a
  | fail e => exact fail e
  | ask c next ih => exact ask c next ih
  | lookups width names branch next ih =>
    induction names generalizing next with
    | nil => exact nil width branch next (ih [])
    | cons n names ihnames =>
      refine cons width n names branch next (ask _ _ fun members => ?_)
      exact ihnames _ fun rest => ih (members :: rest)

/-! ### Calls answered at once -/

section Prompt

variable {world : World} (allowance : Allowance) {p : Progress}

omit allowance in
theorem ending_of_prompt (allowance : Allowance) (now : Nat) {c : Call}
    {response : Response c.Answer} (h : response.delay = 0) :
    allowance.ending now c response =
      ⟨now, (response.outcome.mapError c.failure).mapError .failed⟩ :=
  if_pos h

theorem run_ask_of_prompt {c : Call} (h : (world p.past c).delay = 0)
    (next : c.Answer → Program α) : (ask c next).run world allowance p =
      match (world p.past c).outcome.mapError c.failure with
      | .ok answer => (next answer).run world allowance ⟨c :: p.past, p.now⟩
      | .error e => (.error (.failed e), ⟨c :: p.past, p.now⟩) := by
  rw [run_ask, ending_of_prompt allowance p.now h]
  cases (world p.past c).outcome.mapError c.failure <;> rfl

/-- A look-up that is answered at once is over before the next one could begin. -/
theorem run_lookups_of_prompt {n : PackageName} {branch : String}
    (h : (world p.past (.aclOf n branch)).delay = 0) (width : Nat) (names : List PackageName)
    (next : List (List String) → Program α) :
    (lookups width (n :: names) branch next).run world allowance p =
      (ask (.aclOf n branch) fun members =>
        lookups width names branch fun rest => next (members :: rest)).run world allowance p := by
  have hfill : LookupQueue.fill world allowance 1 branch [] p (n :: names) =
      (⟨[⟨p.now, ((world p.past (.aclOf n branch)).outcome.mapError
        (Call.aclOf n branch).failure).mapError .failed⟩], names⟩,
          ⟨.aclOf n branch :: p.past, p.now⟩) := by
    cases names <;> simp [LookupQueue.fill, ending_of_prompt allowance p.now h]
  rw [run_ask_of_prompt allowance h]
  simp only [run_lookups, List.length_cons, runLookups, LookupQueue.start, LookupQueue.await,
    List.isEmpty_nil, if_true, hfill, Nat.lt_irrefl, if_false, List.tail_cons, List.any_cons,
    List.any_nil, Bool.or_false]
  cases (world p.past (.aclOf n branch)).outcome.mapError (Call.aclOf n branch).failure with
  | error e => rfl
  | ok members =>
    simp only [Except.mapError, Ending.hasPanicked, Bool.false_eq_true, if_false]
    generalize runLookups world allowance width branch names.length ⟨[], names⟩
      ⟨.aclOf n branch :: p.past, p.now⟩ = x
    obtain ⟨_ | rest, p'⟩ := x <;> rfl

end Prompt

/-! ### The calls of a run -/

variable (u : Universe)

/-- The look-ups that are made until one fails, with the calls that follow if none does. -/
def lookupCalls (branch : String) (next : List (List String) → List Call) :
    List PackageName → List Call
  | [] => next []
  | n :: names => .aclOf n branch ::
    match u.reply (.aclOf n branch) with
    | .ok members => lookupCalls branch (fun rest => next (members :: rest)) names
    | .error _ => []

def calls : Program α → List Call
  | done _ | fail _ => []
  | ask c next => c ::
    match u.reply c with
    | .ok answer => (next answer).calls
    | .error _ => []
  | lookups _ names branch next => lookupCalls u branch (fun acls => (next acls).calls) names

theorem calls_ask (c : Call) (next : c.Answer → Program α) :
    (ask c next).calls u = c ::
      match u.reply c with
      | .ok answer => (next answer).calls u
      | .error _ => [] := by
  rw [calls]

theorem calls_lookups_cons (width : Nat) (n : PackageName) (names : List PackageName)
    (branch : String) (next : List (List String) → Program α) :
    (lookups width (n :: names) branch next).calls u = (ask (.aclOf n branch) fun members =>
      lookups width names branch fun rest => next (members :: rest)).calls u := by
  simp only [calls, lookupCalls]
  cases u.reply (.aclOf n branch) <;> rfl

theorem AllCalls.of_mem_calls {P : Call → Prop} {p : Program α} (hp : p.AllCalls P) {c : Call}
    (hc : c ∈ p.calls u) : P c := by
  induction p using induction_inTurn with
  | done _ | fail _ => cases hc
  | ask c' next ih =>
    rw [calls_ask] at hc
    rcases List.mem_cons.1 hc with rfl | hc
    · exact hp.1
    · split at hc
      · next answer _ => exact ih answer (hp.2 answer) hc
      · cases hc
  | nil width branch next ih => exact ih (hp.2 []) hc
  | cons width n names branch next ih =>
    rw [calls_lookups_cons] at hc
    refine ih ⟨hp.1 n List.mem_cons_self, fun members => ⟨fun m hm => ?_, fun rest => ?_⟩⟩ hc
    · exact hp.1 m (List.mem_cons_of_mem n hm)
    · exact hp.2 (members :: rest)

theorem eval_lookups_cons (width : Nat) (n : PackageName) (names : List PackageName)
    (branch : String) (next : List (List String) → Program α) :
    (lookups width (n :: names) branch next).eval u = (ask (.aclOf n branch) fun members =>
      lookups width names branch fun rest => next (members :: rest)).eval u := by
  simp only [eval_ask, eval_lookups, List.mapM_cons, bind_assoc, pure_bind]

@[simp] theorem calls_pure (a : α) : (pure a : Program α).calls u = [] := rfl

theorem calls_call (c : Call) : (call c).calls u = [c] := by
  rw [call, calls_ask]
  cases u.reply c <;> rfl

theorem calls_bind {p : Program α} {a : α} (h : p.eval u = .ok a) (f : α → Program β) :
    (p >>= f).calls u = p.calls u ++ (f a).calls u := by
  change (p.bind f).calls u = _
  induction p using induction_inTurn with
  | done a' =>
    obtain rfl := Except.ok.inj h
    rfl
  | fail e => cases h
  | ask c next ih =>
    obtain ⟨answer, hreply, hnext⟩ := bind_eq_ok_iff.1 h
    simp only [Program.bind, calls_ask, hreply, ih answer hnext, List.cons_append]
  | nil width branch next ih => exact ih h
  | cons width n names branch next ih =>
    rw [eval_lookups_cons] at h
    rw [calls_lookups_cons, ← ih h]
    exact calls_lookups_cons ..

/-- Over a universe a run takes no time and ends as the program does. -/
theorem run_world_eq (p : Program α) (allowance : Allowance) (progress : Progress) :
    p.run u.world allowance progress =
      ((p.eval u).mapError .failed, ⟨(p.calls u).reverse ++ progress.past, progress.now⟩) := by
  induction p using induction_inTurn generalizing progress with
  | done _ | fail _ => rfl
  | ask c next ih =>
    have hreply : (u.world progress.past c).outcome.mapError c.failure = u.reply c := rfl
    rw [run_ask_of_prompt allowance rfl, hreply, calls_ask, eval_ask]
    cases u.reply c with
    | ok answer => simp [ih]
    | error e => simp
  | nil width branch next ih => exact ih progress
  | cons width n names branch next ih =>
    rw [run_lookups_of_prompt allowance rfl, calls_lookups_cons, eval_lookups_cons]
    exact ih progress

/-- Universes that answer every call of a program alike cannot be told apart by it. -/
theorem eval_calls_congr {u u' : Universe} {P : Call → Prop}
    (h : ∀ c, P c → u.answer c = u'.answer c) {p : Program α} (hp : p.AllCalls P) :
    p.eval u = p.eval u' ∧ p.calls u = p.calls u' := by
  induction p using induction_inTurn with
  | done _ | fail _ => exact ⟨rfl, rfl⟩
  | ask c next ih =>
    have hreply : u.reply c = u'.reply c := by rw [Universe.reply, Universe.reply, h c hp.1]
    simp only [eval_ask, calls_ask, hreply]
    cases u'.reply c with
    | ok answer =>
      obtain ⟨heval, hcalls⟩ := ih answer (hp.2 answer)
      exact ⟨heval, congrArg _ hcalls⟩
    | error e => exact ⟨rfl, rfl⟩
  | nil width branch next ih => exact ih (hp.2 [])
  | cons width n names branch next ih =>
    simp only [eval_lookups_cons, calls_lookups_cons]
    apply ih
    refine ⟨hp.1 n List.mem_cons_self, fun members => ⟨fun m hm => ?_, fun rest => ?_⟩⟩
    · exact hp.1 m (List.mem_cons_of_mem n hm)
    · exact hp.2 (members :: rest)

theorem run_world_congr {u u' : Universe} {P : Call → Prop}
    (h : ∀ c, P c → u.answer c = u'.answer c) {p : Program α} (hp : p.AllCalls P)
    (allowance : Allowance) (progress : Progress) :
    p.run u.world allowance progress = p.run u'.world allowance progress := by
  obtain ⟨heval, hcalls⟩ := eval_calls_congr h hp
  rw [run_world_eq, run_world_eq, heval, hcalls]

theorem run_world (p : Program α) (allowance : Allowance) (progress : Progress) :
    (p.run u.world allowance progress).1 = (p.eval u).mapError .failed := by
  rw [run_world_eq]

end Program

/-! ### A call that fails -/

/-- The world in which the call that comes after so many others fails. -/
def World.failingAt (world : World) (count : Nat) (e : UniverseError) : World := fun past call =>
  if past.length = count then ⟨0, .error e⟩ else world past call

theorem Universe.delay_failingAt (u : Universe) (count : Nat) (e : UniverseError)
    (past : List Call) (c : Call) : (u.world.failingAt count e past c).delay = 0 := by
  unfold World.failingAt
  split <;> rfl

/-- A call that fails is the last one. -/
theorem Program.run_failingAt {α : Type} (u : Universe) (p : Program α) (allowance : Allowance)
    (e : UniverseError) {progress : Progress} {k : Nat} {c : Call}
    (h : (p.calls u)[k]? = some c) :
    p.run (u.world.failingAt (progress.past.length + k) e) allowance progress =
      (.error (.failed (c.failure e)),
        ⟨((p.calls u).take (k + 1)).reverse ++ progress.past, progress.now⟩) := by
  induction p using induction_inTurn generalizing progress k with
  | done _ | fail _ => cases h
  | ask c' next ih =>
    rw [run_ask_of_prompt allowance (u.delay_failingAt ..)]
    rw [calls_ask] at h
    cases k with
    | zero =>
      obtain rfl : c' = c := Option.some.inj h
      have herror : (u.world.failingAt (progress.past.length + 0) e progress.past c').outcome =
          .error e := by rw [World.failingAt, if_pos (Nat.add_zero _).symm]
      rw [herror, calls_ask, Except.mapError, List.take_succ_cons, List.take_zero]
      rfl
    | succ k =>
      have hreply : (u.world.failingAt (progress.past.length + (k + 1)) e progress.past
          c').outcome.mapError c'.failure = u.reply c' := by
        rw [World.failingAt, if_neg (by omega)]
        rfl
      rw [List.getElem?_cons_succ] at h
      rw [hreply, calls_ask]
      cases hr : u.reply c' with
      | error _ => simp [hr] at h
      | ok answer =>
        rw [hr] at h
        have hnext := @ih answer ⟨c' :: progress.past, progress.now⟩ k h
        rw [List.length_cons, Nat.add_right_comm, Nat.add_assoc] at hnext
        simp [hnext]
  | nil width branch next ih => exact ih h
  | cons width n names branch next ih =>
    rw [calls_lookups_cons] at h
    rw [run_lookups_of_prompt allowance (u.delay_failingAt ..), calls_lookups_cons]
    exact ih h

end BuildPlan
