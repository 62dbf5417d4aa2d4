import BuildPlan.Proofs.Session.Evaluation

/-! # Worlds that take their time

A world may give the answers of a universe after any delays. Then a run ends as it does over the
universe itself, unless a call runs out of time or no timer can be set for it, and there is no other
way for it to end.
-/
namespace BuildPlan

/-- The world gives the answers of the universe, each after some time. -/
def World.Follows (world : World) (u : Universe) : Prop :=
  ∀ past call, (world past call).outcome = u.answer call

theorem Universe.follows_world (u : Universe) : u.world.Follows u := fun _ _ => rfl

variable {u : Universe} {world : World}

/-- A run stops because of the time that it takes, not because of an answer. -/
inductive Stop.IsOfTime (allowance : Allowance) : Stop → Prop
  | timeout : IsOfTime allowance (.failed (.timeout allowance.allowed))
  | panicked : IsOfTime allowance .panicked

/-- Something comes to what the universe has it come to, or stops because of the time. -/
def Allowance.Reaches {α : Type} (allowance : Allowance) (usual : Except ResolveError α)
    (outcome : Except Stop α) : Prop :=
  outcome = usual.mapError .failed ∨ ∃ stop, outcome = .error stop ∧ stop.IsOfTime allowance

theorem World.Follows.outcome_ending (h : world.Follows u) (allowance : Allowance) (now : Nat)
    (past : List Call) (c : Call) :
    allowance.Reaches (u.reply c) (allowance.ending now c (world past c)).outcome := by
  unfold Allowance.ending
  rw [h past c, ← Universe.reply]
  dsimp only
  split
  · exact Or.inl rfl
  · split
    · exact Or.inr ⟨_, rfl, .panicked⟩
    · split
      · exact Or.inl rfl
      · exact Or.inr ⟨_, rfl, .timeout⟩

/-! ### Look-ups -/

/-- A look-up under way will end with what the universe says about a package, or out of time. -/
def Ending.IsAbout (ending : Ending (List String)) (u : Universe) (allowance : Allowance)
    (branch : String) (n : PackageName) : Prop :=
  allowance.Reaches (u.reply (.aclOf n branch)) ending.outcome

def LookupQueue.IsAbout (queue : LookupQueue) (u : Universe) (allowance : Allowance)
    (branch : String) (names : List PackageName) : Prop :=
  ∃ begun, List.Forall₂ (fun ending n => ending.IsAbout u allowance branch n) queue.begun begun ∧
    names = begun ++ queue.waiting

namespace World.Follows

variable (h : world.Follows u) (allowance : Allowance) (branch : String)
include h

theorem fill (width : Nat) (begun : List (Ending (List String))) (p : Progress)
    (waiting : List PackageName) :
    ∃ new taken rest p', LookupQueue.fill world allowance width branch begun p waiting =
        (⟨begun ++ new, rest⟩, p') ∧ waiting = taken ++ rest ∧
      List.Forall₂ (fun ending n => ending.IsAbout u allowance branch n) new taken ∧
      (begun.length < width → waiting ≠ [] → new ≠ []) := by
  induction waiting generalizing begun p with
  | nil => exact ⟨[], [], [], p, by simp [LookupQueue.fill], rfl, .nil, fun _ h => absurd rfl h⟩
  | cons n waiting ih =>
    rw [LookupQueue.fill]
    split
    · obtain ⟨new, taken, rest, p', hqueue, hwaiting, hnew, -⟩ := ih
        (begun ++ [allowance.ending p.now (.aclOf n branch) (world p.past (.aclOf n branch))])
        { p with past := .aclOf n branch :: p.past }
      refine ⟨_ :: new, n :: taken, rest, p', ?_, by rw [hwaiting, List.cons_append],
        .cons (h.outcome_ending allowance p.now p.past (.aclOf n branch)) hnew,
        fun _ _ => List.cons_ne_nil _ _⟩
      exact hqueue.trans (by rw [List.append_assoc, List.singleton_append])
    · next hroom => exact ⟨[], [], _, p, by simp, rfl, .nil, fun hlt => absurd hlt hroom⟩

theorem isAbout_fill (width : Nat) {queue : LookupQueue} {names : List PackageName}
    (hqueue : queue.IsAbout u allowance branch names) (p : Progress) :
    ∃ new rest p', LookupQueue.fill world allowance width branch queue.begun p queue.waiting =
        (⟨queue.begun ++ new, rest⟩, p') ∧
      LookupQueue.IsAbout ⟨queue.begun ++ new, rest⟩ u allowance branch names ∧
      (queue.begun.length < width → queue.waiting ≠ [] → new ≠ []) := by
  obtain ⟨begun, hbegun, rfl⟩ := hqueue
  obtain ⟨new, taken, rest, p', hfill, hwaiting, hnew, hroom⟩ :=
    h.fill allowance branch width queue.begun p queue.waiting
  refine ⟨new, rest, p', hfill, ⟨begun ++ taken, List.rel_append hbegun hnew, ?_⟩, hroom⟩
  rw [hwaiting, List.append_assoc]

theorem exists_start {queue : LookupQueue} {n : PackageName} {names : List PackageName}
    (hqueue : queue.IsAbout u allowance branch (n :: names)) (p : Progress) :
    ∃ first later waiting p', queue.start world allowance branch p =
        (⟨first :: later, waiting⟩, p') ∧
      LookupQueue.IsAbout ⟨first :: later, waiting⟩ u allowance branch (n :: names) := by
  obtain ⟨begun, waiting⟩ := queue
  cases begun with
  | cons first later => exact ⟨first, later, waiting, p, rfl, hqueue⟩
  | nil =>
    obtain ⟨new, rest, p', hfill, habout, hroom⟩ := h.isAbout_fill allowance branch 1 hqueue p
    have hwaiting : waiting ≠ [] := by
      rintro rfl
      obtain ⟨_, hnil, hnames⟩ := hqueue
      rw [List.forall₂_nil_left_iff.1 hnil] at hnames
      cases hnames
    obtain ⟨first, later, rfl⟩ := List.exists_cons_of_ne_nil (hroom Nat.one_pos hwaiting)
    exact ⟨first, later, rest, p', hfill, habout⟩

theorem exists_await (width time : Nat) {first : Ending (List String)}
    {later : List (Ending (List String))} {waiting names : List PackageName}
    (hqueue : LookupQueue.IsAbout ⟨first :: later, waiting⟩ u allowance branch names)
    (p : Progress) :
    ∃ later' waiting' p', LookupQueue.await world allowance width branch time
        ⟨first :: later, waiting⟩ p = (⟨first :: later', waiting'⟩, p') ∧
      LookupQueue.IsAbout ⟨first :: later', waiting'⟩ u allowance branch names := by
  unfold LookupQueue.await
  split
  · obtain ⟨new, rest, p', hfill, habout, -⟩ := h.isAbout_fill allowance branch width hqueue p
    rw [hfill]
    exact ⟨later ++ new, rest, _, rfl, habout⟩
  · exact ⟨later, waiting, p, rfl, hqueue⟩

theorem runLookups (width : Nat) (names : List PackageName) (queue : LookupQueue) (p : Progress)
    (hqueue : queue.IsAbout u allowance branch names) :
    allowance.Reaches (names.mapM fun n => u.reply (.aclOf n branch))
      (Program.runLookups world allowance width branch names.length queue p).1 := by
  induction names generalizing queue p with
  | nil => exact Or.inl rfl
  | cons n names ih =>
    obtain ⟨first, later, waiting, p₁, hstart, habout⟩ := h.exists_start allowance branch hqueue p
    obtain ⟨later', waiting', p₂, hawait, begun, hbegun, hnames⟩ :=
      h.exists_await allowance branch width first.time habout p₁
    obtain ⟨m, names', hfirst, hlater, rfl⟩ := List.forall₂_cons_left_iff.1 hbegun
    obtain ⟨rfl, rfl⟩ := List.cons.inj hnames
    have htail := ih ⟨later', waiting'⟩ p₂ ⟨names', hlater, rfl⟩
    rw [List.length_cons, Program.runLookups, hstart, List.mapM_cons]
    simp only [hawait]
    split
    · exact Or.inr ⟨_, rfl, .panicked⟩
    · rcases hfirst with hreply | ⟨stop, hstop, htime⟩
      · simp only [hreply]
        cases u.reply (.aclOf n branch) with
        | error e => exact Or.inl rfl
        | ok members =>
          rcases htail with htail | ⟨stop, hstop, htime⟩
          · refine Or.inl ?_
            simp only [mapError_ok, List.tail_cons, htail]
            generalize List.mapM (fun n => u.reply (.aclOf n branch)) _ = answers
            cases answers <;> rfl
          · exact Or.inr ⟨stop, by simp only [mapError_ok, List.tail_cons, hstop]; rfl, htime⟩
      · exact Or.inr ⟨stop, by simp only [hstop], htime⟩

/-- Over a world that takes its time a program ends as over the universe, or because of the time. -/
theorem run {α : Type} (program : Program α) (p : Progress) :
    allowance.Reaches (program.eval u) (program.run world allowance p).1 := by
  induction program generalizing p with
  | done a => exact Or.inl rfl
  | fail e => exact Or.inl rfl
  | ask c next ih =>
    rw [Program.run_ask, Program.eval_ask]
    rcases h.outcome_ending allowance p.now p.past c with hreply | ⟨stop, hstop, htime⟩
    · simp only [hreply]
      cases u.reply c with
      | error e => exact Or.inl rfl
      | ok answer => exact ih answer _
    · exact Or.inr ⟨stop, by simp only [hstop], htime⟩
  | lookups width names branch next ih =>
    rw [Program.run_lookups, Program.eval_lookups]
    have hlookups := h.runLookups allowance branch width names ⟨[], names⟩ p
      ⟨[], .nil, rfl⟩
    generalize Program.runLookups world allowance width branch names.length ⟨[], names⟩ p = x
      at hlookups ⊢
    obtain ⟨outcome, p'⟩ := x
    rcases hlookups with hreply | ⟨stop, hstop, htime⟩
    · obtain rfl : outcome = _ := hreply
      cases names.mapM fun n => u.reply (.aclOf n branch) with
      | error e => exact Or.inl rfl
      | ok answers => exact ih answers _
    · obtain rfl : outcome = _ := hstop
      exact Or.inr ⟨stop, rfl, htime⟩

end World.Follows

end BuildPlan
