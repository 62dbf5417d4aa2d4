import BuildPlan.Proofs.Closure.Growth

/-! # How many rounds a closure grows

A closure may grow for as long as it finds something new, with no count of rounds to stop it. It
stops all the same: every round but the last one takes in a name that it did not hold, and there are
only so many names to be found. A count that is large enough for these rounds makes no difference.
-/
namespace BuildPlan

namespace Closure

variable {c : Closure} {seeds : PackageSet}

theorem members_ofSeeds : (ofSeeds seeds).members = seeds := by
  apply Std.ExtTreeSet.ext_mem
  intro n
  simp [mem_members, getElem?_levels_ofSeeds]

theorem size_left_absorb_lt {names fresh : PackageSet} (level : Nat)
    (hnames : ∀ n ∈ fresh, n ∈ names) (hnew : ∀ n ∈ fresh, n ∉ c.members)
    (hfresh : fresh.isEmpty = false) :
    (names \ (c.absorb fresh level).members).size < (names \ c.members).size := by
  obtain ⟨n, hn⟩ : ∃ n, n ∈ fresh := by
    by_contra hnone
    rw [not_exists] at hnone
    rw [isEmpty_iff_forall_notMem.2 hnone] at hfresh
    cases hfresh
  refine size_lt_size (b := n) (fun m hm => ?_) (fun hleft => ?_) ?_
  · rw [Std.ExtTreeSet.mem_diff_iff, mem_members_absorb, not_or] at hm
    exact Std.ExtTreeSet.mem_diff_iff.2 ⟨hm.1, hm.2.2⟩
  · exact (Std.ExtTreeSet.mem_diff_iff.1 hleft).2 (mem_members_absorb.2 (.inl hn))
  · exact Std.ExtTreeSet.mem_diff_iff.2 ⟨hnames n hn, hnew n hn⟩

theorem lt_of_levels_absorb {fresh : PackageSet} {level bound : Nat}
    (hlevels : ∀ (n : PackageName) k, c.levels[n]? = some k → k < bound)
    (hfresh : ∀ n ∈ fresh, level < bound) (n : PackageName) (k : Nat)
    (h : (c.absorb fresh level).levels[n]? = some k) : k < bound := by
  rw [getElem?_levels_absorb] at h
  split at h
  · next hn =>
    obtain rfl := Option.some.inj h
    exact hfresh n hn
  · exact hlevels n k h

end Closure

namespace Expansion

/-- How a closure ends that grows from its newest members until there are none or a call fails, and
after how many rounds. -/
inductive GrowsFor (x : Expansion) (u : Universe) :
    Nat → NameReading → Nat → PackageSet → Closure → Except ResolveError Closure → Prop where
  | done {reading : NameReading} {level : Nat} {frontier : PackageSet} {c : Closure} :
    frontier.isEmpty = true → x.GrowsFor u 0 reading level frontier c (.ok c)
  | fail {reading : NameReading} {level : Nat} {frontier : PackageSet} {c : Closure}
      {e : ResolveError} :
    frontier.isEmpty = false → (x.candidates reading false frontier c).eval u = .error e →
      x.GrowsFor u 1 reading level frontier c (.error e)
  | round {rounds : Nat} {reading : NameReading} {level : Nat} {frontier found : PackageSet}
      {c c' : Closure} {ending : Except ResolveError Closure} :
    frontier.isEmpty = false →
      (x.candidates reading false frontier c).eval u = .ok (c', found) →
      x.GrowsFor u rounds x.reading (level + 1) (c'.fresh found)
        (c'.absorb (c'.fresh found) level) ending →
      x.GrowsFor u (rounds + 1) reading level frontier c ending

variable {u : Universe} {index : BranchIndex} {x : Expansion} {reading : NameReading}
  {level rounds : Nat} {frontier seeds : PackageSet} {c : Closure}
  {ending : Except ResolveError Closure}

theorem candidates_last (hhalf : x.halfStep = false) (last : Bool) :
    x.candidates reading last frontier c = x.candidates reading false frontier c := by
  simp [candidates, hhalf]

theorem GrowsFor.eval_grow (hhalf : x.halfStep = false)
    (h : x.GrowsFor u rounds reading level frontier c ending) {count : Nat}
    (hcount : rounds ≤ count) : (x.grow count reading level frontier c).eval u = ending := by
  induction h generalizing count with
  | done hempty =>
    cases count with
    | zero => rfl
    | succ count => rw [grow, if_pos hempty, Program.eval_pure]
  | fail hfrontier herror =>
    obtain ⟨count, rfl⟩ := Nat.exists_eq_add_one_of_ne_zero (Nat.pos_iff_ne_zero.1 hcount)
    rw [grow, if_neg (Bool.not_eq_true _ ▸ hfrontier), Program.eval_bind, candidates_last hhalf,
      herror]
    rfl
  | round hfrontier heval _ ih =>
    obtain ⟨count, rfl⟩ := Nat.exists_eq_add_one_of_ne_zero
      (Nat.pos_iff_ne_zero.1 (Nat.lt_of_lt_of_le (Nat.succ_pos _) hcount))
    rw [grow, if_neg (Bool.not_eq_true _ ▸ hfrontier), Program.eval_bind, candidates_last hhalf,
      heval]
    exact ih (Nat.le_of_succ_le_succ hcount)

theorem GrowsFor.unique (h : x.GrowsFor u rounds reading level frontier c ending) {rounds' : Nat}
    {ending' : Except ResolveError Closure}
    (h' : x.GrowsFor u rounds' reading level frontier c ending') :
    rounds' = rounds ∧ ending' = ending := by
  induction h generalizing rounds' with
  | done hempty =>
    cases h' with
    | done _ => exact ⟨rfl, rfl⟩
    | fail hfrontier _ | round hfrontier _ _ => exact absurd (hempty.symm.trans hfrontier) nofun
  | fail hfrontier herror =>
    cases h' with
    | done hempty => exact absurd (hempty.symm.trans hfrontier) nofun
    | fail _ herror' => exact ⟨rfl, congrArg _ (Except.error.inj (herror'.symm.trans herror))⟩
    | round _ heval _ => exact absurd (herror.symm.trans heval) nofun
  | round hfrontier heval _ ih =>
    cases h' with
    | done hempty => exact absurd (hempty.symm.trans hfrontier) nofun
    | fail _ herror => exact absurd (herror.symm.trans heval) nofun
    | round _ heval' hgrows =>
      obtain ⟨rfl, rfl⟩ := Prod.mk.inj (Except.ok.inj (heval'.symm.trans heval))
      exact (ih hgrows).imp_left (congrArg (· + 1))

section Finite

variable (hbranch : u.branch x.scope.branch = .ok index) {names : PackageSet}
  (hnames : ∀ reading frontier, ∀ n ∈ x.found index reading frontier, n ∈ names)
include hbranch hnames

theorem exists_round (reading : NameReading) (frontier : PackageSet) (c : Closure) :
    ∃ c' found, (x.candidates reading false frontier c).eval u = .ok (c', found) ∧
      c'.levels = c.levels ∧ ∀ n ∈ found, n ∈ names := by
  refine ⟨_, _, eval_candidates hbranch .., rfl, fun n hn => ?_⟩
  exact hnames reading frontier n (mem_pruned.1 hn).1

/-- The growth takes at most one round more than there are names left to be found, and goes as many
levels further at most. -/
theorem exists_growsFor (reading : NameReading) (level : Nat) (frontier : PackageSet) (c : Closure)
    (hlevels : ∀ (n : PackageName) k, c.levels[n]? = some k → k < level) :
    ∃ rounds ≤ 1 + (names \ c.members).size, ∃ c',
      x.GrowsFor u rounds reading level frontier c (.ok c') ∧
        ∀ (n : PackageName) k, c'.levels[n]? = some k → k < level + (names \ c.members).size := by
  induction hleft : (names \ c.members).size using Nat.strong_induction_on
    generalizing reading level frontier c with
  | _ left ih =>
    cases hfrontier : frontier.isEmpty with
    | true =>
      exact ⟨0, Nat.zero_le _, c, .done hfrontier,
        fun n k hk => (hlevels n k hk).trans_le (Nat.le_add_right ..)⟩
    | false =>
      obtain ⟨c₁, found, heval, hsame, hfound⟩ := exists_round hbranch hnames reading frontier c
      rw [← hsame] at hlevels
      have hmembers : c₁.members = c.members := by rw [Closure.members, hsame, ← Closure.members]
      cases hfresh : (c₁.fresh found).isEmpty with
      | true =>
        have hnone := isEmpty_iff_forall_notMem.1 hfresh
        refine ⟨1, Nat.le_add_right .., _, .round hfrontier heval (.done hfresh), fun n k hk => ?_⟩
        have := Closure.lt_of_levels_absorb hlevels (fun n hn => absurd hn (hnone n)) n k hk
        omega
      | false =>
        have hlt : (names \ (c₁.absorb (c₁.fresh found) level).members).size < left := by
          rw [← hleft, ← hmembers]
          refine Closure.size_left_absorb_lt level (fun n hn => ?_) (fun n hn => ?_) hfresh
          · exact hfound n (Closure.mem_fresh.1 hn).1
          · simp [Closure.mem_members, (Closure.mem_fresh.1 hn).2]
        obtain ⟨rounds, hrounds, c', hgrows, hbound⟩ := ih _ hlt x.reading (level + 1) _ _
          (Closure.lt_of_levels_absorb (fun n k hk => (hlevels n k hk).trans level.lt_succ_self)
            fun _ _ => level.lt_succ_self) rfl
        refine ⟨rounds + 1, by omega, c', .round hfrontier heval hgrows, fun n k hk => ?_⟩
        have := hbound n k hk
        omega

theorem exists_growsFor_ofSeeds (seeds : PackageSet) :
    ∃ rounds ≤ 1 + (names \ seeds).size, ∃ c,
      x.GrowsFor u rounds x.seedReading 2 seeds (.ofSeeds seeds) (.ok c) ∧
        ∀ (n : PackageName) k, c.levels[n]? = some k → k ≤ 1 + (names \ seeds).size := by
  have hlevels : ∀ (n : PackageName) k, (Closure.ofSeeds seeds).levels[n]? = some k → k < 2 := by
    intro n k hk
    rw [(Closure.getElem?_levels_ofSeeds.1 hk).2]
    decide
  obtain ⟨rounds, hrounds, c, hgrows, hbound⟩ :=
    exists_growsFor hbranch hnames x.seedReading 2 seeds (.ofSeeds seeds) hlevels
  rw [Closure.members_ofSeeds] at hrounds hbound
  refine ⟨rounds, hrounds, c, hgrows, fun n k hk => ?_⟩
  have := hbound n k hk
  omega

end Finite

theorem exists_growsFor_of_error {e : UniverseError} (h : u.branch x.scope.branch = .error e)
    (reading : NameReading) (level : Nat) (frontier : PackageSet) (c : Closure) :
    ∃ rounds ≤ 1, ∃ ending, x.GrowsFor u rounds reading level frontier c ending ∧
      (ending = .ok c ∨ ending = .error (.accessor e)) := by
  cases hfrontier : frontier.isEmpty with
  | true => exact ⟨0, Nat.zero_le 1, _, .done hfrontier, .inl rfl⟩
  | false =>
    exact ⟨1, le_rfl, _,
      .fail hfrontier (eval_candidates_of_error h reading false hfrontier c), .inr rfl⟩

end Expansion

end BuildPlan
