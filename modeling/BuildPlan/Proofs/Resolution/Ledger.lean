import BuildPlan.Proofs.Closure.Completion
import BuildPlan.Proofs.Resolution.Calls

/-! # What a closure has asked

A closure grows in batches: what the newest members require is one call, and who provides it is
another one. Its ledger ties the two sets of what has been asked for to the calls that were made.
Each member is entered once, at the latest when the closure is completed.
-/
namespace BuildPlan

namespace Call

/-- The names of a call for what packages require. -/
def names? : Call → Option PackageSet
  | requirementsOf names _ _ => some names
  | _ => none

/-- The capabilities of a call for those who provide them. -/
def capabilities? : Call → Option CapabilitySet
  | providersOf capabilities _ _ => some capabilities
  | _ => none

/-- The calls for what some names require and for those who provide some capabilities. -/
def batch (scope : Scope) (reading : NameReading) (asSource : Bool) (names : PackageSet)
    (capabilities : CapabilitySet) : List Call :=
  (if names.isEmpty then [] else [requirementsOf names reading scope]) ++
    if capabilities.isEmpty then [] else [providersOf capabilities scope asSource]

variable {scope : Scope} {reading : NameReading} {asSource : Bool} {names : PackageSet}
  {capabilities : CapabilitySet}

theorem names?_batch : (batch scope reading asSource names capabilities).filterMap names? =
    if names.isEmpty then [] else [names] := by
  unfold batch
  split <;> split <;> rfl

theorem capabilities?_batch :
    (batch scope reading asSource names capabilities).filterMap capabilities? =
      if capabilities.isEmpty then [] else [capabilities] := by
  unfold batch
  split <;> split <;> rfl

theorem batch_eq_nil (hnames : names.isEmpty = true) (hcapabilities : capabilities.isEmpty = true) :
    batch scope reading asSource names capabilities = [] := by
  rw [batch, if_pos hnames, if_pos hcapabilities, List.append_nil]

theorem concerns_of_mem_batch {c : Call}
    (h : c ∈ batch scope reading asSource names capabilities) : c.Concerns scope := by
  unfold batch at h
  rcases List.mem_append.1 h with h | h
  · split at h
    · cases h
    · next hne =>
      obtain rfl := List.mem_singleton.1 h
      exact .requirementsOf (Bool.eq_false_iff.2 hne)
  · split at h
    · cases h
    · next hne =>
      obtain rfl := List.mem_singleton.1 h
      exact .providersOf (Bool.eq_false_iff.2 hne)

end Call

namespace Program

variable (u : Universe)

theorem calls_requirementsOf (names : PackageSet) (reading : NameReading) (scope : Scope) :
    (Program.requirementsOf names reading scope).calls u =
      if names.isEmpty then [] else [.requirementsOf names reading scope] := by
  unfold Program.requirementsOf
  split
  · rfl
  · exact calls_call u _

theorem calls_providersOf (capabilities : CapabilitySet) (scope : Scope) (asSource : Bool) :
    (Program.providersOf capabilities scope asSource).calls u =
      if capabilities.isEmpty then [] else [.providersOf capabilities scope asSource] := by
  unfold Program.providersOf
  split
  · rfl
  · exact calls_call u _

end Program

section Sets

variable {α : Type} [Ord α] [Std.TransOrd α] [Std.LawfulEqOrd α]

theorem exists_mem_singleton_iff {s : Std.ExtTreeSet α} {a : α} :
    (∃ t ∈ (if s.isEmpty then [] else [s]), a ∈ t) ↔ a ∈ s := by
  split
  · next hempty => simp [isEmpty_iff_forall_notMem.1 hempty a]
  · simp

end Sets

namespace Expansion

/-- The calls of a round for what the newest members need. -/
def roundCalls (x : Expansion) (index : BranchIndex) (reading : NameReading)
    (frontier : PackageSet) : List Call :=
  Call.batch x.scope reading x.asSource frontier
    (SetMap.range (index.requirementsOf frontier reading x.scope))

/-- The calls that the last round of a half step makes on the side. -/
def sideCalls (x : Expansion) (u : Universe) (last : Bool) (frontier : PackageSet) : List Call :=
  if x.halfStep && last then (x.sourceProviders frontier).calls u else []

end Expansion

namespace Closure

variable {u : Universe} {index : BranchIndex} {scope : Scope} {reading : NameReading}
  {asSource : Bool} {c : Closure} {calls : List Call} {frontier : PackageSet} {batches : Nat}

/-- The calls behind what a closure has asked for. No name is in two of them. -/
structure Accounts (c : Closure) (scope : Scope) (calls : List Call) : Prop where
  mem_expanded : ∀ n, n ∈ c.expanded ↔ ∃ names ∈ calls.filterMap Call.names?, n ∈ names
  mem_queried : ∀ a, a ∈ c.queried ↔
    ∃ capabilities ∈ calls.filterMap Call.capabilities?, a ∈ capabilities
  disjoint : (calls.filterMap Call.names?).Pairwise fun s t => ∀ n ∈ s, n ∉ t
  concerns : ∀ call ∈ calls, call.Concerns scope

theorem Accounts.batch (h : c.Accounts scope calls) {names : PackageSet}
    (hnew : ∀ n ∈ names, n ∉ c.expanded) (requirements : Requirements)
    (capabilities : CapabilitySet) (providers : Providers) :
    ((c.recordRequirements names requirements).recordProviders capabilities providers).Accounts
      scope (calls ++ Call.batch scope reading asSource names capabilities) where
  mem_expanded n := by
    rw [List.filterMap_append, Call.names?_batch]
    simp only [List.mem_append, or_and_right, exists_or, exists_mem_singleton_iff,
      ← h.mem_expanded]
    exact Std.ExtTreeSet.mem_union_iff
  mem_queried a := by
    rw [List.filterMap_append, Call.capabilities?_batch]
    simp only [List.mem_append, or_and_right, exists_or, exists_mem_singleton_iff,
      ← h.mem_queried]
    exact Std.ExtTreeSet.mem_union_iff
  disjoint := by
    rw [List.filterMap_append, Call.names?_batch, List.pairwise_append]
    refine ⟨h.disjoint, by split <;> simp, ?_⟩
    intro s hs t ht n hn hnt
    have hold := (h.mem_expanded n).2 ⟨s, hs, hn⟩
    exact hnew n (exists_mem_singleton_iff.1 ⟨t, ht, hnt⟩) hold
  concerns call hcall := by
    rcases List.mem_append.1 hcall with hcall | hcall
    · exact h.concerns call hcall
    · exact Call.concerns_of_mem_batch hcall

/-- A closure between two rounds, with the calls that it has made: its newest members are those that
have not been asked about, everything that it knows of has been, and there was a batch for each
round at most. -/
structure Ledger (c : Closure) (scope : Scope) (frontier : PackageSet) (batches : Nat)
    (calls : List Call) : Prop extends c.Accounts scope calls where
  mem_frontier : ∀ n, n ∈ frontier ↔ n ∈ c.members ∧ n ∉ c.expanded
  mem_of_expanded : ∀ n ∈ c.expanded, n ∈ c.members
  mem_range : ∀ a ∈ SetMap.range c.requirements, a ∈ c.queried
  names_le : (calls.filterMap Call.names?).length ≤ batches
  capabilities_le : (calls.filterMap Call.capabilities?).length ≤ batches

theorem ledger_ofSeeds (seeds : PackageSet) : (ofSeeds seeds).Ledger scope seeds 0 [] where
  mem_expanded n := by simp [ofSeeds]
  mem_queried a := by simp [ofSeeds]
  disjoint := .nil
  concerns _ h := by cases h
  mem_frontier n := by
    have hmembers : n ∈ (ofSeeds seeds).members ↔ n ∈ seeds := by
      simp [mem_members, getElem?_levels_ofSeeds]
    rw [hmembers]
    simp [ofSeeds]
  mem_of_expanded n h := by simp [ofSeeds] at h
  mem_range a h := by simp [ofSeeds, SetMap.mem_range, SetMap.values] at h
  names_le := le_rfl
  capabilities_le := le_rfl

theorem Accounts.absorb (h : c.Accounts scope calls) (names : PackageSet) (level : Nat) :
    (c.absorb names level).Accounts scope calls :=
  ⟨h.mem_expanded, h.mem_queried, h.disjoint, h.concerns⟩

theorem length_names?_append_batch {names : PackageSet} {capabilities : CapabilitySet} :
    ((calls ++ Call.batch scope reading asSource names capabilities).filterMap Call.names?).length ≤
      (calls.filterMap Call.names?).length + 1 := by
  rw [List.filterMap_append, Call.names?_batch, List.length_append]
  split <;> simp

theorem length_capabilities?_append_batch {names : PackageSet} {capabilities : CapabilitySet} :
    ((calls ++ Call.batch scope reading asSource names capabilities).filterMap
      Call.capabilities?).length ≤ (calls.filterMap Call.capabilities?).length + 1 := by
  rw [List.filterMap_append, Call.capabilities?_batch, List.length_append]
  split <;> simp

theorem Ledger.round {x : Expansion} (h : c.Ledger x.scope frontier batches calls)
    (found : PackageSet) (level : Nat) :
    let c' := x.learn index reading frontier c
    (c'.absorb (c'.fresh found) level).Ledger x.scope (c'.fresh found) (batches + 1)
      (calls ++ x.roundCalls index reading frontier) := by
  intro c'
  have hexpanded : ∀ n, n ∈ c'.expanded ↔ n ∈ c.members := by
    intro n
    have hunion : n ∈ c'.expanded ↔ n ∈ c.expanded ∨ n ∈ frontier := Std.ExtTreeSet.mem_union_iff
    rw [hunion, h.mem_frontier]
    have := h.mem_of_expanded n
    tauto
  have hnew : ∀ n ∈ frontier, n ∉ c.expanded := fun n hn => ((h.mem_frontier n).1 hn).2
  constructor
  case toAccounts => exact (h.batch hnew _ _ _).absorb _ _
  case mem_frontier =>
    intro n
    have hfresh : n ∈ c'.fresh found → n ∉ c.members := by
      intro hn hmem
      obtain ⟨k, hk⟩ := mem_members.1 hmem
      have hnone : c'.levels[n]? = none := (mem_fresh.1 hn).2
      rw [Expansion.levels_learn, hk] at hnone
      cases hnone
    rw [mem_members_absorb, Expansion.members_learn]
    have := hexpanded n
    tauto
  case mem_of_expanded =>
    intro n hn
    rw [mem_members_absorb, Expansion.members_learn]
    exact Or.inr ((hexpanded n).1 hn)
  case mem_range =>
    intro a ha
    obtain ⟨n, ha⟩ := SetMap.mem_range.1 ha
    apply Std.ExtTreeSet.mem_union_iff.2
    rcases SetMap.mem_values_union.1 ha with ha | ⟨-, ha⟩
    · exact Or.inr (SetMap.mem_range.2 ⟨n, ha⟩)
    · exact Or.inl (h.mem_range a (SetMap.mem_range.2 ⟨n, ha⟩))
  case names_le => exact length_names?_append_batch.trans (Nat.succ_le_succ h.names_le)
  case capabilities_le =>
    exact length_capabilities?_append_batch.trans (Nat.succ_le_succ h.capabilities_le)

theorem Ledger.mono (h : c.Ledger scope frontier batches calls) {batches' : Nat}
    (hle : batches ≤ batches') : c.Ledger scope frontier batches' calls :=
  { h with
    names_le := h.names_le.trans hle
    capabilities_le := h.capabilities_le.trans hle }

/-! ### Completion -/

/-- The calls for what is still missing from a closure. -/
def lastBatch (c : Closure) (index : BranchIndex) (scope : Scope) (reading : NameReading)
    (asSource : Bool) : List Call :=
  let pending := c.members \ c.expanded
  let requirements := c.requirements ∪ index.requirementsOf pending reading scope
  Call.batch scope reading asSource pending (SetMap.range requirements \ c.queried)

namespace Ledger

variable (h : c.Ledger scope frontier batches calls)
include h

theorem accounts_completed (index : BranchIndex) (reading : NameReading) (asSource : Bool) :
    (c.completed index scope reading asSource).Accounts scope
      (calls ++ c.lastBatch index scope reading asSource) :=
  h.batch (fun _ hn => (Std.ExtTreeSet.mem_diff_iff.1 hn).2) _ _ _

theorem mem_members_iff {n : PackageName} : n ∈ c.members ↔
    ∃ names ∈ (calls ++ c.lastBatch index scope reading asSource).filterMap Call.names?,
      n ∈ names := by
  rw [← (h.accounts_completed index reading asSource).mem_expanded]
  constructor
  · exact mem_expanded_completed
  · intro hn
    rcases Std.ExtTreeSet.mem_union_iff.1 hn with hn | hn
    · exact h.mem_of_expanded n hn
    · exact (Std.ExtTreeSet.mem_diff_iff.1 hn).1

theorem exists_capabilities {a : Capability}
    (ha : a ∈ SetMap.range (c.completed index scope reading asSource).requirements) :
    ∃ capabilities ∈ (calls ++ c.lastBatch index scope reading asSource).filterMap
      Call.capabilities?, a ∈ capabilities := by
  have haccounts := h.accounts_completed index reading asSource
  exact (haccounts.mem_queried a).1 (mem_queried_completed ha)

theorem notMem_of_lastBatch {capabilities : CapabilitySet}
    (hcapabilities : capabilities ∈
      (c.lastBatch index scope reading asSource).filterMap Call.capabilities?)
    {a : Capability} (ha : a ∈ capabilities) :
    ∀ earlier ∈ calls.filterMap Call.capabilities?, a ∉ earlier := by
  intro earlier hearlier hmem
  have hold := (h.mem_queried a).2 ⟨earlier, hearlier, hmem⟩
  rw [lastBatch, Call.capabilities?_batch] at hcapabilities
  have hnew := exists_mem_singleton_iff.1 ⟨capabilities, hcapabilities, ha⟩
  exact (Std.ExtTreeSet.mem_diff_iff.1 hnew).2 hold

theorem lastBatch_eq_nil (hempty : frontier.isEmpty = true) :
    c.lastBatch index scope reading asSource = [] := by
  have hpending : ∀ n, n ∉ c.members \ c.expanded := by
    intro n hn
    have hfrontier := (h.mem_frontier n).2 (Std.ExtTreeSet.mem_diff_iff.1 hn)
    exact isEmpty_iff_forall_notMem.1 hempty n hfrontier
  apply Call.batch_eq_nil
  · exact isEmpty_iff_forall_notMem.2 hpending
  · apply isEmpty_iff_forall_notMem.2
    intro a ha
    obtain ⟨ha, hnew⟩ := Std.ExtTreeSet.mem_diff_iff.1 ha
    obtain ⟨n, ha⟩ := SetMap.mem_range.1 ha
    rcases SetMap.mem_values_union.1 ha with ha | ⟨-, ha⟩
    · exact hpending n (SetMap.mem_values_tabulate.1 ha).1
    · exact hnew (h.mem_range a (SetMap.mem_range.2 ⟨n, ha⟩))

end Ledger

/-! ### The calls of a closure -/

variable (hbranch : u.branch scope.branch = .ok index)
include hbranch

theorem calls_discover (c : Closure) (reading : NameReading) (asSource : Bool)
    (frontier : PackageSet) : (c.discover scope reading asSource frontier).calls u =
      Call.batch scope reading asSource frontier
        (SetMap.range (index.requirementsOf frontier reading scope)) := by
  rw [discover, Program.calls_bind u (Program.eval_requirementsOf hbranch ..)]
  dsimp only
  rw [Program.calls_bind u (Program.eval_providersOf hbranch ..), Program.calls_pure,
    List.append_nil, Program.calls_requirementsOf, Program.calls_providersOf, Call.batch]

theorem calls_complete (c : Closure) (reading : NameReading) (asSource : Bool) :
    (c.complete scope reading asSource).calls u = c.lastBatch index scope reading asSource := by
  rw [complete]
  dsimp only
  rw [Program.calls_bind u (Program.eval_requirementsOf hbranch ..),
    Program.calls_bind u (Program.eval_providersOf hbranch ..), Program.calls_pure,
    List.append_nil, Program.calls_requirementsOf, Program.calls_providersOf]
  rfl

end Closure

namespace Expansion

variable {u : Universe} {index : BranchIndex} {x : Expansion} {seeds frontier : PackageSet}
  (hbranch : u.branch x.scope.branch = .ok index)
include hbranch

theorem calls_sourceProviders (frontier : PackageSet) : (x.sourceProviders frontier).calls u =
    Call.batch (x.scope.withDependencyType .source) .source true frontier
      (SetMap.range
        (index.requirementsOf frontier .source (x.scope.withDependencyType .source))) := by
  have hside : u.branch (x.scope.withDependencyType .source).branch = .ok index := hbranch
  rw [sourceProviders, Program.calls_bind u (Program.eval_requirementsOf hside ..),
    Program.calls_bind u (Program.eval_providersOf hside ..), Program.calls_pure,
    List.append_nil, Program.calls_requirementsOf, Program.calls_providersOf, Call.batch]

theorem calls_sourceProviders_of_isEmpty (hempty : frontier.isEmpty = true) :
    (x.sourceProviders frontier).calls u = [] := by
  rw [calls_sourceProviders hbranch]
  apply Call.batch_eq_nil hempty
  apply isEmpty_iff_forall_notMem.2
  intro a ha
  obtain ⟨n, hn, -⟩ := BranchIndex.mem_range_requirementsOf.1 ha
  exact isEmpty_iff_forall_notMem.1 hempty n hn

theorem calls_candidates (reading : NameReading) (last : Bool) (frontier : PackageSet)
    (c : Closure) : (x.candidates reading last frontier c).calls u =
      x.roundCalls index reading frontier ++ x.sideCalls u last frontier := by
  rw [candidates, Program.calls_bind u (eval_discover hbranch ..),
    Closure.calls_discover hbranch, roundCalls, sideCalls]
  dsimp only
  split
  · rw [Program.calls_bind u (eval_sourceProviders hbranch frontier), Program.calls_pure,
      List.append_nil]
  · rfl

/-! ### All rounds -/

/-- A closure between its rounds, of which some are left: the calls so far are those of its ledger,
and then those that a half step makes on the side in its last round. -/
structure Asks (x : Expansion) (u : Universe) (index : BranchIndex) (seeds : PackageSet)
    (rounds left : Nat) (reading : NameReading) (level : Nat) (frontier : PackageSet) (c : Closure)
    (main side : List Call) : Prop where
  level_add : level + left = rounds + 2
  stands : x.Stands index seeds (rounds + 1) reading level frontier c
  ledger : c.Ledger x.scope frontier (rounds - left) main
  side_eq_nil : 0 < left ∨ x.halfStep = false → side = []
  exists_newest : left = 0 → x.halfStep = true → 0 < rounds → ∃ newest : PackageSet,
    (∀ n, n ∈ newest ↔ c.levels[n]? = some rounds) ∧ side = (x.sourceProviders newest).calls u

omit hbranch in
theorem asks_ofSeeds (rounds : Nat) :
    x.Asks u index seeds rounds rounds x.seedReading 2 seeds (.ofSeeds seeds) [] [] where
  level_add := Nat.add_comm 2 rounds
  stands := stands_ofSeeds
  ledger := by
    rw [Nat.sub_self]
    exact Closure.ledger_ofSeeds seeds
  side_eq_nil _ := rfl
  exists_newest hleft _ hpos := by omega

omit hbranch in
theorem Asks.round {rounds left level : Nat} {reading : NameReading} {c : Closure}
    {main side : List Call}
    (h : x.Asks u index seeds rounds (left + 1) reading level frontier c main side) :
    let c' := x.learn index reading frontier c
    let fresh := c'.fresh (x.pruned index reading (left == 0) frontier)
    x.Asks u index seeds rounds left x.reading (level + 1) fresh (c'.absorb fresh level)
      (main ++ x.roundCalls index reading frontier) (x.sideCalls u (left == 0) frontier) := by
  intro c' fresh
  have hadd := h.level_add
  have hge := h.stands.level_ge
  have hlast : (left == 0) = (level == rounds + 1) := by
    rw [Bool.eq_iff_iff, beq_iff_eq, beq_iff_eq]
    omega
  have hstands : x.Stands index seeds (rounds + 1) x.reading (level + 1) fresh
      (c'.absorb fresh level) := by
    simp only [fresh, hlast]
    exact h.stands.round (by omega)
  constructor
  case level_add => omega
  case stands => exact hstands
  case ledger =>
    have hbatches : rounds - left = rounds - (left + 1) + 1 := by omega
    rw [hbatches]
    exact h.ledger.round (x.pruned index reading (left == 0) frontier) level
  case side_eq_nil =>
    intro hside
    have hnot : (x.halfStep && left == 0) = false := by
      rcases hside with hleft | hhalf
      · simp [hleft.ne']
      · simp [hhalf]
    simp [sideCalls, hnot]
  case exists_newest =>
    intro hleft hhalf hpos
    refine ⟨frontier, ?_, by simp [sideCalls, hleft, hhalf]⟩
    intro n
    have hlevel : level - 1 = rounds := by omega
    rw [h.stands.mem_frontier, hstands.level_iff, hlevel]
    exact (and_iff_right (by omega)).symm

/-- The calls of a closure that has grown: a batch for each round at most, and then what a half step
asks on the side about the level before the last. -/
theorem exists_ledger (rounds : Nat) (seeds : PackageSet) : ∃ c frontier main side,
    (x.closure rounds seeds).eval u = .ok c ∧ (x.closure rounds seeds).calls u = main ++ side ∧
      c.Ledger x.scope frontier rounds main ∧
      (∀ n ∈ frontier, c.levels[n]? = some (rounds + 1)) ∧
      (x.halfStep = false → side = []) ∧
      (x.halfStep = true → 0 < rounds → ∃ newest : PackageSet,
        (∀ n, n ∈ newest ↔ c.levels[n]? = some rounds) ∧
          side = (x.sourceProviders newest).calls u) := by
  let P (left : Nat) (reading : NameReading) (level : Nat) (frontier : PackageSet) (c : Closure)
      (calls : List Call) := ∃ main side, calls = main ++ side ∧
    x.Asks u index seeds rounds left reading level frontier c main side
  have hround : ∀ left reading level frontier c calls, P (left + 1) reading level frontier c calls →
      ∃ c' found, (x.candidates reading (left == 0) frontier c).eval u = .ok (c', found) ∧
        P left x.reading (level + 1) (c'.fresh found) (c'.absorb (c'.fresh found) level)
          (calls ++ (x.candidates reading (left == 0) frontier c).calls u) := by
    rintro left reading level frontier c _ ⟨main, side, rfl, hasks⟩
    refine ⟨_, _, eval_candidates hbranch .., _, _, ?_, hasks.round⟩
    rw [calls_candidates hbranch, hasks.side_eq_nil (Or.inl left.succ_pos), List.append_nil,
      List.append_assoc]
  obtain ⟨c, left, reading, level, frontier, heval, ⟨main, side, hcalls, hasks⟩, hend⟩ :=
    exists_calls_grow hround rounds x.seedReading 2 seeds (.ofSeeds seeds) []
      ⟨[], [], rfl, asks_ofSeeds rounds⟩
  have hadd := hasks.level_add
  have hge := hasks.stands.level_ge
  have hledger : c.Ledger x.scope frontier rounds main :=
    hasks.ledger.mono (Nat.sub_le rounds left)
  refine ⟨c, frontier, main, side, heval, hcalls, hledger, ?_, ?_, ?_⟩
  · intro n hn
    rcases hend with hleft | hempty
    · have hlevel : level - 1 = rounds + 1 := by omega
      apply (hasks.stands.level_iff n _).2
      exact ⟨by omega, hlevel ▸ (hasks.stands.mem_frontier n).1 hn⟩
    · exact absurd hn (isEmpty_iff_forall_notMem.1 hempty n)
  · exact fun hhalf => hasks.side_eq_nil (Or.inr hhalf)
  · intro hhalf hpos
    by_cases hleft : left = 0
    · exact hasks.exists_newest hleft hhalf hpos
    · have hempty := hend.resolve_left hleft
      refine ⟨frontier, fun n => ?_, ?_⟩
      · apply iff_of_false (isEmpty_iff_forall_notMem.1 hempty n)
        intro hn
        obtain ⟨hlt, hin⟩ := (hasks.stands.level_iff n _).1 hn
        have hlevel : rounds = level - 1 := by omega
        have hfrontier := (hasks.stands.mem_frontier n).2 (hlevel ▸ hin)
        exact isEmpty_iff_forall_notMem.1 hempty n hfrontier
      · rw [calls_sourceProviders_of_isEmpty hbranch hempty]
        exact hasks.side_eq_nil (Or.inl (by omega))

end Expansion

end BuildPlan
