import BuildPlan.Proofs.Closure.Completion
import BuildPlan.Proofs.Closure.Growth

/-! # What closures know

A closure notes the answers that it gets on its way. They are true, and complete about everything
that has been asked: each member once by its own reading, and each capability that a member
requires. So the graph of a completed closure has exactly the arrows that the index tells of,
however the closure has grown.
-/
namespace BuildPlan

namespace Closure

/-- What a closure has noted is what the index answers, with nothing left out where it has asked. -/
structure Knows (index : BranchIndex) (scope : Scope) (asSource : Bool)
    (readingOf : PackageName → NameReading) (c : Closure) : Prop where
  requirements_sound : ∀ n a, a ∈ SetMap.values c.requirements n →
    a ∈ index.requirementsOfName (readingOf n) scope n
  requirements_complete : ∀ n ∈ c.expanded, ∀ a ∈ index.requirementsOfName (readingOf n) scope n,
    a ∈ SetMap.values c.requirements n
  providers_sound : ∀ a m, m ∈ SetMap.values c.providers a →
    m ∈ index.providersOfCapability scope asSource a
  providers_complete : ∀ a ∈ c.queried, ∀ m ∈ index.providersOfCapability scope asSource a,
    m ∈ SetMap.values c.providers a

variable {index : BranchIndex} {scope : Scope} {reading : NameReading} {asSource : Bool}
  {readingOf : PackageName → NameReading} {c : Closure}

theorem knows_ofSeeds (seeds : PackageSet) :
    (ofSeeds seeds).Knows index scope asSource readingOf where
  requirements_sound n a h := by simp [ofSeeds, SetMap.values] at h
  requirements_complete n h := by simp [ofSeeds] at h
  providers_sound a m h := by simp [ofSeeds, SetMap.values] at h
  providers_complete a h := by simp [ofSeeds] at h

namespace Knows

variable (h : c.Knows index scope asSource readingOf)
include h

theorem recordRequirements {asked : PackageSet} (hreading : ∀ n ∈ asked, reading = readingOf n) :
    (c.recordRequirements asked (index.requirementsOf asked reading scope)).Knows index scope
      asSource readingOf where
  requirements_sound n a ha := by
    rcases SetMap.mem_values_union.1 ha with ha | ⟨-, ha⟩
    · obtain ⟨hn, ha⟩ := SetMap.mem_values_tabulate.1 ha
      rwa [← hreading n hn]
    · exact h.requirements_sound n a ha
  requirements_complete n hn a ha := by
    refine SetMap.mem_values_union.2 ?_
    by_cases hasked : n ∈ asked
    · exact Or.inl (SetMap.mem_values_tabulate.2 ⟨hasked, by rwa [hreading n hasked]⟩)
    · have hold : n ∈ c.expanded := (Std.ExtTreeSet.mem_union_iff.1 hn).resolve_right hasked
      exact Or.inr ⟨fun hmem => hasked (SetMap.mem_tabulate.1 hmem).1,
        h.requirements_complete n hold a ha⟩
  providers_sound := h.providers_sound
  providers_complete := h.providers_complete

theorem recordProviders (asked : CapabilitySet) :
    (c.recordProviders asked (index.providersOf asked scope asSource)).Knows index scope
      asSource readingOf where
  requirements_sound := h.requirements_sound
  requirements_complete := h.requirements_complete
  providers_sound a m hm := by
    rcases SetMap.mem_values_merge.1 hm with hm | hm
    · exact h.providers_sound a m hm
    · exact (SetMap.mem_values_tabulate.1 hm).2
  providers_complete a ha m hm := by
    refine SetMap.mem_values_merge.2 ?_
    rcases Std.ExtTreeSet.mem_union_iff.1 ha with ha | ha
    · exact Or.inl (h.providers_complete a ha m hm)
    · exact Or.inr (SetMap.mem_values_tabulate.2 ⟨ha, hm⟩)

theorem absorb (names : PackageSet) (level : Nat) :
    (c.absorb names level).Knows index scope asSource readingOf :=
  ⟨h.requirements_sound, h.requirements_complete, h.providers_sound, h.providers_complete⟩

end Knows

/-! ### The arrows of the graph -/

theorem requires_graph {n m : PackageName} :
    c.graph.Requires n m ↔ n ∈ c.members ∧ m ∈ c.members ∧ n ≠ m ∧
      ∃ a ∈ SetMap.values c.requirements n, m ∈ SetMap.values c.providers a := by
  rw [graph_eq_ofRequirements, Graph.requires_ofRequirements, Graph.Effective]
  simp only [requirementPairs, List.mem_flatMap, List.mem_map, Std.ExtTreeSet.mem_toList,
    Prod.mk.injEq]
  grind

theorem Knows.requires_graph_completed (h : c.Knows index scope asSource readingOf)
    (hreading : ∀ n ∈ c.members, n ∉ c.expanded → reading = readingOf n) {n m : PackageName} :
    (c.completed index scope reading asSource).graph.Requires n m ↔
      n ∈ c.members ∧ m ∈ c.members ∧ n ≠ m ∧ index.Needs scope (readingOf n) asSource n m := by
  have hpending : ∀ n ∈ c.members \ c.expanded, reading = readingOf n := by
    intro n hn
    obtain ⟨hmem, hexpanded⟩ := Std.ExtTreeSet.mem_diff_iff.1 hn
    exact hreading n hmem hexpanded
  have hknows : (c.completed index scope reading asSource).Knows index scope asSource readingOf :=
    (h.recordRequirements hpending).recordProviders _
  rw [requires_graph]
  refine and_congr_right fun hn => and_congr_right fun _ => and_congr_right fun _ => ?_
  constructor
  · rintro ⟨a, ha, hm⟩
    exact ⟨a, hknows.requirements_sound n a ha, hknows.providers_sound a m hm⟩
  · rintro ⟨a, ha, hm⟩
    have ha := hknows.requirements_complete n (mem_expanded_completed hn) a ha
    have hqueried := mem_queried_completed (SetMap.mem_range.2 ⟨n, ha⟩)
    exact ⟨a, ha, hknows.providers_complete a hqueried m hm⟩

end Closure

namespace Expansion

variable {u : Universe} {index : BranchIndex} {x : Expansion} {seeds frontier : PackageSet}
  {reading : NameReading} {c : Closure}

/-! ### All kinds of growth -/

theorem knows_learn (h : c.Knows index x.scope x.asSource (x.readingOf seeds))
    (hreading : ∀ n ∈ frontier, reading = x.readingOf seeds n) :
    (x.learn index reading frontier c).Knows index x.scope x.asSource (x.readingOf seeds) :=
  (h.recordRequirements hreading).recordProviders _

/-- A closure between two rounds: what it knows is right, everything in it is a seed or needed by
some name, and nobody has been asked about the newest members alone. -/
structure Grows (x : Expansion) (index : BranchIndex) (seeds : PackageSet) (reading : NameReading)
    (frontier : PackageSet) (c : Closure) : Prop where
  seeds_eq : c.seeds = seeds
  knows : c.Knows index x.scope x.asSource (x.readingOf seeds)
  mem_of_mem_seeds : ∀ n ∈ seeds, n ∈ c.members
  exists_leads : ∀ m ∈ c.members, m ∉ seeds → ∃ n, x.Leads index seeds n m
  reading_eq : ∀ n ∈ frontier, reading = x.readingOf seeds n
  mem_frontier : ∀ n ∈ c.members, n ∉ c.expanded → n ∈ frontier

theorem grows_ofSeeds : x.Grows index seeds x.seedReading seeds (.ofSeeds seeds) := by
  have hmembers : ∀ n, n ∈ (Closure.ofSeeds seeds).members ↔ n ∈ seeds := fun n => by
    simp [Closure.mem_members, Closure.getElem?_levels_ofSeeds]
  refine ⟨rfl, Closure.knows_ofSeeds seeds, fun n => (hmembers n).2, fun m hm hseed => ?_,
    fun n hn => (if_pos hn).symm, fun n hn _ => (hmembers n).1 hn⟩
  exact absurd ((hmembers m).1 hm) hseed

theorem Grows.round (h : x.Grows index seeds reading frontier c) {found : PackageSet}
    (hfound : ∀ m ∈ found, m ∈ x.found index reading frontier) (level : Nat) :
    x.Grows index seeds x.reading ((x.learn index reading frontier c).fresh found)
      ((x.learn index reading frontier c).absorb
        ((x.learn index reading frontier c).fresh found) level) := by
  have hmembers : ∀ n, n ∈ ((x.learn index reading frontier c).absorb
      ((x.learn index reading frontier c).fresh found) level).members ↔
        n ∈ (x.learn index reading frontier c).fresh found ∨ n ∈ c.members := by
    intro n
    rw [Closure.mem_members_absorb, members_learn]
  have hfresh : ∀ m ∈ (x.learn index reading frontier c).fresh found,
      m ∉ seeds ∧ ∃ n, x.Leads index seeds n m := by
    intro m hm
    obtain ⟨hmem, hnew⟩ := Closure.mem_fresh.1 hm
    refine ⟨fun hseed => ?_, ?_⟩
    · obtain ⟨k, hk⟩ := Closure.mem_members.1 (h.mem_of_mem_seeds m hseed)
      rw [levels_learn, hk] at hnew
      cases hnew
    · obtain ⟨n, hn, hneeds⟩ := mem_found.1 (hfound m hmem)
      exact ⟨n, by rwa [Leads, ← h.reading_eq n hn]⟩
  constructor
  · exact h.seeds_eq
  · exact (knows_learn h.knows h.reading_eq).absorb _ _
  · exact fun n hn => (hmembers n).2 (Or.inr (h.mem_of_mem_seeds n hn))
  · intro m hm hseed
    rcases (hmembers m).1 hm with hm | hm
    · exact (hfresh m hm).2
    · exact h.exists_leads m hm hseed
  · exact fun n hn => (if_neg (hfresh n hn).1).symm
  · intro n hn hexpanded
    refine ((hmembers n).1 hn).resolve_right fun hold => hexpanded ?_
    rw [Closure.absorb, learn, Closure.recordProviders, Closure.recordRequirements]
    refine Std.ExtTreeSet.mem_union_iff.2 ?_
    by_cases hn' : n ∈ c.expanded
    · exact Or.inl hn'
    · exact Or.inr (h.mem_frontier n hold hn')

/-- What is known of a closure that has grown, however many rounds there were. -/
structure Grown (x : Expansion) (index : BranchIndex) (seeds : PackageSet) (c : Closure) :
    Prop where
  seeds_eq : c.seeds = seeds
  knows : c.Knows index x.scope x.asSource (x.readingOf seeds)
  mem_of_mem_seeds : ∀ n ∈ seeds, n ∈ c.members
  exists_leads : ∀ m ∈ c.members, m ∉ seeds → ∃ n, x.Leads index seeds n m
  reading_eq : ∀ n ∈ c.members, n ∉ c.expanded → x.reading = x.readingOf seeds n

/-- A closure can always be grown. If seeds are read in a way of their own, one round is enough for
none of them to be left. -/
theorem exists_grown (h : u.branch x.scope.branch = .ok index) {rounds : Nat}
    (hrounds : 0 < rounds ∨ x.seedReading = x.reading) (seeds : PackageSet) :
    ∃ c, (x.closure rounds seeds).eval u = .ok c ∧ x.Grown index seeds c := by
  let P (left : Nat) (reading : NameReading) (level : Nat) (frontier : PackageSet) (c : Closure) :=
    (reading = x.reading ∨ left = rounds) ∧ x.Grows index seeds reading frontier c
  have hround : ∀ left reading level frontier c, P (left + 1) reading level frontier c →
      ∃ c' found, (x.candidates reading (left == 0) frontier c).eval u = .ok (c', found) ∧
        P left x.reading (level + 1) (c'.fresh found) (c'.absorb (c'.fresh found) level) := by
    rintro left reading level frontier c ⟨-, hgrows⟩
    have hfound : ∀ m ∈ x.pruned index reading (left == 0) frontier,
        m ∈ x.found index reading frontier := fun m hm => (mem_pruned.1 hm).1
    exact ⟨_, _, eval_candidates h .., Or.inl rfl, hgrows.round hfound level⟩
  obtain ⟨c, left, reading, level, frontier, heval, ⟨hreading, hgrows⟩, hend⟩ :=
    exists_eval_grow hround rounds x.seedReading 2 seeds (.ofSeeds seeds)
      ⟨Or.inr rfl, grows_ofSeeds⟩
  refine ⟨c, heval, hgrows.seeds_eq, hgrows.knows, hgrows.mem_of_mem_seeds, hgrows.exists_leads,
    fun n hn hexpanded => ?_⟩
  have hfrontier := hgrows.mem_frontier n hn hexpanded
  rcases hreading with hreading | hleft
  · rw [← hgrows.reading_eq n hfrontier, hreading]
  · rcases hend with hend | hempty
    · have hsame : x.seedReading = x.reading := hrounds.resolve_left (by omega)
      rw [readingOf, hsame, ite_self]
    · exact absurd hfrontier (isEmpty_iff_forall_notMem.1 hempty n)

end Expansion

end BuildPlan
