import BuildPlan.Proofs.Graph.Schedule

/-! # Build orders

The groups of a build order are the components of the graph, and their order is the only one in
which each group comes as soon as it can and before all others that could come at its time. So the
order does not depend on how the components were found.
-/
namespace BuildPlan

open Relation

namespace Condensation

variable {c : Condensation}

theorem size_sorted : c.sorted.size = c.size := by simp [sorted, size]

theorem members_sorted (i : Nat) : c.sorted.members i = PackageName.sorted (c.members i) := by
  simp only [members, sorted, List.getD_eq_getElem?_getD, List.getElem?_map]
  cases c.groups[i]? <;> simp [PackageName.sorted]

theorem mem_members_sorted {i : Nat} {n : PackageName} :
    n ∈ c.sorted.members i ↔ n ∈ c.members i := by
  rw [members_sorted, PackageName.mem_sorted]

theorem lt_size_of_mem_members {i : Nat} {n : PackageName} (h : n ∈ c.members i) :
    i < c.size := by
  obtain ⟨members, hi, -⟩ := mem_members.1 h
  exact (List.getElem?_eq_some_iff.1 hi).1

theorem map_members : (List.range c.size).map c.members = c.groups := by
  refine List.ext_getElem (by simp [size]) fun i h h' => ?_
  simp [members, List.getElem?_eq_getElem h']

theorem Greedy.least {all done rest : List Nat} {i : Nat} (h : c.Greedy all)
    (hall : all = done ++ i :: rest) :
    c.IsReady done i ∧ ∀ j, c.IsReady done j → c.HeadLE i j := by
  induction h generalizing rest with
  | nil => simp at hall
  | @concat before k _ hready hleast ih =>
    rcases List.eq_nil_or_concat rest with rfl | ⟨rest, z, rfl⟩
    · obtain ⟨rfl, hk⟩ := List.append_inj' hall rfl
      obtain rfl := List.singleton_inj.1 hk
      exact ⟨hready, hleast⟩
    · have hall : before ++ [k] = (done ++ i :: rest) ++ [z] := by simpa using hall
      exact ih (List.append_inj' hall rfl).1

end Condensation

namespace Graph

variable {g : Graph}

namespace IsCondensation

variable {c : Condensation} (h : g.IsCondensation c)
include h

theorem index_unique {i j : Nat} {n : PackageName} (hi : n ∈ c.members i) (hj : n ∈ c.members j) :
    i = j := by
  obtain ⟨members, hi, hn⟩ := Condensation.mem_members.1 hi
  obtain ⟨members', hj, hn'⟩ := Condensation.mem_members.1 hj
  exact h.components.index_unique hi hj hn hn'

theorem mem_members_iff {i : Nat} {a : PackageName} (ha : a ∈ c.members i) (b : PackageName) :
    b ∈ c.members i ↔ g.Joined a b := by
  obtain ⟨members, hi, ha⟩ := Condensation.mem_members.1 ha
  rw [← h.components.mem_iff members (List.mem_of_getElem? hi) a ha, Condensation.mem_members]
  simp [hi]

theorem mem_nodes {i : Nat} {n : PackageName} (hn : n ∈ c.members i) : n ∈ g.nodes := by
  obtain ⟨members, hi, hn⟩ := Condensation.mem_members.1 hn
  exact h.components.mem_nodes (List.mem_of_getElem? hi) hn

theorem exists_head {i : Nat} (hi : i < c.size) :
    ∃ n, (c.sorted.members i).head? = some n ∧ n ∈ c.members i := by
  have hget : c.groups[i]? = some c.groups[i] := List.getElem?_eq_getElem hi
  obtain ⟨a, ha⟩ := List.exists_mem_of_ne_nil _ (h.components.ne_nil _ (List.mem_of_getElem? hget))
  have hmem : a ∈ c.sorted.members i :=
    Condensation.mem_members_sorted.2 (Condensation.mem_members.2 ⟨_, hget, ha⟩)
  obtain ⟨n, hn⟩ := Option.isSome_iff_exists.1 (List.isSome_head?.2 (List.ne_nil_of_mem hmem))
  exact ⟨n, hn, Condensation.mem_members_sorted.1 (List.mem_of_head? hn)⟩

/-- A group reaches more nodes than any group that it requires: it is not among those that the other
one reaches. -/
theorem size_downward_lt {i j : Nat} (hij : (i, j) ∈ c.arrows) {a b : PackageName}
    (ha : a ∈ c.members i) (hb : b ∈ c.members j) :
    (g.downward b).size < (g.downward a).size := by
  obtain ⟨hne, x, hx, y, hy, hxy⟩ := (h.arrow_iff i j).1 hij
  have hab : g.Reaches a b :=
    (((h.mem_members_iff ha x).1 hx).1.tail hxy).trans ((h.mem_members_iff hy b).1 hb).1
  have hanodes := h.mem_nodes ha
  have haa : a ∈ g.downward a := g.mem_downward.2 ⟨hanodes, .refl⟩
  refine size_lt_size (fun n hn => ?_) (fun hba => hne ?_) haa
  · exact g.mem_downward.2 ⟨hanodes, hab.trans (g.mem_downward.1 hn).2⟩
  · exact h.index_unique ((h.mem_members_iff ha b).2 ⟨hab, (g.mem_downward.1 hba).2⟩) hb

theorem orderly : c.sorted.Orderly where
  lt_size i j hij := by
    obtain ⟨-, a, ha, b, hb, -⟩ := (h.arrow_iff i j).1 hij
    rw [Condensation.size_sorted]
    exact ⟨Condensation.lt_size_of_mem_members ha, Condensation.lt_size_of_mem_members hb⟩
  acyclic := by
    refine ⟨fun i => ((c.sorted.members i).head?.map fun n => (g.downward n).size).getD 0,
      fun i j hij => ?_⟩
    obtain ⟨-, x, hx, y, hy, -⟩ := (h.arrow_iff i j).1 hij
    obtain ⟨a, hheada, ha⟩ := h.exists_head (Condensation.lt_size_of_mem_members hx)
    obtain ⟨b, hheadb, hb⟩ := h.exists_head (Condensation.lt_size_of_mem_members hy)
    simpa [hheada, hheadb] using h.size_downward_lt hij ha hb
  exists_head i hi := by
    rw [Condensation.size_sorted] at hi
    obtain ⟨n, hn, -⟩ := h.exists_head hi
    exact ⟨n, hn⟩
  head_injective i _ j _ n hi hj :=
    h.index_unique (Condensation.mem_members_sorted.1 (List.mem_of_head? hi))
      (Condensation.mem_members_sorted.1 (List.mem_of_head? hj))

end IsCondensation

/-! ### The order of the groups -/

variable (g)

/-- A member of the one group requires a member of the other. -/
def GroupRequires (group other : List PackageName) : Prop :=
  group ≠ other ∧ ∃ a ∈ group, ∃ b ∈ other, g.Requires a b

/-- All groups that a group requires are among those that are done. -/
def CanFollow (groups done : List (List PackageName)) (group : List PackageName) : Prop :=
  ∀ other ∈ groups, g.GroupRequires group other → other ∈ done

def Precedes (group other : List PackageName) : Prop :=
  ∃ a b, group.head? = some a ∧ other.head? = some b ∧ compare a b = .lt

/-- Each group can follow those before it, and is the first of all that could stand in its place. -/
def IsCanonical (groups : List (List PackageName)) : Prop :=
  ∀ done group rest, groups = done ++ group :: rest →
    g.CanFollow groups done group ∧
      ∀ other ∈ rest, g.CanFollow groups done other → Precedes group other

variable {g}

theorem Precedes.asymm {group other : List PackageName} (h : Precedes group other) :
    ¬ Precedes other group := by
  rintro ⟨b', a', hb', ha', hba⟩
  obtain ⟨a, b, ha, hb, hab⟩ := h
  obtain rfl := Option.some.inj (ha.symm.trans ha')
  obtain rfl := Option.some.inj (hb.symm.trans hb')
  exact Std.OrientedCmp.not_lt_of_lt hab hba

theorem IsCanonical.unique {groups groups' : List (List PackageName)} (h : g.IsCanonical groups)
    (h' : g.IsCanonical groups') (hperm : groups.Perm groups') (hnodup : groups.Nodup) :
    groups = groups' := by
  have hnodup' := hperm.nodup_iff.1 hnodup
  -- the groups after a common beginning agree: each of the two next ones would precede the other
  have key : ∀ rest rest' done, groups = done ++ rest → groups' = done ++ rest' → rest = rest' := by
    intro rest
    induction rest with
    | nil =>
      intro rest' done hg hg'
      have hlen := hperm.length_eq
      rw [hg, hg', List.length_append, List.length_append] at hlen
      exact (List.length_eq_zero_iff.1 (by simpa using hlen.symm)).symm
    | cons group rest ih =>
      intro rest' done hg hg'
      cases rest' with
      | nil =>
        have hlen := hperm.length_eq
        rw [hg, hg'] at hlen
        simp at hlen
      | cons group' rest' =>
        by_cases he : group = group'
        · subst he
          rw [ih rest' (done ++ [group]) (by simp [hg]) (by simp [hg'])]
        · have hmem : group ∈ rest' := by
            have := hperm.mem_iff.1 (show group ∈ groups by simp [hg])
            grind
          have hmem' : group' ∈ rest := by
            have := hperm.mem_iff.2 (show group' ∈ groups' by simp [hg'])
            grind
          obtain ⟨hfollow, hleast⟩ := h done group rest hg
          obtain ⟨hfollow', hleast'⟩ := h' done group' rest' hg'
          refine absurd (hleast group' hmem' ?_) (hleast' group hmem ?_).asymm
          · exact fun other ho => hfollow' other (hperm.mem_iff.1 ho)
          · exact fun other ho => hfollow other (hperm.mem_iff.2 ho)
  exact key groups groups' [] rfl rfl

namespace IsCondensation

variable {c : Condensation} (h : g.IsCondensation c)
include h

theorem members_injective {i j : Nat} (hi : i < c.size)
    (hij : c.sorted.members i = c.sorted.members j) : i = j := by
  obtain ⟨n, -, hn⟩ := h.exists_head hi
  have hn' : n ∈ c.sorted.members j := hij ▸ Condensation.mem_members_sorted.2 hn
  exact h.index_unique hn (Condensation.mem_members_sorted.1 hn')

theorem groupRequires_iff {i j : Nat} (hi : i < c.size) :
    g.GroupRequires (c.sorted.members i) (c.sorted.members j) ↔ j ∈ c.sorted.required i := by
  rw [Condensation.mem_required]
  refine Iff.trans ?_ (h.arrow_iff i j).symm
  simp only [GroupRequires, Condensation.mem_members_sorted, ne_eq]
  refine and_congr_left fun _ => not_congr ⟨h.members_injective hi, ?_⟩
  rintro rfl
  rfl

theorem lt_size_of_mem_required {i j : Nat} (hj : j ∈ c.sorted.required i) : j < c.size := by
  have := (h.orderly.lt_size i j (Condensation.mem_required.1 hj)).2
  rwa [Condensation.size_sorted] at this

theorem canFollow_iff {all done : List Nat} (hall : ∀ k, k ∈ all ↔ k < c.size)
    (hdone : ∀ k ∈ done, k < c.size) {j : Nat} (hj : j < c.size) :
    g.CanFollow (all.map c.sorted.members) (done.map c.sorted.members) (c.sorted.members j) ↔
      ∀ k ∈ c.sorted.required j, k ∈ done := by
  constructor
  · intro hfollow k hk
    have hlt : k < c.size := h.lt_size_of_mem_required hk
    have hmem := hfollow _ (List.mem_map_of_mem ((hall k).2 hlt)) ((h.groupRequires_iff hj).2 hk)
    obtain ⟨k', hk', heq⟩ := List.mem_map.1 hmem
    rwa [← h.members_injective (hdone k' hk') heq]
  · intro hrequired other ho hreq
    obtain ⟨k, -, rfl⟩ := List.mem_map.1 ho
    exact List.mem_map_of_mem (hrequired k ((h.groupRequires_iff hj).1 hreq))

theorem precedes_of_headLE {i j : Nat} (hi : i < c.size) (hj : j < c.size) (hij : i ≠ j)
    (hle : c.sorted.HeadLE i j) : Precedes (c.sorted.members i) (c.sorted.members j) := by
  obtain ⟨a, ha, hai⟩ := h.exists_head hi
  obtain ⟨b, hb, hbj⟩ := h.exists_head hj
  refine ⟨a, b, ha, hb, ?_⟩
  rcases Ordering.isLE_iff_eq_lt_or_eq_eq.1 (hle a b ha hb) with hlt | heq
  · exact hlt
  · obtain rfl := Std.LawfulEqCmp.eq_of_compare heq
    exact absurd (h.index_unique hai hbj) hij

theorem isCanonical_of_greedy {all : List Nat} (hgreedy : c.sorted.Greedy all)
    (hall : ∀ k, k ∈ all ↔ k < c.size) : g.IsCanonical (all.map c.sorted.members) := by
  intro done group rest hsplit
  obtain ⟨done, tail, rfl, rfl, htail⟩ := List.map_eq_append_iff.1 hsplit
  obtain ⟨i, rest, rfl, rfl, rfl⟩ := List.map_eq_cons_iff.1 htail
  obtain ⟨hready, hleast⟩ := hgreedy.least rfl
  have hdone : ∀ k ∈ done, k < c.size := fun k hk => (hall k).1 (List.mem_append_left _ hk)
  have hi : i < c.size := (hall i).1 (by simp)
  have hnodup := List.nodup_middle.1 hgreedy.nodup
  refine ⟨(h.canFollow_iff hall hdone hi).2 hready.2.2, fun other ho hfollow => ?_⟩
  obtain ⟨j, hjrest, rfl⟩ := List.mem_map.1 ho
  have hj : j < c.size := (hall j).1 (by simp [hjrest])
  have hij : i ≠ j := by grind
  have hjdone : j ∉ done := by grind
  refine h.precedes_of_headLE hi hj hij (hleast j ⟨?_, hjdone, ?_⟩)
  · rwa [Condensation.size_sorted]
  · exact (h.canFollow_iff hall hdone hj).1 hfollow

end IsCondensation

/-- Whatever the searches find, the order goes through the groups, the groups are the components
with their members in order, and they stand in canonical order. -/
theorem IsCondensation.ofSearches_spec {c : Condensation} (h : g.IsCondensation c)
    (classes : List (List PackageName)) :
    (BuildOrder.ofSearches classes c).order = (BuildOrder.ofSearches classes c).groups.flatten ∧
      (BuildOrder.ofSearches classes c).groups.Perm (c.groups.map PackageName.sorted) ∧
      g.IsCanonical (BuildOrder.ofSearches classes c).groups := by
  obtain ⟨all, hperm, hgreedy, hs, -⟩ := Schedule.finish_spec h.orderly
  have hgroups : (BuildOrder.ofSearches classes c).groups = all.map c.sorted.members := hs.groups
  refine ⟨hs.order, ?_, ?_⟩
  · rw [hgroups]
    have := hperm.map c.sorted.members
    rwa [Condensation.map_members] at this
  · rw [hgroups]
    refine h.isCanonical_of_greedy hgreedy fun k => ?_
    rw [hperm.mem_iff, List.mem_range, Condensation.size_sorted]

namespace IsComponents

variable {classes classes' : List (List PackageName)}

theorem perm (h : g.IsComponents classes) (hperm : classes.Perm classes') :
    g.IsComponents classes' where
  mem_flatten n := by rw [← hperm.flatten.mem_iff, h.mem_flatten]
  nodup := hperm.flatten.nodup_iff.1 h.nodup
  ne_nil c hc := h.ne_nil c (hperm.mem_iff.2 hc)
  mem_iff c hc := h.mem_iff c (hperm.mem_iff.2 hc)

theorem map_sorted (h : g.IsComponents classes) :
    g.IsComponents (classes.map PackageName.sorted) where
  mem_flatten n := by
    rw [← h.mem_flatten]
    simp [PackageName.mem_sorted]
  nodup := by
    obtain ⟨-, hdisjoint⟩ := List.nodup_flatten.1 h.nodup
    refine List.nodup_flatten.2 ⟨?_, List.pairwise_map.2 (hdisjoint.imp ?_)⟩
    · intro c hc
      obtain ⟨d, -, rfl⟩ := List.mem_map.1 hc
      exact (PackageName.ascending_sorted d).nodup
    · intro c d hcd n hn hn'
      exact hcd (PackageName.mem_sorted.1 hn) (PackageName.mem_sorted.1 hn')
  ne_nil c hc := by
    obtain ⟨d, hd, rfl⟩ := List.mem_map.1 hc
    obtain ⟨n, hn⟩ := List.exists_mem_of_ne_nil d (h.ne_nil d hd)
    exact List.ne_nil_of_mem (PackageName.mem_sorted.2 hn)
  mem_iff c hc a ha b := by
    obtain ⟨d, hd, rfl⟩ := List.mem_map.1 hc
    rw [PackageName.mem_sorted] at ha ⊢
    exact h.mem_iff d hd a ha b

theorem exists_perm (h : g.IsComponents classes) (h' : g.IsComponents classes')
    {c : List PackageName} (hc : c ∈ classes) : ∃ c' ∈ classes', c.Perm c' := by
  obtain ⟨n, hn⟩ := List.exists_mem_of_ne_nil c (h.ne_nil c hc)
  obtain ⟨c', hc', hn'⟩ := h'.exists_mem (h.mem_nodes hc hn)
  refine ⟨c', hc', (List.perm_ext_iff_of_nodup ?_ ?_).2 fun m => ?_⟩
  · exact (List.nodup_flatten.1 h.nodup).1 c hc
  · exact (List.nodup_flatten.1 h'.nodup).1 c' hc'
  · rw [h.mem_iff c hc n hn, h'.mem_iff c' hc' n hn']

theorem nodup_classes (h : g.IsComponents classes) : classes.Nodup := by
  obtain ⟨-, hdisjoint⟩ := List.nodup_flatten.1 h.nodup
  refine hdisjoint.imp_of_mem fun {c d} hc _ hcd he => ?_
  obtain ⟨n, hn⟩ := List.exists_mem_of_ne_nil c (h.ne_nil c hc)
  exact hcd hn (he ▸ hn)

theorem sorted_perm (h : g.IsComponents classes) (h' : g.IsComponents classes') :
    (classes.map PackageName.sorted).Perm (classes'.map PackageName.sorted) := by
  refine (List.perm_ext_iff_of_nodup h.map_sorted.nodup_classes h'.map_sorted.nodup_classes).2 ?_
  have key : ∀ {classes classes' : List (List PackageName)}, g.IsComponents classes →
      g.IsComponents classes' → ∀ group ∈ classes.map PackageName.sorted,
      group ∈ classes'.map PackageName.sorted := by
    intro classes classes' h h' group hgroup
    obtain ⟨c, hc, rfl⟩ := List.mem_map.1 hgroup
    obtain ⟨c', hc', hperm⟩ := h.exists_perm h' hc
    exact List.mem_map.2 ⟨c', hc', PackageName.sorted_congr fun n => hperm.mem_iff.symm⟩
  exact fun group => ⟨key h h' group, key h' h group⟩

end IsComponents

/-- The groups and their order do not depend on what the searches find. -/
theorem IsCondensation.groups_eq {c c' : Condensation} (h : g.IsCondensation c)
    (h' : g.IsCondensation c') (classes classes' : List (List PackageName)) :
    (BuildOrder.ofSearches classes c).groups = (BuildOrder.ofSearches classes' c').groups := by
  obtain ⟨-, hperm, hcanonical⟩ := h.ofSearches_spec classes
  obtain ⟨-, hperm', hcanonical'⟩ := h'.ofSearches_spec classes'
  refine hcanonical.unique hcanonical' ?_ ?_
  · exact hperm.trans ((h.components.sorted_perm h'.components).trans hperm'.symm)
  · exact hperm.nodup_iff.2 h.components.map_sorted.nodup_classes

end Graph

end BuildPlan
