import BuildPlan.Multimap
import Mathlib.Data.List.Induction
import Mathlib.Data.List.Nodup
import Mathlib.Data.List.Perm.Subperm

/-! # What stands in a map

Lookups in maps made from lists, in multimaps and in maps of sets, each said by membership.
-/
namespace BuildPlan

section Sets

variable {α ι : Type} [Ord α] [Std.TransOrd α]

theorem mem_foldl_union (f : ι → Std.ExtTreeSet α) (l : List ι) (s : Std.ExtTreeSet α) (a : α) :
    a ∈ l.foldl (fun s i => s ∪ f i) s ↔ a ∈ s ∨ ∃ i ∈ l, a ∈ f i := by
  induction l generalizing s with
  | nil => simp
  | cons i l ih => simp [ih, or_assoc]

theorem nodup_toList (s : Std.ExtTreeSet α) : s.toList.Nodup := by
  refine s.distinct_toList.imp fun h e => h ?_
  rw [e]
  exact Std.ReflCmp.compare_self

variable [Std.LawfulEqOrd α]

theorem any_eq_true_iff {s : Std.ExtTreeSet α} {p : α → Bool} :
    s.any p = true ↔ ∃ a ∈ s, p a = true := by
  have hloop : s.any p = Id.run (do for a in s do { if p a then return true }; return false) := by
    rcases s with ⟨⟨⟨s⟩⟩⟩
    induction s using Quotient.ind
    rfl
  rw [hloop, Std.ExtTreeSet.forIn_eq_forIn_toList]
  simp only [← Std.ExtTreeSet.mem_toList]
  generalize s.toList = l
  induction l with
  | nil => simp
  | cons a l ih => cases h : p a <;> simp_all

theorem isEmpty_iff_forall_notMem {s : Std.ExtTreeSet α} : s.isEmpty = true ↔ ∀ a, a ∉ s := by
  rw [Std.ExtTreeSet.isEmpty_iff]
  constructor
  · rintro rfl a
    simp
  · intro h
    exact Std.ExtTreeSet.ext_mem fun a => by simp [h a]

theorem length_le_size {s : Std.ExtTreeSet α} {l : List α} (hl : l.Nodup)
    (h : ∀ a ∈ l, a ∈ s) : l.length ≤ s.size := by
  rw [← Std.ExtTreeSet.length_toList]
  exact (List.subperm_of_subset hl fun a ha => Std.ExtTreeSet.mem_toList.2 (h a ha)).length_le

theorem size_le_length {s : Std.ExtTreeSet α} {l : List α} (h : ∀ a ∈ s, a ∈ l) :
    s.size ≤ l.length := by
  rw [← Std.ExtTreeSet.length_toList]
  refine (List.subperm_of_subset (nodup_toList s) fun a ha => ?_).length_le
  exact h a (Std.ExtTreeSet.mem_toList.1 ha)

theorem size_le_size {s t : Std.ExtTreeSet α} (h : ∀ a ∈ s, a ∈ t) : s.size ≤ t.size := by
  rw [← Std.ExtTreeSet.length_toList (t := t)]
  exact size_le_length fun a ha => Std.ExtTreeSet.mem_toList.2 (h a ha)

theorem size_lt_size {s t : Std.ExtTreeSet α} (h : ∀ a ∈ s, a ∈ t) {b : α} (hs : b ∉ s)
    (ht : b ∈ t) : s.size < t.size := by
  have hl : (b :: s.toList).Nodup := by simpa [hs] using nodup_toList s
  have hlen : (b :: s.toList).length ≤ t.size := length_le_size hl (by simpa [ht] using h)
  rw [List.length_cons, Std.ExtTreeSet.length_toList] at hlen
  exact hlen

end Sets

section Maps

variable {κ α : Type} [Ord κ] [Std.TransOrd κ] [Std.LawfulEqOrd κ]

theorem mem_of_getElem?_foldl_insert {l : List (κ × α)} {m : Std.ExtTreeMap κ α} {k : κ} {a : α}
    (h : (l.foldl (fun m p => m.insert p.1 p.2) m)[k]? = some a) :
    (k, a) ∈ l ∨ m[k]? = some a := by
  induction l generalizing m with
  | nil => exact Or.inr h
  | cons p l ih =>
    obtain ⟨k', a'⟩ := p
    rcases ih h with h | h
    · exact Or.inl (List.mem_cons_of_mem _ h)
    · by_cases e : k' = k
      · obtain rfl : a' = a := by simpa [Std.ExtTreeMap.getElem?_insert, e] using h
        exact Or.inl (by simp [e])
      · exact Or.inr (by simpa [Std.ExtTreeMap.getElem?_insert, e] using h)

theorem mem_of_getElem?_ofList {l : List (κ × α)} {k : κ} {a : α}
    (h : (Std.ExtTreeMap.ofList l : Std.ExtTreeMap κ α)[k]? = some a) : (k, a) ∈ l := by
  rw [Std.ExtTreeMap.ofList_eq_foldl] at h
  exact (mem_of_getElem?_foldl_insert h).resolve_right (by simp)

theorem getElem?_ofList_eq_some_iff {l : List (κ × α)} (hl : (l.map Prod.fst).Nodup) {k : κ}
    {a : α} : (Std.ExtTreeMap.ofList l : Std.ExtTreeMap κ α)[k]? = some a ↔ (k, a) ∈ l := by
  refine ⟨mem_of_getElem?_ofList, fun h => ?_⟩
  refine Std.ExtTreeMap.getElem?_ofList_of_mem Std.ReflCmp.compare_self ?_ h
  exact (List.pairwise_map.1 hl).imp fun h e => h (Std.LawfulEqCmp.eq_of_compare e)

/-- Of all pairs with a key the last one counts. -/
theorem getElem?_ofList_eq_getLast? [BEq κ] [LawfulBEq κ] (l : List (κ × α)) (k : κ) :
    (Std.ExtTreeMap.ofList l : Std.ExtTreeMap κ α)[k]? =
      (l.filter fun p => p.1 == k).getLast?.map (·.2) := by
  rw [Std.ExtTreeMap.ofList_eq_foldl]
  induction l using List.reverseRecOn with
  | nil => simp
  | append_singleton l p ih =>
    rw [List.foldl_append, List.foldl_cons, List.foldl_nil, Std.ExtTreeMap.getElem?_insert,
      List.filter_append]
    by_cases hk : p.1 = k
    · simp [hk]
    · simp [hk, ih]

namespace Multimap

theorem mem_values_ofPairs {pairs : List (κ × α)} {k : κ} {a : α} :
    a ∈ (ofPairs pairs).values k ↔ (k, a) ∈ pairs := by
  induction pairs with
  | nil => simp [ofPairs, values]
  | cons p pairs ih =>
    obtain ⟨k', a'⟩ := p
    have step : ofPairs ((k', a') :: pairs) =
        (ofPairs pairs).insert k' (a' :: (ofPairs pairs).values k') := rfl
    rw [step, values, Std.ExtTreeMap.getElem?_insert]
    by_cases e : k' = k
    · subst e
      simp [ih]
    · simpa [e, Ne.symm e, values] using ih

end Multimap

variable [Ord α] [Std.TransOrd α]

namespace SetMap

omit [Std.LawfulEqOrd κ] in
theorem mem_values {m : SetMap κ α} {k : κ} {a : α} :
    a ∈ values m k ↔ ∃ s, m[k]? = some s ∧ a ∈ s := by
  unfold values
  cases m[k]? <;> simp

theorem mem_range {m : SetMap κ α} {a : α} : a ∈ range m ↔ ∃ k, a ∈ values m k := by
  have h := mem_foldl_union (fun p : κ × Std.ExtTreeSet α => p.2) m.toList ∅ a
  simpa [mem_values, range] using h

omit [Std.LawfulEqOrd κ] in
theorem mem_values_union {m₁ m₂ : SetMap κ α} {k : κ} {a : α} :
    a ∈ values (m₁ ∪ m₂) k ↔ a ∈ values m₂ k ∨ k ∉ m₂ ∧ a ∈ values m₁ k := by
  simp only [values, Std.ExtTreeMap.getElem?_union, Std.ExtTreeMap.mem_iff_isSome_getElem?]
  cases m₂[k]? <;> simp

theorem mem_values_merge {m₁ m₂ : SetMap κ α} {k : κ} {a : α} :
    a ∈ values (merge m₁ m₂) k ↔ a ∈ values m₁ k ∨ a ∈ values m₂ k := by
  have key : ∀ (l : List (κ × Std.ExtTreeSet α)) (m : SetMap κ α),
      a ∈ values (l.foldl (fun m p => m.insert p.1 (values m p.1 ∪ p.2)) m) k ↔
        a ∈ values m k ∨ ∃ s, (k, s) ∈ l ∧ a ∈ s := by
    intro l
    induction l with
    | nil => simp
    | cons p l ih =>
      obtain ⟨k', s⟩ := p
      intro m
      have hinsert : a ∈ values (m.insert k' (values m k' ∪ s)) k ↔
          a ∈ values m k ∨ k = k' ∧ a ∈ s := by
        by_cases e : k' = k
        · subst e
          simp [values]
        · simp [values, Std.ExtTreeMap.getElem?_insert, e, Ne.symm e]
      simp only [List.foldl_cons, ih, hinsert, List.mem_cons, Prod.mk.injEq]
      grind
  have h := key m₂.toList m₁
  simpa [merge, mem_values] using h

variable [Std.LawfulEqOrd α]

omit [Std.TransOrd α] [Std.LawfulEqOrd α] in
theorem getElem?_tabulate {keys : Std.ExtTreeSet κ} {f : κ → Std.ExtTreeSet α} {k : κ}
    {s : Std.ExtTreeSet α} :
    (tabulate keys f)[k]? = some s ↔ k ∈ keys ∧ (f k).isEmpty = false ∧ f k = s := by
  have hkeys : ((keys.toList.filterMap fun k =>
      if (f k).isEmpty then none else some (k, f k)).map Prod.fst).Nodup := by
    rw [List.Nodup, List.pairwise_map, List.pairwise_filterMap]
    refine (nodup_toList keys).imp fun hne p hp q hq => ?_
    simp only [Option.ite_none_left_eq_some, Option.some.injEq] at hp hq
    rw [← hp.2, ← hq.2]
    exact hne
  simp only [tabulate, getElem?_ofList_eq_some_iff hkeys, List.mem_filterMap,
    Std.ExtTreeSet.mem_toList, Option.ite_none_left_eq_some, Option.some.injEq, Prod.mk.injEq,
    Bool.not_eq_true]
  constructor
  · rintro ⟨k', hk, hempty, rfl, hs⟩
    exact ⟨hk, hempty, hs⟩
  · rintro ⟨hk, hempty, hs⟩
    exact ⟨k, hk, hempty, rfl, hs⟩

theorem mem_values_tabulate {keys : Std.ExtTreeSet κ} {f : κ → Std.ExtTreeSet α} {k : κ} {a : α} :
    a ∈ values (tabulate keys f) k ↔ k ∈ keys ∧ a ∈ f k := by
  simp only [mem_values, getElem?_tabulate]
  constructor
  · rintro ⟨s, ⟨hk, -, rfl⟩, ha⟩
    exact ⟨hk, ha⟩
  · rintro ⟨hk, ha⟩
    refine ⟨f k, ⟨hk, ?_, rfl⟩, ha⟩
    rw [← Bool.not_eq_true, isEmpty_iff_forall_notMem]
    exact fun hempty => hempty a ha

theorem mem_tabulate {keys : Std.ExtTreeSet κ} {f : κ → Std.ExtTreeSet α} {k : κ} :
    k ∈ tabulate keys f ↔ k ∈ keys ∧ ∃ a, a ∈ f k := by
  have hne : (f k).isEmpty = false ↔ ∃ a, a ∈ f k := by
    rw [← Bool.not_eq_true, isEmpty_iff_forall_notMem, not_forall_not]
  rw [Std.ExtTreeMap.mem_iff_isSome_getElem?, Option.isSome_iff_exists, ← hne]
  simp only [getElem?_tabulate, exists_and_left, exists_eq', and_true]

/-- A map that has a set for each of the keys to which something is related, and no other sets. -/
structure Tabulates (m : SetMap κ α) (keys : Std.ExtTreeSet κ) (r : κ → α → Prop) : Prop where
  mem_iff : ∀ k, k ∈ m ↔ k ∈ keys ∧ ∃ a, r k a
  mem_of_getElem? : ∀ k s, m[k]? = some s → ∀ a, a ∈ s ↔ r k a

omit [Std.LawfulEqOrd κ] [Std.LawfulEqOrd α] in
theorem Tabulates.mem_values_iff {m : SetMap κ α} {keys : Std.ExtTreeSet κ} {r : κ → α → Prop}
    (h : Tabulates m keys r) {k : κ} {a : α} : a ∈ values m k ↔ k ∈ keys ∧ r k a := by
  rw [mem_values]
  constructor
  · rintro ⟨s, hs, ha⟩
    have hk : k ∈ m := Std.ExtTreeMap.mem_iff_isSome_getElem?.2 (by simp [hs])
    exact ⟨((h.mem_iff k).1 hk).1, (h.mem_of_getElem? k s hs a).1 ha⟩
  · rintro ⟨hk, ha⟩
    have hmem : k ∈ m := (h.mem_iff k).2 ⟨hk, a, ha⟩
    obtain ⟨s, hs⟩ := Option.isSome_iff_exists.1 (Std.ExtTreeMap.mem_iff_isSome_getElem?.1 hmem)
    exact ⟨s, hs, (h.mem_of_getElem? k s hs a).2 ha⟩

theorem tabulates_tabulate {keys : Std.ExtTreeSet κ} {f : κ → Std.ExtTreeSet α}
    {r : κ → α → Prop} (h : ∀ k a, a ∈ f k ↔ r k a) : Tabulates (tabulate keys f) keys r where
  mem_iff k := by simp only [mem_tabulate, h]
  mem_of_getElem? k s hs := by
    obtain ⟨-, -, rfl⟩ := getElem?_tabulate.1 hs
    exact h k

end SetMap

end Maps

end BuildPlan
