import BuildPlan.Text
import Mathlib.Data.List.DropRight

/-! # Trimmed texts

A text is trimmed if no blank stands at either of its ends. Trimming makes it so, leaves trimmed
texts alone, and does not see the blanks that stand around a text.
-/
namespace BuildPlan.Text

/-- No blank stands at either end. -/
def IsTrimmed (cs : List Char) : Prop :=
  (∀ c ∈ cs.head?, isBlank c = false) ∧ ∀ c ∈ cs.getLast?, isBlank c = false

instance (cs : List Char) : Decidable (IsTrimmed cs) :=
  decidable_of_iff
    (cs.head?.all (!isBlank ·) = true ∧ cs.getLast?.all (!isBlank ·) = true)
    (by simp [IsTrimmed, Option.all_eq_true])

variable {cs : List Char} {s t : String}

theorem trimChars_eq_rdropWhile (cs : List Char) :
    trimChars cs = (cs.dropWhile isBlank).rdropWhile isBlank := rfl

theorem isTrimmed_trimChars (cs : List Char) : IsTrimmed (trimChars cs) := by
  rw [trimChars_eq_rdropWhile]
  constructor
  · intro c hc
    obtain ⟨rest, hrest⟩ := List.rdropWhile_prefix (p := isBlank) (l := cs.dropWhile isBlank)
    have hfront : (cs.dropWhile isBlank).head? = some c := by
      rw [← hrest, List.head?_append, Option.mem_def.1 hc]
      rfl
    have hnot := List.head?_dropWhile_not isBlank cs
    rw [hfront] at hnot
    simpa using hnot
  · intro c hc
    have hne : (cs.dropWhile isBlank).rdropWhile isBlank ≠ [] := by
      intro hnil
      simp [hnil] at hc
    obtain rfl : _ = c := by simpa [List.getLast?_eq_some_getLast hne] using hc
    simpa using List.rdropWhile_last_not isBlank _ hne

theorem trimChars_eq_self (h : IsTrimmed cs) : trimChars cs = cs := by
  have hfront : cs.dropWhile isBlank = cs := by
    cases cs with
    | nil => rfl
    | cons c cs => simp [h.1 c rfl]
  rw [trimChars_eq_rdropWhile, hfront, List.rdropWhile_eq_self_iff]
  intro hne
  simp [h.2 _ (List.getLast?_eq_some_getLast hne)]

theorem trimChars_eq_self_iff : trimChars cs = cs ↔ IsTrimmed cs :=
  ⟨fun h => h ▸ isTrimmed_trimChars cs, trimChars_eq_self⟩

theorem trimChars_append {before after : List Char} (hbefore : ∀ c ∈ before, isBlank c = true)
    (hafter : ∀ c ∈ after, isBlank c = true) :
    trimChars (before ++ cs ++ after) = trimChars cs := by
  have hall : ∀ {blanks : List Char}, (∀ c ∈ blanks, isBlank c = true) →
      blanks.dropWhile isBlank = [] := fun h => List.dropWhile_eq_nil_iff.2 h
  unfold trimChars
  rw [List.append_assoc, List.dropWhile_append, hall hbefore, List.dropWhile_append]
  by_cases hcs : cs.dropWhile isBlank = []
  · simp [hcs, hall hafter]
  · simp [hcs, List.dropWhile_append, hall fun c hc => hafter c (List.mem_reverse.1 hc)]

@[simp] theorem toList_trim (s : String) : (trim s).toList = trimChars s.toList := by
  simp [trim]

theorem isTrimmed_trim (s : String) : IsTrimmed (trim s).toList := by
  rw [toList_trim]
  exact isTrimmed_trimChars s.toList

theorem trim_eq_self_iff : trim s = s ↔ IsTrimmed s.toList := by
  rw [← trimChars_eq_self_iff, ← toList_trim, String.toList_inj]

@[simp] theorem trim_trim (s : String) : trim (trim s) = trim s :=
  trim_eq_self_iff.2 (isTrimmed_trim s)

theorem nonBlank?_eq_some_iff : nonBlank? s = some t ↔ t = trim s ∧ t ≠ "" := by
  simp only [nonBlank?, Option.ite_none_left_eq_some, Option.some.injEq, String.isEmpty_iff]
  constructor
  · rintro ⟨hne, rfl⟩
    exact ⟨rfl, hne⟩
  · rintro ⟨rfl, hne⟩
    exact ⟨hne, rfl⟩

theorem nonBlank?_eq_self (h : nonBlank? s = some t) : nonBlank? t = some t := by
  obtain ⟨rfl, hne⟩ := nonBlank?_eq_some_iff.1 h
  exact nonBlank?_eq_some_iff.2 ⟨(trim_trim s).symm, hne⟩

end BuildPlan.Text
