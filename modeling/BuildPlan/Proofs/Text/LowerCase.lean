import BuildPlan.Proofs.Text.Trim
import BuildPlan.Text.LowerCase

/-! # Lower case a second time

The forms that the case table leads to are in lower case themselves, and none of them is a capital
sigma, a capital I with a dot or a blank. So lower-casing a second time changes nothing, and the
lower-case form of a trimmed text is trimmed.
-/
namespace BuildPlan.Text

/-! ### The case table -/

namespace CaseRun

/-- The two runs are so far apart, or interleave so, that the second covers nothing that the first
leads to. -/
def avoids (r s : CaseRun) : Bool :=
  Nat.blt (r.apply r.last) s.first || Nat.blt s.last (r.apply r.first) ||
    (s.step == 2 && (r.step == 2 || r.first == r.last) && r.apply r.first % 2 != s.first % 2)

variable {r s : CaseRun} {n : Nat}

theorem apply_mem (h : r.covers n = true) :
    r.apply r.first ≤ r.apply n ∧ r.apply n ≤ r.apply r.last := by
  simp only [covers, Bool.and_eq_true, decide_eq_true_eq] at h
  unfold apply
  omega

theorem apply_eq_add (h : r.covers n = true) (hfirst : 0 < r.apply r.first) :
    r.apply n = r.apply r.first + (n - r.first) := by
  simp only [covers, Bool.and_eq_true, decide_eq_true_eq] at h
  unfold apply at hfirst ⊢
  omega

theorem covers_apply_eq_false (hr : r.covers n = true) (h : r.avoids s = true)
    (hfirst : 0 < r.apply r.first) : s.covers (r.apply n) = false := by
  obtain ⟨hlo, hhi⟩ := apply_mem hr
  have hadd := apply_eq_add hr hfirst
  rw [← Bool.not_eq_true]
  simp only [covers, avoids, Bool.and_eq_true, Bool.or_eq_true, decide_eq_true_eq, beq_iff_eq,
    bne_iff_ne, Nat.blt_eq] at hr h ⊢
  rintro ⟨⟨hge, hle⟩, hmod⟩
  rcases h with (h | h) | ⟨⟨hs, hstep⟩, hparity⟩
  · omega
  · omega
  · rw [hs] at hmod
    rcases hstep with hstep | hstep
    · rw [hstep] at hr
      omega
    · omega

end CaseRun

/-- No run leads to what a run covers. -/
theorem lowerRuns_avoid : lowerRuns.all (fun r => lowerRuns.all r.avoids) = true := by
  decide +kernel

/-- Ranges of code points to which no run leads: those before the first letter, the capital I with a
dot, other blanks, and those that are not characters. -/
def unreached : List (Nat × Nat) :=
  [(0, 0x60), (0x85, 0xA0), (0x130, 0x130), (0x1680, 0x1680), (0x2000, 0x205F), (0x3000, 0x3000),
    (0xD800, 0xDFFF)]

theorem lowerRuns_miss : lowerRuns.all (fun r => Nat.blt (r.apply r.last) 0x110000 &&
    unreached.all fun (first, last) =>
      Nat.blt (r.apply r.last) first || Nat.blt last (r.apply r.first)) = true := by
  decide +kernel

section Runs

variable {r : CaseRun} {n : Nat} (hmem : r ∈ lowerRuns) (hr : r.covers n = true)
include hmem hr

theorem apply_lt : r.apply n < 0x110000 := by
  have h := List.all_eq_true.1 lowerRuns_miss r hmem
  rw [Bool.and_eq_true, Nat.blt_eq] at h
  exact Nat.lt_of_le_of_lt (CaseRun.apply_mem hr).2 h.1

theorem apply_notMem_unreached (range : Nat × Nat) (h : range ∈ unreached) :
    r.apply n < range.1 ∨ range.2 < r.apply n := by
  have hmiss := List.all_eq_true.1 lowerRuns_miss r hmem
  rw [Bool.and_eq_true] at hmiss
  have hrange := List.all_eq_true.1 hmiss.2 _ h
  simp only [Bool.or_eq_true, Nat.blt_eq] at hrange
  have := CaseRun.apply_mem hr
  omega

theorem apply_not_covered {s : CaseRun} (hs : s ∈ lowerRuns) : s.covers (r.apply n) = false := by
  have havoid := List.all_eq_true.1 (List.all_eq_true.1 lowerRuns_avoid r hmem) s hs
  refine CaseRun.covers_apply_eq_false hr havoid ?_
  have hfirst : r.covers r.first = true := by
    simp only [CaseRun.covers, Bool.and_eq_true, decide_eq_true_eq] at hr ⊢
    simp; omega
  have := apply_notMem_unreached hmem hfirst (0, 0x60) (by decide)
  omega

end Runs

/-! ### Characters -/

variable {c d : Char} {before cs : List Char}

theorem toNat_ofNat {n : Nat} (h : n.isValidChar) : (Char.ofNat n).toNat = n := by
  rw [Char.ofNat, dif_pos h]
  rfl

/-- A character stays as it is, or a run of the table leads to its lower-case form. -/
theorem lowerChar_cases (c : Char) : lowerChar c = c ∨
    ∃ r ∈ lowerRuns, r.covers c.toNat = true ∧ (lowerChar c).toNat = r.apply c.toNat := by
  unfold lowerChar
  split
  · next run hrun =>
    have hmem := List.mem_of_find?_eq_some hrun
    have hcovers := List.find?_some hrun
    have hlt := apply_lt hmem hcovers
    have hsurrogate := apply_notMem_unreached hmem hcovers (0xD800, 0xDFFF) (by decide)
    have hvalid : (run.apply c.toNat).isValidChar := by
      unfold Nat.isValidChar
      omega
    exact Or.inr ⟨run, hmem, hcovers, toNat_ofNat hvalid⟩
  · exact Or.inl rfl

theorem lowerChar_eq_self (h : ∀ s ∈ lowerRuns, s.covers c.toNat = false) : lowerChar c = c := by
  have hnone : lowerRuns.find? (·.covers c.toNat) = none := by simpa using h
  simp [lowerChar, hnone]

theorem lowerChar_lowerChar (c : Char) : lowerChar (lowerChar c) = lowerChar c := by
  rcases lowerChar_cases c with h | ⟨r, hmem, hr, htoNat⟩
  · rw [h, h]
  · exact lowerChar_eq_self fun s hs => htoNat ▸ apply_not_covered hmem hr hs

theorem isBlank_lowerChar (h : isBlank c = false) : isBlank (lowerChar c) = false := by
  rcases lowerChar_cases c with hself | ⟨r, hmem, hr, htoNat⟩
  · rw [hself, h]
  · have hmiss : ∀ range : Nat × Nat, range ∈ unreached →
        r.apply c.toNat < range.1 ∨ range.2 < r.apply c.toNat :=
      apply_notMem_unreached hmem hr
    simp only [unreached, List.forall_mem_cons] at hmiss
    simp [isBlank, htoNat]
    omega

/-- The character is its own lower-case form wherever it stands. -/
def IsLower (c : Char) : Prop := lowerChar c = c ∧ c ≠ 'Σ' ∧ c ≠ 'İ'

theorem isLower_lowerChar (hc : c ≠ 'İ') : IsLower (lowerChar c) := by
  refine ⟨lowerChar_lowerChar c, fun h => ?_, fun h => ?_⟩
  · have := lowerChar_lowerChar c
    rw [h] at this
    exact absurd this (by decide)
  · rcases lowerChar_cases c with hself | ⟨r, hmem, hr, htoNat⟩
    · exact hc (hself ▸ h)
    · have := apply_notMem_unreached hmem hr (0x130, 0x130) (by decide)
      rw [← htoNat, h] at this
      exact absurd this (by decide)

/-- What stands for a character in the lower-case form of a text. -/
def lowerImage (before : List Char) (c : Char) (after : List Char) : List Char :=
  if c = 'Σ' then [lowerSigma before after] else if c = 'İ' then ['i', '\u0307'] else [lowerChar c]

theorem lowerChars_cons (before : List Char) (c : Char) (after : List Char) :
    lowerChars before (c :: after) =
      lowerImage before c after ++ lowerChars (c :: before) after := rfl

theorem lowerImage_ne_nil (before : List Char) (c : Char) (after : List Char) :
    lowerImage before c after ≠ [] := by
  unfold lowerImage
  split_ifs <;> simp

theorem lowerSigma_eq (before after : List Char) :
    lowerSigma before after = 'ς' ∨ lowerSigma before after = 'σ' := by
  unfold lowerSigma
  split
  · exact Or.inl rfl
  · exact Or.inr rfl

theorem mem_lowerImage {after : List Char} (h : d ∈ lowerImage before c after) :
    d ∈ ['ς', 'σ', 'i', '\u0307'] ∨ c ≠ 'İ' ∧ d = lowerChar c := by
  unfold lowerImage at h
  split_ifs at h with hsigma hdotted
  · rw [List.mem_singleton] at h
    rcases lowerSigma_eq before after with hform | hform
    · exact Or.inl (by simp [h, hform])
    · exact Or.inl (by simp [h, hform])
  · exact Or.inl (List.mem_cons_of_mem _ (List.mem_cons_of_mem _ h))
  · exact Or.inr ⟨hdotted, List.mem_singleton.1 h⟩

theorem isLower_of_mem_lowerImage {after : List Char} (h : d ∈ lowerImage before c after) :
    IsLower d := by
  have hsmall : ∀ d ∈ ['ς', 'σ', 'i', '\u0307'], IsLower d := by
    simp only [List.forall_mem_cons, List.not_mem_nil, false_implies, implies_true, and_true,
      IsLower]
    decide
  obtain h | ⟨hdotted, rfl⟩ := mem_lowerImage h
  · exact hsmall d h
  · exact isLower_lowerChar hdotted

theorem isBlank_of_mem_lowerImage {after : List Char} (hc : isBlank c = false)
    (h : d ∈ lowerImage before c after) : isBlank d = false := by
  have hsmall : ∀ d ∈ ['ς', 'σ', 'i', '\u0307'], isBlank d = false := by
    simp only [List.forall_mem_cons, List.not_mem_nil, false_implies, implies_true, and_true]
    decide
  obtain h | ⟨-, rfl⟩ := mem_lowerImage h
  · exact hsmall d h
  · exact isBlank_lowerChar hc

/-! ### Texts -/

theorem isLower_of_mem_lowerChars (h : d ∈ lowerChars before cs) : IsLower d := by
  induction cs generalizing before with
  | nil => simp [lowerChars] at h
  | cons c after ih =>
    rw [lowerChars_cons, List.mem_append] at h
    rcases h with h | h
    · exact isLower_of_mem_lowerImage h
    · exact ih h

theorem lowerChars_eq_self (h : ∀ c ∈ cs, IsLower c) : lowerChars before cs = cs := by
  induction cs generalizing before with
  | nil => rfl
  | cons c after ih =>
    obtain ⟨⟨hlower, hsigma, hdotted⟩, hafter⟩ := List.forall_mem_cons.1 h
    rw [lowerChars_cons, lowerImage, if_neg hsigma, if_neg hdotted, hlower, ih hafter]
    rfl

theorem isTrimmed_lowerChars (h : IsTrimmed cs) : IsTrimmed (lowerChars before cs) := by
  constructor
  · cases cs with
    | nil => simp [lowerChars]
    | cons c after =>
      intro d hd
      rw [lowerChars_cons, List.head?_append_of_ne_nil _ (lowerImage_ne_nil _ _ _)] at hd
      exact isBlank_of_mem_lowerImage (h.1 c rfl) (List.mem_of_head? hd)
  · have hlast := h.2
    clear h
    induction cs generalizing before with
    | nil => simp [lowerChars]
    | cons c after ih =>
      rw [lowerChars_cons]
      cases after with
      | nil =>
        intro d hd
        rw [lowerChars, List.append_nil] at hd
        exact isBlank_of_mem_lowerImage (hlast c rfl) (List.mem_of_getLast? hd)
      | cons c' after =>
        have hne : lowerChars (c :: before) (c' :: after) ≠ [] := by
          simp [lowerChars_cons, lowerImage_ne_nil]
        rw [List.getLast?_append_of_ne_nil _ hne]
        exact ih (by simpa using hlast)

theorem toList_lowerCase (s : String) : (lowerCase s).toList = lowerChars [] s.toList := by
  simp [lowerCase]

theorem lowerCase_eq_self {s : String} (h : ∀ c ∈ s.toList, IsLower c) : lowerCase s = s := by
  rw [← String.toList_inj, toList_lowerCase, lowerChars_eq_self h]

@[simp] theorem lowerCase_lowerCase (s : String) : lowerCase (lowerCase s) = lowerCase s := by
  refine lowerCase_eq_self fun c hc => ?_
  rw [toList_lowerCase] at hc
  exact isLower_of_mem_lowerChars hc

@[simp] theorem trim_lowerCase_trim (s : String) :
    trim (lowerCase (trim s)) = lowerCase (trim s) := by
  rw [trim_eq_self_iff, toList_lowerCase]
  exact isTrimmed_lowerChars (isTrimmed_trim s)

end BuildPlan.Text
