import BuildPlan.Time.Timestamp
import BuildPlan.Proofs.Text.ReadBack
import Mathlib.Data.List.TakeWhile

/-! # Timestamps read back

Each part of a moment is read from its digits and leaves the text after them, so a moment that is
written is read as the same moment, to the nanosecond and with a sign before a year that needs one.
-/
namespace BuildPlan

theorem Date.ofParts?_self (d : Date) : ofParts? d.year d.month d.day = some d :=
  dif_pos ⟨d.year_mem, d.month_mem, d.day_mem⟩

namespace Timestamp

theorem ofParts?_self (t : Timestamp) :
    ofParts? t.date t.hour t.minute t.second t.nano = some t :=
  dif_pos ⟨t.hour_lt, t.minute_lt, t.second_le, t.nano_le⟩

theorem toUtc?_zero (t : Timestamp) : t.toUtc? 0 = some t := by
  have hhour := t.hour_lt
  have hminute := t.minute_lt
  have htotal : ((t.hour : Int) * 60 + t.minute - 0) % (24 * 60) =
      (t.hour * 60 + t.minute : Nat) := by
    omega
  have hfrom : ¬(t.hour : Int) * 60 + t.minute - 0 < 0 := by omega
  have hto : ¬(24 * 60 : Int) ≤ t.hour * 60 + t.minute - 0 := by omega
  have hhours : (t.hour * 60 + t.minute) / 60 = t.hour := by omega
  have hminutes : (t.hour * 60 + t.minute) % 60 = t.minute := by omega
  unfold toUtc?
  refine Option.bind_eq_some_iff.2 ⟨(), rfl, ?_⟩
  simp only [hfrom, hto, if_false, htotal, Int.toNat_natCast, hhours, hminutes]
  exact t.ofParts?_self

namespace Reader

/-! ### Numbers -/

theorem isBlank_of_isDigit {c : Char} (h : c.isDigit = true) : Text.isBlank c = false := by
  have hrange : 48 ≤ c.toNat ∧ c.toNat ≤ 57 := by
    simpa [Char.isDigit, UInt32.le_iff_toNat_le] using h
  simp [Text.isBlank]
  omega

theorem skipBlanks_cons {c : Char} (h : Text.isBlank c = false) (cs : List Char) :
    skipBlanks (c :: cs) = c :: cs := by
  simp [skipBlanks, h]

theorem literal_skipBlanks {c : Char} (h : Text.isBlank c = false) (cs : List Char) :
    literal c (skipBlanks (c :: cs)) = some cs := by
  simp [skipBlanks_cons h, literal]

theorem number_append {width : Nat} {digits rest : List Char} (hne : digits ≠ [])
    (hdigits : ∀ c ∈ digits, c.isDigit = true) (hwidth : digits.length ≤ width)
    (hend : digits.length = width ∨ ∀ c ∈ rest.head?, c.isDigit = false) :
    number width (digits ++ rest) = some (Text.decimalValue digits, rest) := by
  have hskip : skipBlanks (digits ++ rest) = digits ++ rest := by
    cases digits with
    | nil => exact absurd rfl hne
    | cons d ds => exact skipBlanks_cons (isBlank_of_isDigit (hdigits d List.mem_cons_self)) _
  have hafter : ((rest.take (width - digits.length)).takeWhile Char.isDigit) = [] := by
    rcases hend with hend | hend
    · simp [hend]
    · cases rest with
      | nil => simp
      | cons c rest =>
        cases width - digits.length with
        | zero => rfl
        | succ n => simp [hend c rfl]
  have htake : ((digits ++ rest).take width).takeWhile Char.isDigit = digits := by
    rw [List.take_append, List.take_of_length_le hwidth,
      List.takeWhile_append_of_pos hdigits, hafter, List.append_nil]
  simp only [number, hskip, htake]
  simp [hne]

theorem number_padded {width n : Nat} (hwidth : 0 < width) (hn : n < 10 ^ width)
    (rest : List Char) :
    number width ((Text.padded width n).toList ++ rest) = some (n, rest) := by
  have hlength := Text.length_padded hwidth hn
  rw [number_append (Text.padded_ne_nil width n) (fun c hc => Text.isDigit_of_mem_padded hc)
    hlength.le (.inl hlength), Text.decimalValue_padded]

/-! ### Dates -/

theorem head?_padded_append (width n : Nat) (rest : List Char) :
    ∃ d ds, (Text.padded width n).toList ++ rest = d :: ds ∧ d.isDigit = true := by
  cases h : (Text.padded width n).toList with
  | nil => exact absurd h (Text.padded_ne_nil width n)
  | cons d ds => exact ⟨d, ds ++ rest, rfl, Text.isDigit_of_mem_padded (h ▸ List.mem_cons_self)⟩

/-- After a sign, the digits of a year go on up to a character that is none. -/
theorem year_signed (negative : Bool) (n : Nat) {c : Char} (hc : c.isDigit = false)
    (rest : List Char) :
    year ((if negative then '-' else '+') :: ((Text.padded 4 n).toList ++ c :: rest)) =
      some (if negative then -(n : Int) else n, c :: rest) := by
  have hend : ∀ d ∈ (c :: rest).head?, d.isDigit = false := by
    rintro d hd
    cases hd
    exact hc
  have hnumber : number ((Text.padded 4 n).toList ++ c :: rest).length
      ((Text.padded 4 n).toList ++ c :: rest) = some (n, c :: rest) := by
    rw [number_append (Text.padded_ne_nil 4 n) (fun c hc => Text.isDigit_of_mem_padded hc)
      (by simp) (.inr hend), Text.decimalValue_padded]
  obtain ⟨d, ds, hcons, hd⟩ := head?_padded_append 4 n (c :: rest)
  rw [hcons] at hnumber ⊢
  cases negative with
  | true =>
    rw [if_pos rfl, if_pos rfl, year, skipBlanks_cons rfl]
    simp only [List.head?_cons, Option.any_some, hd, if_true, hnumber, Option.map_some]
  | false =>
    rw [if_neg Bool.false_ne_true, if_neg Bool.false_ne_true, year, skipBlanks_cons rfl]
    simp only [List.head?_cons, Option.any_some, hd, if_true, hnumber, Option.map_some]

theorem year_yearText (y : Int) (rest : List Char) :
    year ((Date.yearText y).toList ++ '-' :: rest) = some (y, '-' :: rest) := by
  have hdash : Char.isDigit '-' = false := rfl
  unfold Date.yearText
  split
  · next h =>
    have hy : 0 ≤ y ∧ y ≤ 9999 := by simpa using h
    have hlt : y.toNat < 10 ^ 4 := by omega
    obtain ⟨d, ds, hcons, hd⟩ := head?_padded_append 4 y.toNat ('-' :: rest)
    have hnumber := number_padded (by decide) hlt ('-' :: rest)
    have hminus : d ≠ '-' := by
      rintro rfl
      exact absurd hd (by decide)
    have hplus : d ≠ '+' := by
      rintro rfl
      exact absurd hd (by decide)
    rw [hcons] at hnumber ⊢
    have hvalue : (y.toNat : Int) = y := by omega
    simp [year, skipBlanks_cons (isBlank_of_isDigit hd), hminus, hplus, hnumber, hvalue]
  · split
    · have hyear := year_signed true y.natAbs hdash rest
      have hvalue : -(y.natAbs : Int) = y := by omega
      rw [if_pos rfl, if_pos rfl, hvalue] at hyear
      simpa using hyear
    · have hyear := year_signed false y.natAbs hdash rest
      have hvalue : (y.natAbs : Int) = y := by omega
      rw [if_neg Bool.false_ne_true, if_neg Bool.false_ne_true, hvalue] at hyear
      simpa using hyear

theorem date_text (d : Date) (rest : List Char) :
    date (d.text.toList ++ rest) = some (d, rest) := by
  have hmonth : d.month < 10 ^ 2 := by have := d.month_mem; omega
  have hday : d.day < 10 ^ 2 := by
    have hle : daysInMonth d.year d.month ≤ 31 := by unfold daysInMonth; split_ifs <;> decide
    have := d.day_mem
    omega
  have htext : d.text.toList ++ rest = (Date.yearText d.year).toList ++
      '-' :: ((Text.padded 2 d.month).toList ++ '-' :: ((Text.padded 2 d.day).toList ++ rest)) := by
    simp [Date.text]
  rw [htext, date]
  simp [year_yearText, literal_skipBlanks (c := '-') rfl, number_padded _ hmonth,
    number_padded _ hday, Date.ofParts?_self]

/-! ### Times of day -/

theorem fraction_padded (width n : Nat) (hwidth : 0 < width) (hwidth' : width ≤ 9)
    (hn : n < 10 ^ width) {c : Char} (hc : c.isDigit = false) (rest : List Char) :
    fraction ('.' :: ((Text.padded width n).toList ++ c :: rest)) =
      some (n * 10 ^ (9 - width), c :: rest) := by
  have hlength := Text.length_padded hwidth hn
  have htake : ((Text.padded width n).toList ++ c :: rest).takeWhile Char.isDigit =
      (Text.padded width n).toList := by
    rw [List.takeWhile_append_of_pos fun c hc => Text.isDigit_of_mem_padded hc]
    simp [hc]
  have hkept : (Text.padded width n).toList.take 9 = (Text.padded width n).toList :=
    List.take_of_length_le (hlength.le.trans hwidth')
  have hdrop : ((Text.padded width n).toList ++ c :: rest).drop width = c :: rest :=
    List.drop_left' hlength
  have hempty : (Text.padded width n).toList.isEmpty = false :=
    List.isEmpty_eq_false_iff.2 (Text.padded_ne_nil width n)
  simp only [fraction, htake, hkept, hlength, Text.decimalValue_padded, hdrop, hempty]
  rfl

theorem fraction_fractionText {nano : Nat} (hnano : nano ≤ 999_999_999) {c : Char}
    (hc : c.isDigit = false) (hdot : c ≠ '.') (rest : List Char) :
    fraction ((fractionText nano).toList ++ c :: rest) = some (nano, c :: rest) := by
  unfold fractionText
  split_ifs with hzero hmilli hmicro
  · simp [fraction, hdot, hzero]
  · have hread := fraction_padded 3 (nano / 1_000_000) (by decide) (by decide)
      (by omega) hc rest
    have hvalue : nano / 1_000_000 * 10 ^ (9 - 3) = nano := by omega
    rw [hvalue] at hread
    simpa using hread
  · have hread := fraction_padded 6 (nano / 1000) (by decide) (by decide)
      (by omega) hc rest
    have hvalue : nano / 1000 * 10 ^ (9 - 6) = nano := by omega
    rw [hvalue] at hread
    simpa using hread
  · have hread := fraction_padded 9 nano (by decide) (by decide) (by omega) hc rest
    simpa using hread

theorem moment_text (t : Timestamp) : moment t.text.toList = some t := by
  have hhour : t.hour < 10 ^ 2 := by have := t.hour_lt; omega
  have hminute : t.minute < 10 ^ 2 := by have := t.minute_lt; omega
  have hsecond : t.second < 10 ^ 2 := by have := t.second_le; omega
  have htext : t.text.toList = t.date.text.toList ++ 'T' :: ((Text.padded 2 t.hour).toList ++
      ':' :: ((Text.padded 2 t.minute).toList ++ ':' :: ((Text.padded 2 t.second).toList ++
        ((fractionText t.nano).toList ++ ['Z'])))) := by
    simp [text]
  rw [htext]
  refine Option.bind_eq_some_iff.2 ⟨_, date_text t.date _, ?_⟩
  refine Option.bind_eq_some_iff.2 ⟨_, rfl, ?_⟩
  refine Option.bind_eq_some_iff.2 ⟨_, number_padded (by decide) hhour _, ?_⟩
  refine Option.bind_eq_some_iff.2 ⟨_, literal_skipBlanks rfl _, ?_⟩
  refine Option.bind_eq_some_iff.2 ⟨_, number_padded (by decide) hminute _, ?_⟩
  refine Option.bind_eq_some_iff.2 ⟨_, literal_skipBlanks rfl _, ?_⟩
  refine Option.bind_eq_some_iff.2 ⟨_, number_padded (by decide) hsecond _, ?_⟩
  refine Option.bind_eq_some_iff.2 ⟨_, fraction_fractionText t.nano_le rfl (by decide) _, ?_⟩
  refine Option.bind_eq_some_iff.2 ⟨(0, []), rfl, ?_⟩
  refine Option.bind_eq_some_iff.2 ⟨(), rfl, ?_⟩
  exact Option.bind_eq_some_iff.2 ⟨t, t.ofParts?_self, t.toUtc?_zero⟩

end Reader

/-- A moment that is written is read as the same moment. -/
theorem ofText?_text (t : Timestamp) : ofText? t.text = some t := Reader.moment_text t

end Timestamp

end BuildPlan
