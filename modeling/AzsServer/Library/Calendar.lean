import Mathlib.Tactic

/-!
# The Gregorian calendar

Days are counted from 0001-01-01, the day number zero.  `civil` splits a day
number into year, month and day by the cycles of 400, 100, 4 and 1 years, and
`daysBeforeMonth` leads back.  Nothing here depends on a time zone.
-/

namespace AzsServer
namespace Library
namespace Calendar

def isLeap (year : Nat) : Bool :=
  year % 4 == 0 && (year % 100 != 0 || year % 400 == 0)

def monthLengths (leap : Bool) : List Nat :=
  [31, if leap then 29 else 28, 31, 30, 31, 30, 31, 31, 30, 31, 30, 31]

/-- The days from 0001-01-01 to the first day of a year. -/
def daysBeforeYear (year : Nat) : Nat :=
  365 * (year - 1) + (year - 1) / 4 - (year - 1) / 100 + (year - 1) / 400

/-- The year of a day and the number of the day in its year, from zero. -/
def yearOf (n : Nat) : Nat × Nat :=
  let n400 := n / 146097
  let r400 := n % 146097
  let n100 := min (r400 / 36524) 3
  let r100 := r400 - 36524 * n100
  let n4 := r100 / 1461
  let r4 := r100 % 1461
  let n1 := min (r4 / 365) 3
  (400 * n400 + 100 * n100 + 4 * n4 + n1 + 1, r4 - 365 * n1)

/-- The month of a day and the number of the day in its month, both from zero,
by walking through the lengths of the months. -/
def splitMonth : List Nat → Nat → Nat × Nat
  | [], day => (0, day)
  | length :: rest, day =>
      if day < length then (0, day)
      else ((splitMonth rest (day - length)).1 + 1, (splitMonth rest (day - length)).2)

/-- A date; month and day count from one. -/
structure Civil where
  year : Nat
  month : Nat
  day : Nat
deriving DecidableEq, Repr

/-- The date of a day number. -/
def civil (n : Nat) : Civil :=
  let year := (yearOf n).1
  let md := splitMonth (monthLengths (isLeap year)) (yearOf n).2
  ⟨year, md.1 + 1, md.2 + 1⟩

/-- The day number of the day before the first day of a month. -/
def daysBeforeMonth (year month : Nat) : Nat :=
  daysBeforeYear year + ((monthLengths (isLeap year)).take (month - 1)).sum

example : civil 738944 = ⟨2024, 2, 29⟩ := by decide

/-- The days before the year that closes the given numbers of full cycles. -/
theorem daysBeforeYear_cycles {n400 n100 n4 n1 : Nat} (h100 : n100 ≤ 3) (h4 : n4 ≤ 24)
    (h1 : n1 ≤ 3) :
    daysBeforeYear (400 * n400 + 100 * n100 + 4 * n4 + n1 + 1) =
      146097 * n400 + 36524 * n100 + 1461 * n4 + 365 * n1 := by
  have hDiv4 : (400 * n400 + 100 * n100 + 4 * n4 + n1) / 4 =
      100 * n400 + 25 * n100 + n4 := by omega
  have hDiv100 : (400 * n400 + 100 * n100 + 4 * n4 + n1) / 100 =
      4 * n400 + n100 := by omega
  have hDiv400 : (400 * n400 + 100 * n100 + 4 * n4 + n1) / 400 = n400 := by omega
  rw [daysBeforeYear, Nat.add_sub_cancel, hDiv4, hDiv100, hDiv400]
  omega

/-- The split into cycles: nothing is lost, and a day 365 exists only in the last
year of a cycle of four, in the last year of a century only at the end of a
cycle of four hundred. -/
theorem yearOf_cycles (n : Nat) :
    ∃ n400 n100 n4 n1 day, n100 ≤ 3 ∧ n4 ≤ 24 ∧ n1 ≤ 3 ∧
      n = 146097 * n400 + 36524 * n100 + 1461 * n4 + 365 * n1 + day ∧
      (day < 365 ∨ day = 365 ∧ n1 = 3 ∧ (n4 = 24 → n100 = 3)) ∧
      yearOf n = (400 * n400 + 100 * n100 + 4 * n4 + n1 + 1, day) := by
  refine ⟨n / 146097, min (n % 146097 / 36524) 3,
    (n % 146097 - 36524 * min (n % 146097 / 36524) 3) / 1461,
    min ((n % 146097 - 36524 * min (n % 146097 / 36524) 3) % 1461 / 365) 3,
    (n % 146097 - 36524 * min (n % 146097 / 36524) 3) % 1461 -
      365 * min ((n % 146097 - 36524 * min (n % 146097 / 36524) 3) % 1461 / 365) 3,
    Nat.min_le_right _ _, ?_, Nat.min_le_right _ _, ?_, ?_, rfl⟩
  · omega
  · have hMod := Nat.div_add_mod n 146097
    generalize n % 146097 = r400 at *
    have hCentury : 36524 * min (r400 / 36524) 3 ≤ r400 := by omega
    generalize min (r400 / 36524) 3 = n100 at *
    have hFour := Nat.div_add_mod (r400 - 36524 * n100) 1461
    generalize (r400 - 36524 * n100) % 1461 = r4 at *
    omega
  · have hLt : n % 146097 < 146097 := Nat.mod_lt _ (by norm_num)
    generalize n % 146097 = r400 at *
    omega

/-- Both parts of the year split: nothing is lost, and the day of the year is
inside the year. -/
theorem yearOf_spec (n : Nat) :
    daysBeforeYear (yearOf n).1 + (yearOf n).2 = n ∧
      (yearOf n).2 < 365 + if isLeap (yearOf n).1 = true then 1 else 0 := by
  obtain ⟨n400, n100, n4, n1, day, h100, h4, h1, hSum, hDay, hYear⟩ := yearOf_cycles n
  rw [hYear]
  refine ⟨by rw [daysBeforeYear_cycles h100 h4 h1]; omega, ?_⟩
  rcases hDay with hShort | ⟨rfl, rfl, hCentury⟩
  · exact Nat.lt_of_lt_of_le hShort (Nat.le_add_right _ _)
  · have hLeap : isLeap (400 * n400 + 100 * n100 + 4 * n4 + 3 + 1) = true := by
      simp only [isLeap, Bool.and_eq_true, Bool.or_eq_true, beq_iff_eq, bne_iff_ne]
      omega
    simp [hLeap]

/-- Walking through the months loses no day. -/
theorem splitMonth_sum (lengths : List Nat) (day : Nat) :
    (lengths.take (splitMonth lengths day).1).sum + (splitMonth lengths day).2 = day := by
  induction lengths generalizing day with
  | nil => simp [splitMonth]
  | cons length rest ih =>
      by_cases hDay : day < length
      · simp [splitMonth, hDay]
      · have hRest := ih (day - length)
        simp only [splitMonth, hDay, if_false, List.take_succ_cons, List.sum_cons]
        omega

/-- A day inside the year falls into one of the months, below its length. -/
theorem splitMonth_lt {lengths : List Nat} {day : Nat} (hDay : day < lengths.sum) :
    ∃ h : (splitMonth lengths day).1 < lengths.length,
      (splitMonth lengths day).2 < lengths[(splitMonth lengths day).1] := by
  induction lengths generalizing day with
  | nil => simp at hDay
  | cons length rest ih =>
      by_cases hLt : day < length
      · refine ⟨by simp [splitMonth, hLt], ?_⟩
        simp [splitMonth, hLt]
      · have hRest : day - length < rest.sum := by
          simp only [List.sum_cons] at hDay
          omega
        obtain ⟨hMonth, hBelow⟩ := ih hRest
        refine ⟨by simp [splitMonth, hLt, hMonth], ?_⟩
        simpa [splitMonth, hLt] using hBelow

theorem monthLengths_sum (leap : Bool) :
    (monthLengths leap).sum = 365 + if leap = true then 1 else 0 := by
  cases leap <;> decide

theorem monthLengths_le {leap : Bool} {length : Nat} (hMem : length ∈ monthLengths leap) :
    length ≤ 31 := by
  revert length
  cases leap <;> decide

/-- The month and the day of a date are in their ranges. -/
theorem civil_bounds (n : Nat) :
    (civil n).month ∈ Finset.Icc 1 12 ∧ (civil n).day ∈ Finset.Icc 1 31 := by
  have hDay := (yearOf_spec n).2
  rw [← monthLengths_sum] at hDay
  obtain ⟨hMonth, hBelow⟩ := splitMonth_lt hDay
  have hLength : (monthLengths (isLeap (yearOf n).1)).length = 12 := rfl
  have hThirtyOne := monthLengths_le (List.getElem_mem hMonth)
  simp only [civil, Finset.mem_Icc]
  omega

/-- The day number of a date is the day it was made from. -/
theorem daysBeforeMonth_civil (n : Nat) :
    daysBeforeMonth (civil n).year (civil n).month + ((civil n).day - 1) = n := by
  have hYear := (yearOf_spec n).1
  have hSplit := splitMonth_sum (monthLengths (isLeap (yearOf n).1)) (yearOf n).2
  simp only [daysBeforeMonth, civil, Nat.add_sub_cancel]
  omega

/-- The year of a day is at most a 365th of its number. -/
theorem civil_year_le (n : Nat) : (civil n).year ≤ n / 365 + 1 := by
  have hYear := (yearOf_spec n).1
  simp only [daysBeforeYear] at hYear
  simp only [civil]
  omega

/-! ## The order of the dates -/

/-- The order of two dates by year, month and day. -/
def Civil.AtMost (a b : Civil) : Prop :=
  a.year < b.year ∨ a.year = b.year ∧
    (a.month < b.month ∨ a.month = b.month ∧ a.day ≤ b.day)

theorem daysBeforeYear_succ {year : Nat} (hYear : 1 ≤ year) :
    daysBeforeYear (year + 1) =
      daysBeforeYear year + 365 + if isLeap year = true then 1 else 0 := by
  obtain ⟨k, rfl⟩ := Nat.exists_eq_add_of_le' hYear
  have hLess : k / 100 ≤ k / 4 := Nat.div_le_div_left (by norm_num) (by norm_num)
  have hLeap : isLeap (k + 1) = true ↔ 4 ∣ k + 1 ∧ (¬ 100 ∣ k + 1 ∨ 400 ∣ k + 1) := by
    simp [isLeap, Nat.dvd_iff_mod_eq_zero]
  have hFour : 100 ∣ k + 1 → 4 ∣ k + 1 := fun hDvd => (by norm_num : 4 ∣ 100).trans hDvd
  have hHundred : 400 ∣ k + 1 → 100 ∣ k + 1 := fun hDvd => (by norm_num : 100 ∣ 400).trans hDvd
  simp only [daysBeforeYear, Nat.add_sub_cancel, Nat.succ_div, hLeap]
  by_cases h4 : 4 ∣ k + 1
  · by_cases h100 : 100 ∣ k + 1
    · by_cases h400 : 400 ∣ k + 1
      · simp only [h4, h100, h400, if_true]
        simp
        omega
      · simp only [h4, h100, h400, if_true, if_false]
        simp
        omega
    · have h400 : ¬ 400 ∣ k + 1 := fun hDvd => h100 (hHundred hDvd)
      simp only [h4, h100, h400, if_true, if_false]
      simp
      omega
  · have h100 : ¬ 100 ∣ k + 1 := fun hDvd => h4 (hFour hDvd)
    have h400 : ¬ 400 ∣ k + 1 := fun hDvd => h100 (hHundred hDvd)
    simp only [h4, h100, h400, if_false]
    simp
    omega

theorem daysBeforeYear_mono : Monotone daysBeforeYear := by
  refine monotone_nat_of_le_succ fun year => ?_
  rcases Nat.eq_zero_or_pos year with rfl | hYear
  · exact le_rfl
  · rw [daysBeforeYear_succ hYear, add_assoc]
    exact Nat.le_add_right _ _

theorem one_le_yearOf (n : Nat) : 1 ≤ (yearOf n).1 := Nat.le_add_left 1 _

/-- A later day is in no earlier year. -/
theorem yearOf_mono {n m : Nat} (hLe : n ≤ m) : (yearOf n).1 ≤ (yearOf m).1 := by
  obtain ⟨hFirst, -⟩ := yearOf_spec n
  obtain ⟨hLast, hInside⟩ := yearOf_spec m
  by_contra hLess
  have hMono := daysBeforeYear_mono (Nat.succ_le_of_lt (not_le.mp hLess))
  have hNext := daysBeforeYear_succ (one_le_yearOf m)
  simp only [Nat.succ_eq_add_one] at hMono
  omega

/-- A later day of the year is in no earlier month, and in the same month it is no earlier
day. -/
theorem splitMonth_mono (lengths : List Nat) {day later : Nat} (hLe : day ≤ later) :
    (splitMonth lengths day).1 < (splitMonth lengths later).1 ∨
      (splitMonth lengths day).1 = (splitMonth lengths later).1 ∧
        (splitMonth lengths day).2 ≤ (splitMonth lengths later).2 := by
  induction lengths generalizing day later with
  | nil => exact Or.inr ⟨rfl, hLe⟩
  | cons length rest ih =>
      unfold splitMonth
      split_ifs with hDay hLater hLater
      · exact Or.inr ⟨rfl, hLe⟩
      · exact Or.inl (Nat.succ_pos _)
      · exact absurd (hLe.trans_lt hLater) hDay
      · rcases ih (Nat.sub_le_sub_right hLe length) with hMonth | ⟨hMonth, hRest⟩
        · exact Or.inl (Nat.succ_lt_succ hMonth)
        · exact Or.inr ⟨congrArg Nat.succ hMonth, hRest⟩

theorem civil_mono {n m : Nat} (hLe : n ≤ m) : (civil n).AtMost (civil m) := by
  obtain ⟨hFirst, -⟩ := yearOf_spec n
  obtain ⟨hLast, -⟩ := yearOf_spec m
  rcases (yearOf_mono hLe).lt_or_eq with hYear | hYear
  · exact Or.inl hYear
  · have hDay : (yearOf n).2 ≤ (yearOf m).2 := by
      rw [hYear] at hFirst
      omega
    have hSplit := splitMonth_mono (monthLengths (isLeap (yearOf m).1)) hDay
    refine Or.inr ⟨hYear, ?_⟩
    simp only [civil, hYear]
    omega

end Calendar
end Library
end AzsServer
