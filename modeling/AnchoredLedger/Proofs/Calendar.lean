import AnchoredLedger.Calendar

/-! # Days and dates of the calendar

A year begins close to its number times the mean length of a year, less than two days off. So the first guess
at the year of a day is at most one off, and what remains of the day is less than the length of that year. The
months take it apart, and a date adds up to the day it was made from.

* **`Calendar.yearStart_bounds`** — how close the start of a year is to its mean.
* **`Calendar.yearOf_spec`** — the year of a day.
* **`Calendar.splitMonths_spec`** — month and day of the month.
* **`Date.isValid_ofDays`**, **`Date.toDays_ofDays`** — the date of a day is one of the calendar, and its day
  is that day. -/

namespace AnchoredLedger.Calendar

/-! ## Years -/

/-- **The start of a year**, four hundred times, against the mean length of four hundred years. -/
theorem yearStart_bounds (year : Int) :
    146097 * year - 396 ≤ 400 * yearStart year ∧ 400 * yearStart year ≤ 146097 * year + 699 := by
  unfold yearStart
  omega

/-- **The year of a day** begins on that day or before, and the next one after it. -/
theorem yearOf_spec (day : Int) : yearStart (yearOf day) ≤ day ∧ day < yearStart (yearOf day + 1) := by
  obtain ⟨guess, hguess⟩ : ∃ guess, 400 * day / 146097 = guess := ⟨_, rfl⟩
  -- the guess is at most one off: the year before it has begun, and the second one after it has not
  have hearlier := yearStart_bounds (guess - 1)
  have hlater := yearStart_bounds (guess + 1 + 1)
  unfold yearOf
  simp only [hguess]
  by_cases hbefore : day < yearStart guess
  · rw [if_pos hbefore, Int.sub_add_cancel]
    exact ⟨by omega, hbefore⟩
  · rw [if_neg hbefore]
    by_cases hafter : yearStart (guess + 1) ≤ day
    · rw [if_pos hafter]
      exact ⟨hafter, by omega⟩
    · rw [if_neg hafter]
      exact ⟨Int.not_lt.1 hbefore, Int.not_le.1 hafter⟩

/-- The length of a year is that of its months. -/
theorem yearStart_succ (year : Int) :
    yearStart (year + 1) = yearStart year + ((monthLengths year).foldr Nat.add 0 : Nat) := by
  have hlength : (monthLengths year).foldr Nat.add 0 = 337 + if isLeap year then 29 else 28 := by
    unfold monthLengths
    cases isLeap year <;> rfl
  rw [hlength]
  by_cases hleap : isLeap year = true
  · rw [if_pos hleap]
    simp only [isLeap, Bool.and_eq_true, Bool.or_eq_true, decide_eq_true_eq] at hleap
    unfold yearStart
    omega
  · rw [if_neg hleap]
    simp only [isLeap, Bool.and_eq_true, Bool.or_eq_true, decide_eq_true_eq] at hleap
    unfold yearStart
    omega

/-! ## Months -/

/-- **Month and day of the month** of a day of the year: there is such a month, it has the day, and the months
before it and the days before it in that month add up. -/
theorem splitMonths_spec {lengths : List Nat} {n : Nat} (h : n < lengths.foldr Nat.add 0) :
    ∃ m length, (splitMonths lengths n).1 = m + 1 ∧ lengths[m]? = some length ∧
      1 ≤ (splitMonths lengths n).2 ∧ (splitMonths lengths n).2 ≤ length ∧
      (lengths.take m).foldr Nat.add 0 + (splitMonths lengths n).2 = n + 1 := by
  induction lengths generalizing n with
  | nil => exact absurd h (Nat.not_lt_zero n)
  | cons length rest ih =>
    by_cases hwithin : n < length
    · rw [splitMonths, if_pos hwithin]
      exact ⟨0, length, rfl, rfl, Nat.le_add_left 1 n, hwithin, Nat.zero_add _⟩
    · rw [splitMonths, if_neg hwithin]
      dsimp only
      have hrest : n - length < rest.foldr Nat.add 0 := by
        rw [List.foldr_cons] at h
        change n < length + rest.foldr Nat.add 0 at h
        omega
      obtain ⟨m, length', hmonth, hlength, hfirst, hlast, hsum⟩ := ih hrest
      refine ⟨m + 1, length', congrArg (· + 1) hmonth, hlength, hfirst, hlast, ?_⟩
      rw [List.take_succ_cons, List.foldr_cons]
      change length + (rest.take m).foldr Nat.add 0 + _ = _
      omega

/-! ## Dates -/

namespace Date

/-- What is left of a day within its year. -/
theorem exists_dayOfYear (day : Int) : ∃ n : Nat, day - yearStart (yearOf day) = n ∧
    n < (monthLengths (yearOf day)).foldr Nat.add 0 := by
  obtain ⟨hstart, hend⟩ := yearOf_spec day
  rw [yearStart_succ] at hend
  obtain ⟨n, hn⟩ := Int.eq_ofNat_of_zero_le (Int.sub_nonneg.2 hstart)
  exact ⟨n, hn, by omega⟩

/-- **The date of a day is one of the calendar.** -/
theorem isValid_ofDays (n : Int) : (ofDays n).isValid = true := by
  obtain ⟨k, hday, hk⟩ := exists_dayOfYear (n + epoch)
  obtain ⟨m, length, hmonth, hlength, hfirst, hlast, -⟩ := splitMonths_spec hk
  simp only [isValid, ofDays, hday, Int.toNat_natCast, hmonth, hlength, hfirst, hlast, decide_true,
    Bool.and_self]

/-- **The day of a date** is the one that the date was made from. -/
theorem toDays_ofDays (n : Int) : (ofDays n).toDays = n := by
  obtain ⟨k, hday, hk⟩ := exists_dayOfYear (n + epoch)
  obtain ⟨m, length, hmonth, -, -, -, hsum⟩ := splitMonths_spec hk
  simp only [toDays, ofDays, hday, Int.toNat_natCast, hmonth, Nat.add_sub_cancel]
  omega

/-- The days of the years of four digits. -/
theorem year_ofDays_bounds {n : Int} (hfirst : 0 ≤ n + epoch) (hlast : n + epoch < yearStart 10000) :
    0 ≤ (ofDays n).year ∧ (ofDays n).year ≤ 9999 := by
  obtain ⟨hstart, hend⟩ := yearOf_spec (n + epoch)
  change 0 ≤ yearOf (n + epoch) ∧ yearOf (n + epoch) ≤ 9999
  unfold yearStart at hstart hend hlast
  omega

/-- A date of the calendar has one of twelve months and one of at most thirty-one days. -/
theorem bounds_of_isValid {d : Date} (h : d.isValid = true) :
    (1 ≤ d.month ∧ d.month ≤ 12) ∧ 1 ≤ d.day ∧ d.day ≤ 31 := by
  have hlengths : (monthLengths d.year).length = 12 ∧ ∀ length ∈ monthLengths d.year, length ≤ 31 := by
    unfold monthLengths
    cases isLeap d.year <;> decide
  unfold isValid at h
  cases hmonth : d.month with
  | zero => simp [hmonth] at h
  | succ m =>
    simp only [hmonth] at h
    cases hlength : (monthLengths d.year)[m]? with
    | none => simp [hlength] at h
    | some length =>
      simp only [hlength, Bool.and_eq_true, decide_eq_true_eq] at h
      obtain ⟨hm, rfl⟩ := List.getElem?_eq_some_iff.1 hlength
      have hlong := hlengths.2 _ (List.getElem_mem hm)
      omega

end Date

end AnchoredLedger.Calendar
