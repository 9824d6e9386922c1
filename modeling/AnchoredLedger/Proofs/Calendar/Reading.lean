import AnchoredLedger.Calendar.Reading
import AnchoredLedger.Proofs.Calendar
import AnchoredLedger.Proofs.Text

/-! # Reading instants that were written

Every number is written in as many digits as are read, so that it does not matter what follows. With the
marks between them, date and time of day are read back part by part, and the calendar gives back the day.

* **`Reading.number_padded`** — numbers of a fixed width.
* **`Reading.date_toText`**, **`Reading.timeOfDay_clock`** — dates and times of day.
* **`Instant.ofText?_toText`** — whole seconds within the years of four digits; **`Instant.ofText?_ofSeconds`**
  says that these are all the times that a block can have. -/

namespace AnchoredLedger.Calendar

namespace Reading

/-! ## Numbers -/

theorem isDigit_of_mem_padded {width n : Nat} {c : Char} (h : c ∈ (padded width n).toList) :
    isDigit c = true := by
  have hdigit : c.isDigit = true := by
    simp only [padded, String.toList_ofList, List.mem_append] at h
    rcases h with hzero | hdigit
    · rw [List.eq_of_mem_replicate hzero]
      rfl
    · exact Nat.isDigit_of_mem_toDigits (by decide) (by decide) hdigit
  have hbounds : '0' ≤ c ∧ c ≤ '9' := by
    simp only [Char.isDigit, Bool.and_eq_true, decide_eq_true_eq] at hdigit
    exact hdigit
  rw [isDigit, digit?, if_pos hbounds]
  rfl

/-- A number that fits its width has just that many digits. -/
theorem length_padded {width n : Nat} (hwidth : 0 < width) (hn : n < Nat.pow 10 width) :
    (padded width n).toList.length = width := by
  have hlength := (Nat.length_toDigits_le_iff (b := 10) (by decide) hwidth).2 hn
  simp only [padded, String.toList_ofList, List.length_append, List.length_replicate]
  omega

/-- Zeros in front do not change a number. -/
theorem value_padded (width n : Nat) : value (padded width n).toList = n := by
  have hvalue : value (padded width n).toList = Nat.ofDigitChars 10 (padded width n).toList 0 := rfl
  rw [hvalue, padded, String.toList_ofList, Nat.ofDigitChars_append, Nat.ofDigitChars_replicate_zero,
    Nat.mul_zero, Nat.ofDigitChars_ten_toDigits]

/-- A number has at least one digit. -/
theorem exists_padded_eq (width n : Nat) :
    ∃ d more, (padded width n).toList = d :: more ∧ isDigit d = true := by
  cases hdigits : (padded width n).toList with
  | nil =>
    rw [padded, String.toList_ofList] at hdigits
    exact absurd (List.append_eq_nil_iff.1 hdigits).2 Nat.toDigits_ne_nil
  | cons d more =>
    have hmem : d ∈ (padded width n).toList := hdigits ▸ List.mem_cons_self
    exact ⟨d, more, rfl, isDigit_of_mem_padded hmem⟩

/-- **A number that fits its width is read**, whatever follows. -/
theorem number_padded {width n : Nat} (hwidth : 0 < width) (hn : n < Nat.pow 10 width) (rest : List Char) :
    number width ((padded width n).toList ++ rest) = some (n, rest) := by
  have hlength := length_padded hwidth hn
  have htake : ((padded width n).toList ++ rest).take width = (padded width n).toList :=
    List.take_left' hlength
  have hdrop : ((padded width n).toList ++ rest).drop width = rest := List.drop_left' hlength
  have hdigits : (padded width n).toList.takeWhile isDigit = (padded width n).toList :=
    List.takeWhile_eq_self_iff.2 fun c => isDigit_of_mem_padded
  have hvalue := value_padded width n
  unfold number
  rw [htake, hdigits]
  obtain ⟨d, more, heq, -⟩ := exists_padded_eq width n
  rw [heq] at hlength hvalue hdrop ⊢
  simp only [hvalue, hlength, hdrop]

/-! ## Numbers and marks -/

theorem isBlank_eq_false_of_isDigit {c : Char} (h : isDigit c = true) : Text.isBlank c = false := by
  have hascii : c.toNat < 128 := by
    have hle : c ≤ '9' := by
      by_contra hbeyond
      rw [isDigit, digit?, if_neg fun hbounds => hbeyond hbounds.2] at h
      cases h
    exact Nat.lt_of_le_of_lt (show c.toNat ≤ '9'.toNat from hle) (by decide)
  exact Text.forall_ascii (P := fun c => isDigit c = true → Text.isBlank c = false) (by decide) hascii h

/-- No blank stands before a number. -/
theorem dropBlanks_padded (width n : Nat) (rest : List Char) :
    Text.dropBlanks ((padded width n).toList ++ rest) = (padded width n).toList ++ rest := by
  obtain ⟨d, more, heq, hd⟩ := exists_padded_eq width n
  rw [heq, List.cons_append, Text.dropBlanks_cons (isBlank_eq_false_of_isDigit hd)]

/-- A field is read if it is within its bounds. -/
theorem field_padded {lowest highest n : Nat} (hn : n < 100) (hbounds : lowest ≤ n ∧ n ≤ highest)
    (rest : List Char) : field lowest highest ((padded 2 n).toList ++ rest) = some (n, rest) := by
  unfold field
  rw [dropBlanks_padded, number_padded (by decide) hn]
  exact if_pos hbounds

/-- A mark is read that is no blank. -/
theorem mark_cons {c : Char} (h : Text.isBlank c = false) (rest : List Char) :
    mark c (c :: rest) = some ((), rest) := by
  unfold mark
  rw [Text.dropBlanks_cons h]
  exact if_pos rfl

/-- A year of four digits is read. -/
theorem year_yearText {y : Int} (h : 0 ≤ y ∧ y ≤ 9999) (rest : List Char) :
    year ((yearText y).toList ++ rest) = some (y, rest) := by
  have hnumber : number 4 ((padded 4 y.toNat).toList ++ rest) = some (y.toNat, rest) :=
    number_padded (by decide) (show y.toNat < 10000 by omega) rest
  have hyear : (y.toNat : Int) = y := Int.toNat_of_nonneg h.1
  obtain ⟨d, more, heq, hd⟩ := exists_padded_eq 4 y.toNat
  rw [yearText, if_pos h, year, dropBlanks_padded]
  rw [heq, List.cons_append] at hnumber ⊢
  split
  · rename_i hsign
    rw [(List.cons.inj hsign).1] at hd
    cases hd
  · rename_i hsign
    rw [(List.cons.inj hsign).1] at hd
    cases hd
  · rw [hnumber, Option.map_some, hyear]

/-! ## Dates and times of day -/

/-- **A date of the calendar is read** if its year has four digits. -/
theorem date_toText {d : Date} (hyear : 0 ≤ d.year ∧ d.year ≤ 9999) (hvalid : d.isValid = true)
    (rest : List Char) : date (d.toText.toList ++ rest) = some (d, rest) := by
  obtain ⟨hmonth, hday⟩ := Date.bounds_of_isValid hvalid
  have hrange : yearInRange d.year = true := by
    simp only [yearInRange, Bool.and_eq_true, decide_eq_true_eq]
    omega
  have htext : d.toText.toList ++ rest = (yearText d.year).toList ++
      '-' :: ((padded 2 d.month).toList ++ '-' :: ((padded 2 d.day).toList ++ rest)) := by
    simp [Date.toText]
  have hmark : ∀ cs, mark '-' ('-' :: cs) = some ((), cs) := mark_cons (by decide)
  rw [htext]
  simp only [date, year_yearText hyear, hmark, field_padded (show d.month < 100 by omega) hmonth,
    field_padded (show d.day < 100 by omega) hday, Option.bind_eq_bind, Option.bind_some, hrange, hvalid,
    Bool.and_self, if_true]

/-- **A time of day is read**, unless a fraction follows. -/
theorem timeOfDay_clock {h m s : Nat} (hh : h < 24) (hm : m < 60) (hs : s < 60) {rest : List Char}
    (hrest : rest.head? ≠ some '.') :
    timeOfDay ((padded 2 h).toList ++ ':' :: ((padded 2 m).toList ++ ':' :: ((padded 2 s).toList ++ rest))) =
      some ((3600 * h + 60 * m + s, 0), rest) := by
  have hfraction : fraction rest = some (0, rest) := by
    unfold fraction
    split
    · exact absurd rfl hrest
    · rfl
  have hmark : ∀ cs, mark ':' (':' :: cs) = some ((), cs) := mark_cons (by decide)
  have hleap : s ≠ 60 := by omega
  simp only [timeOfDay, hmark, field_padded (show h < 100 by omega) (show 0 ≤ h ∧ h ≤ 23 by omega),
    field_padded (show m < 100 by omega) (show 0 ≤ m ∧ m ≤ 59 by omega),
    field_padded (show s < 100 by omega) (show 0 ≤ s ∧ s ≤ 60 by omega), Option.bind_eq_bind, Option.bind_some,
    hfraction, if_neg hleap]

end Reading

namespace Instant

/-! ## Instants -/

/-- **A whole second is read back** if its year has four digits. -/
theorem ofText?_toText {t : Instant} (hwhole : t.nanos = 0) (hyear : 0 ≤ t.date.year ∧ t.date.year ≤ 9999) :
    ofText? t.toText = some t := by
  have hsecond : t.secondOfDay < 86400 := by
    unfold secondOfDay
    omega
  have hseconds : 86400 * t.date.toDays + (t.secondOfDay : Int) = t.seconds := by
    unfold date secondOfDay
    rw [Date.toDays_ofDays]
    omega
  have htime : 3600 * (t.secondOfDay / 3600) + 60 * (t.secondOfDay / 60 % 60) + t.secondOfDay % 60 =
      t.secondOfDay := by omega
  have htext : t.toText.toList = t.date.toText.toList ++ 'T' :: ((padded 2 (t.secondOfDay / 3600)).toList ++
      ':' :: ((padded 2 (t.secondOfDay / 60 % 60)).toList ++
        ':' :: ((padded 2 (t.secondOfDay % 60)).toList ++ ['Z']))) := by
    simp [toText, clockText, fractionText, hwhole]
  have hrange : Reading.yearInRange t.date.year = true := by
    simp only [Reading.yearInRange, Bool.and_eq_true, decide_eq_true_eq]
    omega
  have hclock := Reading.timeOfDay_clock (show t.secondOfDay / 3600 < 24 by omega)
    (show t.secondOfDay / 60 % 60 < 60 by omega) (show t.secondOfDay % 60 < 60 by omega)
    (show ['Z'].head? ≠ some '.' by decide)
  have hzone : Reading.zone (Text.dropBlanks ['Z']) = some (0, []) := rfl
  have hsame : (⟨86400 * t.date.toDays + (t.secondOfDay : Int) - 0, 0⟩ : Instant) = t := by
    rw [hseconds, Int.sub_zero, ← hwhole]
  have hinstant : Reading.instant t.toText.toList = some (t, []) := by
    rw [htext]
    simp only [Reading.instant, Reading.date_toText hyear (Date.isValid_ofDays _), Reading.separator, hclock,
      htime, hzone, hsame, hrange, Option.bind_eq_bind, Option.bind_some, true_or, if_true]
  rw [ofText?, hinstant]
  rfl

/-- **Every time that a block can have is read back.** -/
theorem ofText?_ofSeconds (time : UInt32) : ofText? (ofSeconds time).toText = some (ofSeconds time) := by
  have hlast : time.toNat < 2 ^ 32 := time.toNat_lt
  refine ofText?_toText rfl (Date.year_ofDays_bounds ?_ ?_)
  · simp only [ofSeconds, epoch]
    omega
  · have hyear : yearStart 10000 = 3652425 := by decide
    simp only [ofSeconds, epoch, hyear]
    omega

end Instant

end AnchoredLedger.Calendar
