/-! # The Gregorian calendar

Days are counted from the first of January 1970, in both directions; years are counted with a year
zero and the Gregorian rule throughout.

* **`Calendar.Date`** — year, month and day; **`Date.isValid`** — whether the calendar has it.
* **`Date.toDays`** / **`Date.ofDays`** — to and from the count of days.
* **`Calendar.yearStart`** — the day on which a year begins, from which both are made. -/

namespace AnchoredLedger.Calendar

/-- **A day by year, month and day of the month.** -/
structure Date where
  /-- The year; year zero precedes year one. -/
  year : Int
  /-- The month, from 1. -/
  month : Nat
  /-- The day of the month, from 1. -/
  day : Nat
deriving DecidableEq, Repr

/-- Whether a year has a 29th of February. -/
def isLeap (year : Int) : Bool := year % 4 = 0 && (year % 100 ≠ 0 || year % 400 = 0)

/-- The lengths of the months of a year. -/
def monthLengths (year : Int) : List Nat :=
  [31, if isLeap year then 29 else 28, 31, 30, 31, 30, 31, 31, 30, 31, 30, 31]

/-- The days from the start of year zero to the start of a year: 365 for each year and one for each
leap year before it. -/
def yearStart (year : Int) : Int :=
  365 * year + (year + 3) / 4 - (year + 99) / 100 + (year + 399) / 400

/-- The days from the start of year zero to the first of January 1970. -/
def epoch : Int := 719528

/-- The year that contains a day counted from the start of year zero. The mean length of a year
gives a first guess, which is at most one off. -/
def yearOf (day : Int) : Int :=
  let guess := 400 * day / 146097
  if day < yearStart guess then guess - 1
  else if yearStart (guess + 1) ≤ day then guess + 1
  else guess

/-- Month and day of the month, both from 1, of a day of the year counted from zero. -/
def splitMonths : List Nat → Nat → Nat × Nat
  | [], n => (1, n + 1)
  | length :: rest, n =>
    if n < length then (1, n + 1)
    else
      let below := splitMonths rest (n - length)
      (below.1 + 1, below.2)

namespace Date

/-- Whether the calendar has the day. -/
def isValid (d : Date) : Bool :=
  match d.month with
  | 0 => false
  | m + 1 =>
    match (monthLengths d.year)[m]? with
    | none => false
    | some length => 1 ≤ d.day && d.day ≤ length

/-- The days from the first of January 1970 to a day of the calendar. -/
def toDays (d : Date) : Int :=
  yearStart d.year + ((monthLengths d.year).take (d.month - 1)).foldr Nat.add 0 + d.day - 1 - epoch

/-- **The day at a distance from the first of January 1970.** -/
def ofDays (n : Int) : Date :=
  let day := n + epoch
  let year := yearOf day
  let month := splitMonths (monthLengths year) (day - yearStart year).toNat
  ⟨year, month.1, month.2⟩

end Date

end AnchoredLedger.Calendar
