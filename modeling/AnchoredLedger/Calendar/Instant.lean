import AnchoredLedger.Calendar

/-! # Instants and their written form

An instant is a second counted from the epoch with a fraction in nanoseconds. A fraction of a
second or more marks a leap second, which belongs to the last second of its minute.

* **`Instant`** — seconds and fraction.
* **`Instant.clockText`** — date and time of day, as in `2017-07-14T02:40:00`.
* **`Instant.toText`** — the form with `Z`, with as many digits of the fraction, in threes, as keep it
  exact. -/

namespace AnchoredLedger.Calendar

/-- **An instant**, in coordinated universal time. -/
structure Instant where
  /-- Seconds since the epoch. -/
  seconds : Int
  /-- Nanoseconds; a thousand million or more within a leap second. -/
  nanos : Nat
deriving DecidableEq, Repr

/-- A number in decimal, with zeros in front up to the given width. -/
def padded (width n : Nat) : String :=
  let digits := Nat.toDigits 10 n
  String.ofList (List.replicate (width - digits.length) '0' ++ digits)

/-- A year in four digits. Years outside 0 to 9999 carry their sign. -/
def yearText (year : Int) : String :=
  if 0 ≤ year ∧ year ≤ 9999 then padded 4 year.toNat
  else (if year < 0 then "-" else "+") ++ padded 4 year.natAbs

/-- A date as in `2017-07-14`. -/
def Date.toText (d : Date) : String :=
  yearText d.year ++ "-" ++ padded 2 d.month ++ "-" ++ padded 2 d.day

namespace Instant

/-- The instant at a whole number of seconds since the epoch. -/
def ofSeconds (time : UInt32) : Instant := ⟨time.toNat, 0⟩

/-- The day that contains the instant. -/
def date (t : Instant) : Date := Date.ofDays (t.seconds / 86400)

/-- The second of the day. -/
def secondOfDay (t : Instant) : Nat := (t.seconds % 86400).toNat

/-- **Date and time of day**, without a fraction. The leap second is the sixtieth of its minute. -/
def clockText (t : Instant) : String :=
  let s := t.secondOfDay
  let second := s % 60 + (if 1000000000 ≤ t.nanos then 1 else 0)
  t.date.toText ++ "T" ++ padded 2 (s / 3600) ++ ":" ++ padded 2 (s / 60 % 60) ++ ":"
    ++ padded 2 second

/-- The fraction, in the fewest of three, six or nine digits that are exact, or none. -/
def fractionText (t : Instant) : String :=
  let n := t.nanos % 1000000000
  if n = 0 then ""
  else if n % 1000000 = 0 then "." ++ padded 3 (n / 1000000)
  else if n % 1000 = 0 then "." ++ padded 6 (n / 1000)
  else "." ++ padded 9 n

/-- **The written form**, marked as universal time. -/
def toText (t : Instant) : String := t.clockText ++ t.fractionText ++ "Z"

end Instant

end AnchoredLedger.Calendar
