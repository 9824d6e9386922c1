import AnchoredLedger.Calendar.Instant
import AnchoredLedger.Text.Blank

/-! # Reading instants

Times are read in the form of RFC 3339, with some latitude: blanks may stand before each number and
before the marks between them, a blank may part date and time, years may have a sign and more
digits, and the zone may be `Z`, `UTC` in any case, or an offset whose hours and minutes are parted
by any colons and blanks.

* **`Instant.ofText?`** — the instant a text names, if it has that form and the calendar has the
  day. -/

namespace AnchoredLedger.Calendar

namespace Reading

/-- A step of reading: what it gives, with the characters that follow. -/
abbrev Step (α : Type) : Type := List Char → Option (α × List Char)

/-- The value of a decimal digit. -/
def digit? (c : Char) : Option Nat :=
  if '0' ≤ c ∧ c ≤ '9' then some (c.toNat - 48) else none

/-- Whether a character is a decimal digit. -/
def isDigit (c : Char) : Bool := (digit? c).isSome

/-- The number written by decimal digits. -/
def value (ds : List Char) : Nat := ds.foldl (fun n c => 10 * n + (c.toNat - 48)) 0

/-- The digits a text starts with. -/
def digits : Step (List Char) := fun cs =>
  match cs.takeWhile isDigit with
  | [] => none
  | ds => some (ds, cs.dropWhile isDigit)

/-- At least one and at most `width` digits. -/
def number (width : Nat) : Step Nat := fun cs =>
  match (cs.take width).takeWhile isDigit with
  | [] => none
  | ds => some (value ds, cs.drop ds.length)

/-- A number of at most two digits between the bounds, with blanks before it. -/
def field (lowest highest : Nat) : Step Nat := fun cs =>
  match number 2 (Text.dropBlanks cs) with
  | none => none
  | some (n, rest) => if lowest ≤ n ∧ n ≤ highest then some (n, rest) else none

/-- The given mark, with blanks before it. -/
def mark (c : Char) : Step Unit := fun cs =>
  match Text.dropBlanks cs with
  | d :: rest => if d = c then some ((), rest) else none
  | [] => none

/-- The years of the calendar. -/
def yearInRange (year : Int) : Bool := -262143 ≤ year && year ≤ 262142

/-- A year: four digits at most, or any number of them after a sign; blanks may stand before it. -/
def year : Step Int := fun cs =>
  match Text.dropBlanks cs with
  | '-' :: rest => (digits rest).map fun r => (-(value r.1 : Int), r.2)
  | '+' :: rest => (digits rest).map fun r => ((value r.1 : Int), r.2)
  | rest => (number 4 rest).map fun r => ((r.1 : Int), r.2)

/-- A day of the calendar. -/
def date : Step Date := fun cs => do
  let (y, cs) ← year cs
  let (_, cs) ← mark '-' cs
  let (m, cs) ← field 1 12 cs
  let (_, cs) ← mark '-' cs
  let (d, cs) ← field 1 31 cs
  let day : Date := ⟨y, m, d⟩
  if yearInRange y && day.isValid then some (day, cs) else none

/-- What parts date and time. -/
def separator : Step Unit
  | c :: rest => if c = 'T' ∨ c = 't' ∨ c = ' ' then some ((), rest) else none
  | [] => none

/-- A fraction in nanoseconds: up to nine digits count and further ones are passed over. -/
def fraction : Step Nat
  | '.' :: rest =>
    match (rest.take 9).takeWhile isDigit with
    | [] => none
    | ds => some (value ds * Nat.pow 10 (9 - ds.length), rest.dropWhile isDigit)
  | rest => some (0, rest)

/-- The second of the day with its nanoseconds. A sixtieth second is the leap second. -/
def timeOfDay : Step (Nat × Nat) := fun cs => do
  let (h, cs) ← field 0 23 cs
  let (_, cs) ← mark ':' cs
  let (m, cs) ← field 0 59 cs
  let (_, cs) ← mark ':' cs
  let (s, cs) ← field 0 60 cs
  let (n, cs) ← fraction cs
  if s = 60 then some ((3600 * h + 60 * m + 59, n + 1000000000), cs)
  else some ((3600 * h + 60 * m + s, n), cs)

/-- Two digits between the bounds. -/
def twoDigits (highest : Nat) : Step Nat
  | c :: d :: rest =>
    if isDigit c && isDigit d && value [c, d] ≤ highest then some (value [c, d], rest) else none
  | _ => none

/-- The sign of an offset: whether it is negative. -/
def sign : Step Bool
  | '+' :: rest => some (false, rest)
  | '-' :: rest => some (true, rest)
  | '\u2212' :: rest => some (true, rest)
  | _ => none

/-- The offset of a zone from universal time, in seconds; it stays below one day. -/
def zone : Step Int := fun cs =>
  match cs with
  | 'Z' :: rest => some (0, rest)
  | 'z' :: rest => some (0, rest)
  | u :: t :: c :: rest =>
    if u.toLower = 'u' ∧ t.toLower = 't' ∧ c.toLower = 'c' then some (0, rest) else offset cs
  | _ => offset cs
where
  /-- Sign, hours and minutes. -/
  offset : Step Int := fun cs => do
    let (negative, cs) ← sign cs
    let (h, cs) ← twoDigits 23 cs
    let (m, cs) ← twoDigits 59 (cs.dropWhile fun c => c = ':' || Text.isBlank c)
    let seconds : Int := 3600 * h + 60 * m
    some (if negative then -seconds else seconds, cs)

/-- An instant, with everything that may stand around its parts. -/
def instant : Step Instant := fun cs => do
  let (day, cs) ← date cs
  let (_, cs) ← separator cs
  let (time, cs) ← timeOfDay cs
  let (offset, cs) ← zone (Text.dropBlanks cs)
  let t : Instant := ⟨86400 * day.toDays + time.1 - offset, time.2⟩
  if yearInRange t.date.year then some (t, cs) else none

end Reading

/-- **The instant that a text names**; nothing but blanks may follow it. -/
def Instant.ofText? (s : String) : Option Instant :=
  match Reading.instant s.toList with
  | some (t, rest) => if (Text.dropBlanks rest).isEmpty then some t else none
  | none => none

end AnchoredLedger.Calendar
