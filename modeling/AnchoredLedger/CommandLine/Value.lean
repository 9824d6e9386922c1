/-! # Values of options

Texts on a command line that stand for numbers and paths. Digits are the ten decimal ones; a sign may
stand in front of them, and a number out of its range is none.

* **`natural?`**, **`integer?`**, **`bounded?`** — numbers.
* **`word32?`**, **`word64?`**, **`signed64?`**, **`path?`** — the values that options have. -/

namespace AnchoredLedger.CommandLine

/-- The number written by decimal digits, of which there is at least one. -/
def natural? (cs : List Char) : Option Nat :=
  if cs.isEmpty then none
  else cs.foldlM (fun n c => if '0' ≤ c ∧ c ≤ '9' then some (10 * n + (c.toNat - 48)) else none) 0

/-- A number with an optional sign. -/
def integer? (s : String) : Option Int :=
  match s.toList with
  | '-' :: cs => (natural? cs).map fun n => -(n : Int)
  | '+' :: cs => (natural? cs).map fun n => (n : Int)
  | cs => (natural? cs).map fun n => (n : Int)

/-- An integer between two bounds. -/
def bounded? (lowest highest : Int) (s : String) : Option Int :=
  match integer? s with
  | none => none
  | some n => if lowest ≤ n ∧ n ≤ highest then some n else none

/-- A 32-bit word. -/
def word32? (s : String) : Option UInt32 :=
  (bounded? 0 0xFFFFFFFF s).map fun n => UInt32.ofNat n.toNat

/-- A 64-bit word, without a minus sign even for zero. -/
def word64? (s : String) : Option UInt64 :=
  if s.startsWith "-" then none
  else (bounded? 0 0xFFFFFFFFFFFFFFFF s).map fun n => UInt64.ofNat n.toNat

/-- A signed 64-bit word. -/
def signed64? (s : String) : Option Int64 :=
  (bounded? (-0x8000000000000000) 0x7FFFFFFFFFFFFFFF s).map Int64.ofInt

/-- A path, which is not empty. -/
def path? (s : String) : Option String := if s.isEmpty then none else some s

end AnchoredLedger.CommandLine
