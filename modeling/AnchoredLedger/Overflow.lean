/-! # Checked addition

Sums of machine words are checked: a sum that leaves the range of the word is an outcome of its own
and never wraps around.

* **`Overflow`** — that outcome.
* **`Overflow.add8`**, **`add64`**, **`addInt64`** — checked sums of the three kinds of word in use. -/

namespace AnchoredLedger

/-- **A sum left the range of its word.** -/
inductive Overflow where
  /-- An addition overflowed. -/
  | addition
deriving DecidableEq, Repr

namespace Overflow

/-- The wording of an overflow. -/
def message : Overflow → String
  | addition => "attempt to add with overflow"

/-- The sum of two octets. -/
def add8 (a b : UInt8) : Except Overflow UInt8 :=
  if a.toNat + b.toNat < UInt8.size then .ok (a + b) else .error .addition

/-- The sum of two 64-bit words. -/
def add64 (a b : UInt64) : Except Overflow UInt64 :=
  if a.toNat + b.toNat < UInt64.size then .ok (a + b) else .error .addition

/-- The sum of two signed 64-bit words. -/
def addInt64 (a b : Int64) : Except Overflow Int64 :=
  if Int64.minValue.toInt ≤ a.toInt + b.toInt ∧ a.toInt + b.toInt ≤ Int64.maxValue.toInt then
    .ok (a + b)
  else .error .addition

theorem add64_eq_ok {a b c : UInt64} (h : add64 a b = .ok c) : c.toNat = a.toNat + b.toNat := by
  unfold add64 at h
  split at h
  · injection h with h
    subst h
    rw [UInt64.toNat_add, Nat.mod_eq_of_lt (by assumption)]
  · contradiction

end Overflow

end AnchoredLedger
