/-! # Octet strings and fixed-width numbers

Everything that travels on the wire is a list of octets. This file holds the conversions between
octets and numbers that all the formats share:

* **`Octets.ofNatLE w n`** / **`Octets.toNatLE`** — a number as exactly `w` octets, least
  significant first, and back.
* **`Octets.ofNatBE w n`** / **`Octets.toNatBE`** — the same with the most significant octet first.
* **`Octets.word32`** / **`Octets.word64`** — the two word sizes of the wire formats.
* **`Octets.holds n bs`** — whether at least `n` octets are left, decided without measuring the
  whole list. -/

namespace AnchoredLedger

/-- **An octet string**: the wire form of every value. -/
abbrev Octets : Type := List UInt8

namespace Octets

/-! ## Least significant octet first -/

/-- The `w` octets of `n`, least significant first; higher digits are dropped. -/
def ofNatLE : Nat → Nat → Octets
  | 0, _ => []
  | w + 1, n => UInt8.ofNat n :: ofNatLE w (n / 256)

/-- The number whose octets are given, least significant first. -/
def toNatLE : Octets → Nat
  | [] => 0
  | b :: bs => b.toNat + 256 * toNatLE bs

@[simp] theorem ofNatLE_zero (n : Nat) : ofNatLE 0 n = [] := rfl

@[simp] theorem ofNatLE_succ (w n : Nat) :
    ofNatLE (w + 1) n = UInt8.ofNat n :: ofNatLE w (n / 256) := rfl

@[simp] theorem toNatLE_nil : toNatLE [] = 0 := rfl

@[simp] theorem toNatLE_cons (b : UInt8) (bs : Octets) :
    toNatLE (b :: bs) = b.toNat + 256 * toNatLE bs := rfl

@[simp] theorem length_ofNatLE (w n : Nat) : (ofNatLE w n).length = w := by
  induction w generalizing n with
  | zero => rfl
  | succ w ih => simp [ih]

/-! ## Most significant octet first -/

/-- The `w` octets of `n`, most significant first. -/
def ofNatBE (w n : Nat) : Octets := (ofNatLE w n).reverse

/-- The number whose octets are given, most significant first. -/
def toNatBE (bs : Octets) : Nat := bs.foldl (fun n b => 256 * n + b.toNat) 0

@[simp] theorem length_ofNatBE (w n : Nat) : (ofNatBE w n).length = w := by simp [ofNatBE]

/-! ## Words -/

/-- The four octets of a 32-bit word, least significant first. -/
def word32 (w : UInt32) : Octets := ofNatLE 4 w.toNat

/-- The eight octets of a 64-bit word, least significant first. -/
def word64 (w : UInt64) : Octets := ofNatLE 8 w.toNat

/-- The 32-bit word with the given octets, least significant first. -/
def toWord32 (bs : Octets) : UInt32 := UInt32.ofNat (toNatLE bs)

/-- The 64-bit word with the given octets, least significant first. -/
def toWord64 (bs : Octets) : UInt64 := UInt64.ofNat (toNatLE bs)

@[simp] theorem length_word32 (w : UInt32) : (word32 w).length = 4 := length_ofNatLE 4 _

@[simp] theorem length_word64 (w : UInt64) : (word64 w).length = 8 := length_ofNatLE 8 _

/-! ## Length tests -/

/-- **Whether at least `n` octets are left**, looking at no more than `n` of them. -/
def holds : Nat → Octets → Bool
  | 0, _ => true
  | _ + 1, [] => false
  | n + 1, _ :: bs => holds n bs

theorem holds_iff (n : Nat) (bs : Octets) : holds n bs = true ↔ n ≤ bs.length := by
  induction n generalizing bs with
  | zero => simp [holds]
  | succ n ih => cases bs <;> simp [holds, ih]

end Octets

end AnchoredLedger
