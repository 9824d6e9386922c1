import AnchoredLedger.Curve.Point
import AnchoredLedger.FixedOctets

/-! # Public keys and secrets

A secret is a number below the order of the curve; its public key is that multiple of the generator.

* **`Secret`** — a usable secret; **`Secret.ofOctets?`** reads 32 octets, **`Secret.toOctets`** writes
  them.
* **`PublicKey.ofOctets?`** — a point from its compressed, full or hybrid form.
* **`PublicKey.compressed`** — the compressed form, 33 octets. -/

namespace AnchoredLedger

/-- **A usable secret**: neither zero nor beyond the order of the curve. -/
structure Secret where
  /-- The number. -/
  value : Nat
  /-- It is not zero. -/
  pos : 0 < value
  /-- It is below the order. -/
  lt : value < Curve.order
deriving DecidableEq, Repr

namespace Secret

/-- The secret with the given number, if it is usable. -/
def ofNat? (n : Nat) : Option Secret :=
  if h : 0 < n ∧ n < Curve.order then some ⟨n, h.1, h.2⟩ else none

/-- The secret written in 32 octets, most significant first. -/
def ofOctets? (bs : Octets) : Option Secret :=
  if bs.length = 32 then ofNat? (Octets.toNatBE bs) else none

/-- The 32 octets of a secret. -/
def toOctets (s : Secret) : Octets := Octets.ofNatBE 32 s.value

@[simp] theorem length_toOctets (s : Secret) : s.toOctets.length = 32 := by simp [toOctets]

end Secret

/-- **A public key**: a finite point. -/
abbrev PublicKey : Type := Curve.Affine

namespace PublicKey

open Curve

/-- The public key of a secret. The multiple of the generator by a usable secret is finite. -/
def ofSecret (s : Secret) : PublicKey :=
  (multiply s.value generator.toPoint).toAffine?.getD generator

/-- The compressed form: the parity of the second coordinate, then the first coordinate. -/
def compressed (k : PublicKey) : Octets :=
  (if k.y % 2 = 0 then 0x02 else 0x03) :: Octets.ofNatBE 32 k.x

@[simp] theorem length_compressed (k : PublicKey) : k.compressed.length = 33 := by
  simp [compressed]

/-- The compressed form as a value of fixed width. -/
def toPlanKey (k : PublicKey) : PlanKey := ⟨k.compressed, k.length_compressed⟩

/-- The point with the given coordinates if they are below the prime and on the curve. -/
def ofCoordinates? (x y : Nat) : Option PublicKey :=
  if x < prime ∧ y < prime ∧ Affine.onCurve ⟨x, y⟩ then some ⟨x, y⟩ else none

/-- **The public key of a serialized form.** The marks 2 and 3 announce a first coordinate with the
parity of the second, 4 both coordinates, and 6 and 7 both with a parity that must agree. -/
def ofOctets? : Octets → Option PublicKey
  | [] => none
  | mark :: body =>
    if body.length = 32 then
      let x := Octets.toNatBE body
      if (mark = 2 ∨ mark = 3) ∧ x < prime then lift? x (mark = 3) else none
    else if body.length = 64 then
      let x := Octets.toNatBE (body.take 32)
      let y := Octets.toNatBE (body.drop 32)
      if mark = 4 ∨ (mark = 6 ∧ y % 2 = 0) ∨ (mark = 7 ∧ y % 2 = 1) then ofCoordinates? x y
      else none
    else none

end PublicKey

end AnchoredLedger
