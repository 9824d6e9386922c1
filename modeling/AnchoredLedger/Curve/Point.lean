import AnchoredLedger.Curve.Modular

/-! # The curve secp256k1

The points of `y² = x³ + 7` over the field of `prime` elements, with their addition. Points are
carried in projective form `(x / z², y / z³)`, where `z = 0` is the point at infinity, so that only
the last step of a computation inverts.

* **`Curve.prime`**, **`Curve.order`**, **`Curve.generator`** — the standard's numbers.
* **`Curve.add`**, **`Curve.double`**, **`Curve.multiply`** — the group law.
* **`Curve.Affine`** — a finite point by its coordinates, with its compressed form. -/

namespace AnchoredLedger.Curve

/-- The number of elements of the field. -/
def prime : Nat := 0xFFFFFFFFFFFFFFFFFFFFFFFFFFFFFFFFFFFFFFFFFFFFFFFFFFFFFFFEFFFFFC2F

/-- The number of points. -/
def order : Nat := 0xFFFFFFFFFFFFFFFFFFFFFFFFFFFFFFFEBAAEDCE6AF48A03BBFD25E8CD0364141

/-- **A point in projective form.** -/
structure Point where
  /-- First coordinate, times `z²`. -/
  x : Nat
  /-- Second coordinate, times `z³`. -/
  y : Nat
  /-- The divisor; zero at infinity. -/
  z : Nat
deriving DecidableEq, Repr

/-- **A finite point by its coordinates.** -/
structure Affine where
  /-- First coordinate. -/
  x : Nat
  /-- Second coordinate. -/
  y : Nat
deriving DecidableEq, Repr

/-- The generator of the group. -/
def generator : Affine :=
  ⟨0x79BE667EF9DCBBAC55A06295CE870B07029BFCDB2DCE28D959F2815B16F81798,
    0x483ADA7726A3C4655DA4FBFC0E1108A8FD17B448A68554199C47D08FFB10D4B8⟩

/-- The point at infinity. -/
def infinity : Point := ⟨1, 1, 0⟩

/-- A finite point in projective form. -/
def Affine.toPoint (a : Affine) : Point := ⟨a.x, a.y, 1⟩

/-- The coordinates of a point, if it is finite. -/
def Point.toAffine? (p : Point) : Option Affine :=
  if p.z = 0 then none
  else
    let i := Modular.inverse prime p.z
    let i2 := i * i % prime
    some ⟨p.x * i2 % prime, p.y * (i2 * i % prime) % prime⟩

/-! ## The group law -/

/-- The sum of a point with itself. -/
def double (p : Point) : Point :=
  if p.z = 0 || p.y = 0 then infinity
  else
    let yy := p.y * p.y % prime
    let s := 4 * p.x * yy % prime
    let m := 3 * p.x * p.x % prime
    let x := Modular.sub prime (m * m) (2 * s)
    ⟨x, Modular.sub prime (m * Modular.sub prime s x) (8 * (yy * yy % prime)),
      2 * p.y * p.z % prime⟩

/-- **The sum of two points.** -/
def add (p q : Point) : Point :=
  if p.z = 0 then q
  else if q.z = 0 then p
  else
    let pz := p.z * p.z % prime
    let qz := q.z * q.z % prime
    let u := p.x * qz % prime
    let v := q.x * pz % prime
    let s := p.y * (qz * q.z % prime) % prime
    let t := q.y * (pz * p.z % prime) % prime
    if u = v then
      if s = t then double p else infinity
    else
      let h := Modular.sub prime v u
      let r := Modular.sub prime t s
      let hh := h * h % prime
      let hhh := hh * h % prime
      let w := u * hh % prime
      let x := Modular.sub prime (r * r) (hhh + 2 * w)
      ⟨x, Modular.sub prime (r * Modular.sub prime w x) (s * hhh), h * (p.z * q.z % prime) % prime⟩

/-- The multiple of a point by the `bits` low bits of a number, added up from the highest bit. -/
def multiplyBits (p : Point) (n : Nat) : Nat → Point → Point
  | 0, sum => sum
  | bits + 1, sum =>
    let twice := double sum
    multiplyBits p n bits (if n.testBit bits then add twice p else twice)

/-- **The multiple of a point** by a number below `2 ^ 256`. -/
def multiply (n : Nat) (p : Point) : Point := multiplyBits p n 256 infinity

/-! ## Coordinates -/

/-- The right side of the equation of the curve. -/
def cubic (x : Nat) : Nat := (x * x % prime * x + 7) % prime

/-- Whether coordinates satisfy the equation of the curve. -/
def Affine.onCurve (a : Affine) : Bool := a.y * a.y % prime = cubic a.x

/-- The point with a given first coordinate and parity of the second, if there is one. -/
def lift? (x : Nat) (odd : Bool) : Option Affine :=
  let y := Modular.power prime 256 (cubic x) ((prime + 1) / 4)
  if y * y % prime = cubic x then
    some ⟨x, if (y % 2 == 1) = odd then y else (prime - y) % prime⟩
  else none

end AnchoredLedger.Curve
