/-! # Arithmetic modulo a number

Sums, differences, products, powers and inverses of residues, held as natural numbers below the
modulus.

* **`Modular.power m bits a n`** — `a ^ n % m`, by squaring, for exponents below `2 ^ bits`.
* **`Modular.inverse m a`** — the inverse for a prime modulus of at most 256 bits, as a power. -/

namespace AnchoredLedger.Modular

/-- The difference of two residues. -/
def sub (m a b : Nat) : Nat := (a + (m - b % m)) % m

/-- **The power of a residue**, over the `bits` low bits of the exponent. -/
def power (m : Nat) : Nat → Nat → Nat → Nat
  | 0, _, _ => 1 % m
  | bits + 1, a, n =>
    let r := power m bits (a * a % m) (n / 2)
    if n % 2 = 1 then r * a % m else r

/-- **The inverse of a residue** modulo a prime of at most 256 bits; zero has the inverse zero. -/
def inverse (m a : Nat) : Nat := power m 256 a (m - 2)

end AnchoredLedger.Modular
