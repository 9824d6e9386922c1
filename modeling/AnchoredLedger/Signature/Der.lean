import AnchoredLedger.Curve.PublicKey

/-! # Signatures and their DER form

A signature is a pair of numbers below the order of the curve. It is written as a DER sequence of two
integers and read back strictly: lengths in their shortest form, no padding, nothing left over. An
integer that is negative or not below the order reads as zero, and no signature with a zero is valid.

* **`Signature`** — the pair.
* **`Signature.toDer`** / **`Signature.ofDer?`** — the DER form and the strict read of it. -/

namespace AnchoredLedger

/-- **A signature.** -/
structure Signature where
  /-- The first coordinate of the nonce point, modulo the order. -/
  r : Nat
  /-- The proof of the secret. -/
  s : Nat
deriving DecidableEq, Repr

namespace Signature

/-! ## Writing -/

/-- Octets without the zeros in front that a non-negative integer does not need. -/
def dropPadding : Octets → Octets
  | b :: c :: rest => if b = 0 ∧ c < 0x80 then dropPadding (c :: rest) else b :: c :: rest
  | bs => bs

/-- The octets of a number below `2 ^ 256` as an integer: most significant first, with one zero in
front where the highest bit is set. -/
def integerOctets (n : Nat) : Octets := dropPadding (0 :: Octets.ofNatBE 32 n)

/-- A DER integer. -/
def integer (n : Nat) : Octets :=
  let bs := integerOctets n
  0x02 :: UInt8.ofNat bs.length :: bs

/-- **The DER form**: a sequence of two integers. -/
def toDer (sig : Signature) : Octets :=
  let body := integer sig.r ++ integer sig.s
  0x30 :: UInt8.ofNat body.length :: body

/-! ## Reading -/

/-- The length that a DER value declares, with the octets after it. The long form is for lengths
from 128 on, without zeros in front, and must not exceed what follows. -/
def readLength? : Octets → Option (Nat × Octets)
  | [] => none
  | b :: rest =>
    if b < 0x80 then some (b.toNat, rest)
    else if b = 0x80 ∨ b = 0xFF then none
    else
      let count := b.toNat - 128
      let length := Octets.toNatBE (rest.take count)
      let after := rest.drop count
      if count ≤ rest.length ∧ rest.head? ≠ some 0 ∧ count ≤ 8 ∧ length ≤ after.length ∧ 128 ≤ length
      then some (length, after)
      else none

/-- Whether the octets of an integer carry a needless zero or 255 in front. -/
def isPadded : Octets → Bool
  | b :: c :: _ => (b = 0 && c < 0x80) || (b = 0xFF && 0x80 ≤ c)
  | _ => false

/-- The number that integer octets stand for, or zero where it is negative or not below the
order. -/
def integerValue (bs : Octets) : Nat :=
  if bs.head?.any (0x80 ≤ ·) then 0
  else
    let magnitude := if bs.head? = some 0 then bs.drop 1 else bs
    let n := Octets.toNatBE magnitude
    if magnitude.length ≤ 32 ∧ n < Curve.order then n else 0

/-- The next DER integer, with the octets after it. -/
def readInteger? : Octets → Option (Nat × Octets)
  | 0x02 :: rest =>
    match readLength? rest with
    | none => none
    | some (length, after) =>
      let bs := after.take length
      if length = 0 ∨ after.length < length ∨ isPadded bs then none
      else some (integerValue bs, after.drop length)
  | _ => none

/-- **The signature with a DER form.** -/
def ofDer? : Octets → Option Signature
  | 0x30 :: rest =>
    match readLength? rest with
    | none => none
    | some (length, body) =>
      if length ≠ body.length then none
      else
        match readInteger? body with
        | none => none
        | some (r, afterR) =>
          match readInteger? afterR with
          | none => none
          | some (s, afterS) => if afterS.isEmpty then some ⟨r, s⟩ else none
  | _ => none

end Signature

end AnchoredLedger
