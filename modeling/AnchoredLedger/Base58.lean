import AnchoredLedger.Octets

/-! # Base-58 texts

Octets as a number in base 58, with an alphabet that leaves out the look-alikes `0`, `O`, `I` and `l`.
A number forgets the zeros in front of it, so each zero octet in front is written as one `1`.

* **`Base58.encode bs`** — the text of an octet string.
* **`Base58.decode? s`** — the octets of a text, if all its characters are in the alphabet. -/

namespace AnchoredLedger.Base58

/-- **The alphabet**, in the order of the digits. -/
def alphabet : List Char :=
  ['1', '2', '3', '4', '5', '6', '7', '8', '9', 'A', 'B', 'C', 'D', 'E', 'F', 'G', 'H', 'J', 'K',
    'L', 'M', 'N', 'P', 'Q', 'R', 'S', 'T', 'U', 'V', 'W', 'X', 'Y', 'Z', 'a', 'b', 'c', 'd', 'e',
    'f', 'g', 'h', 'i', 'j', 'k', 'm', 'n', 'o', 'p', 'q', 'r', 's', 't', 'u', 'v', 'w', 'x', 'y',
    'z']

/-- The character of a digit. -/
def digit (n : Nat) : Char := alphabet.getD n '1'

/-- The digit of a character. -/
def digitValue? (c : Char) : Option Nat := alphabet.findIdx? (· == c)

/-- The digits of a number, highest first, put in front of the given characters. -/
def digitsOnto (n : Nat) (after : List Char) : List Char :=
  if n = 0 then after else digitsOnto (n / 58) (digit (n % 58) :: after)
termination_by n
decreasing_by omega

/-- The number of zero octets in front. -/
def leadingZeros (bs : Octets) : Nat := (bs.takeWhile (· == 0)).length

/-- **The text of an octet string.** -/
def encode (bs : Octets) : String :=
  String.ofList (List.replicate (leadingZeros bs) '1' ++ digitsOnto (Octets.toNatBE bs) [])

/-- The octets of a number, most significant first and without zeros in front, put in front of the
given octets. -/
def octetsOnto (n : Nat) (after : Octets) : Octets :=
  if n = 0 then after else octetsOnto (n / 256) (UInt8.ofNat n :: after)
termination_by n
decreasing_by omega

/-- The number written by digits, highest first. -/
def value? (cs : List Char) : Option Nat :=
  cs.foldlM (fun n c => (digitValue? c).map (58 * n + ·)) 0

/-- **The octets of a text.** -/
def decode? (s : String) : Option Octets :=
  let ones := (s.toList.takeWhile (· == '1')).length
  (value? s.toList).map fun n => List.replicate ones 0 ++ octetsOnto n []

end AnchoredLedger.Base58
