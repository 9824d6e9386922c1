import AnchoredLedger.Text.Octets

/-! # Hexadecimal texts

Two digits stand for one octet, high digit first. Digits of either case are read; small ones are
written. A text is refused for its odd length before any digit is looked at; otherwise the fault is
the first octet of its UTF-8 form that is no digit.

* **`Hex.encode bs`** — the text of an octet string.
* **`Hex.decode s`** — the octets of a text, or the `Hex.Fault` that refuses it.
* **`Hex.Fault.message`** — the wording of a fault. -/

namespace AnchoredLedger

namespace Hex

/-- **Why a text is no hexadecimal text.** -/
inductive Fault where
  /-- The UTF-8 form has an odd number of octets. -/
  | oddLength
  /-- The octet at `index` is no digit. -/
  | invalidDigit (octet : UInt8) (index : Nat)
deriving DecidableEq, Repr

/-! ## Digits -/

/-- The small digit of a number below sixteen. -/
def digit (n : Nat) : Char := if n < 10 then Char.ofNat (48 + n) else Char.ofNat (87 + n)

/-- The value of a digit of either case. -/
def digitValue? (b : UInt8) : Option UInt8 :=
  if 48 ≤ b ∧ b ≤ 57 then some (b - 48)
  else if 97 ≤ b ∧ b ≤ 102 then some (b - 87)
  else if 65 ≤ b ∧ b ≤ 70 then some (b - 55)
  else none

/-- The two digits of an octet. -/
def digits (b : UInt8) : List Char := [digit (b.toNat / 16), digit (b.toNat % 16)]

/-! ## Writing and reading -/

/-- **The hexadecimal text of an octet string**, two small digits an octet. -/
def encode (bs : Octets) : String := String.ofList (bs.flatMap digits)

/-- The octet written by two digits, the first of which stands at `index`. -/
def pairValue (high low : UInt8) (index : Nat) : Except Fault UInt8 :=
  match digitValue? high with
  | none => .error (.invalidDigit high index)
  | some h =>
    match digitValue? low with
    | none => .error (.invalidDigit low (index + 1))
    | some l => .ok (h * 16 + l)

/-- Reads pairs of digits from `index` on; `done` holds the octets read so far, last first. -/
def readPairs (index : Nat) (done : Octets) : Octets → Except Fault Octets
  | high :: low :: rest =>
    match pairValue high low index with
    | .error e => .error e
    | .ok b => readPairs (index + 2) (b :: done) rest
  | [_] => .error .oddLength
  | [] => .ok done.reverse

/-- The octets written by a digit string. -/
def decodeOctets (text : Octets) : Except Fault Octets :=
  if text.length % 2 = 1 then .error .oddLength else readPairs 0 [] text

/-- **The octets of a hexadecimal text**, or the fault that refuses it. -/
def decode (s : String) : Except Fault Octets := decodeOctets (Text.octets s)

/-! ## The wording of faults -/

/-- An octet as a quoted character of the same number. Quotes, backslashes, the usual control
characters and whatever has no visible form are written as escapes. -/
def quoted (b : UInt8) : String :=
  let body :=
    if b = 0 then "\\0"
    else if b = 9 then "\\t"
    else if b = 10 then "\\n"
    else if b = 13 then "\\r"
    else if b = 39 then "\\'"
    else if b = 92 then "\\\\"
    else if b < 32 ∨ (127 ≤ b ∧ b ≤ 160) ∨ b = 173 then
      "\\u\x7b" ++ String.ofList (Nat.toDigits 16 b.toNat) ++ "\x7d"
    else String.ofList [Char.ofNat b.toNat]
  "'" ++ body ++ "'"

/-- The wording of a fault. -/
def Fault.message : Fault → String
  | .oddLength => "Odd number of digits"
  | .invalidDigit b i => "Invalid character " ++ quoted b ++ " at position " ++ toString i

/-- The form of a fault in a diagnostic: the kind of fault with its particulars. -/
def Fault.diagnostic : Fault → String
  | .oddLength => "OddLength"
  | .invalidDigit b i =>
    "InvalidHexCharacter \x7b c: " ++ quoted b ++ ", index: " ++ toString i ++ " \x7d"

/-! ## Reading what was written -/

/-- Both digits of every octet have their value. -/
theorem digitValue?_digit (n : Nat) (h : n < 16) :
    digitValue? (UInt8.ofNat (digit n).toNat) = some (UInt8.ofNat n) := by
  revert n; decide

end Hex

end AnchoredLedger
