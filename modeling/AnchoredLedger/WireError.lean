import AnchoredLedger.Hex

/-! # Refusals of wire data

The ways in which octets, or a text that stands for octets, fail to be a value.

* **`WireError`** — the cause, with its particulars.
* **`WireError.message`** — its wording; **`WireError.diagnostic`** — its kind and particulars. -/

namespace AnchoredLedger

/-- **Why octets or a hexadecimal text are no value.** -/
inductive WireError where
  /-- A value of fixed width was given another number of octets. -/
  | lengthMismatch (expected actual : Nat)
  /-- Fewer octets remain than a read asks for. -/
  | truncated (needed remaining : Nat)
  /-- The text is no hexadecimal text. -/
  | invalidHex (fault : Hex.Fault)
  /-- Header and transaction list exceed the limit of the network. -/
  | blockTooLarge (size limit : Nat)
deriving DecidableEq, Repr

namespace WireError

/-- The wording of a refusal. -/
def message : WireError → String
  | lengthMismatch expected actual =>
    "Length mismatch: expected " ++ toString expected ++ " bytes, got " ++ toString actual
  | truncated needed remaining =>
    "Truncated input: needed " ++ toString needed ++ " bytes, " ++ toString remaining ++ " remaining"
  | invalidHex fault => "Invalid hex: " ++ fault.message
  | blockTooLarge size limit =>
    "Block too large: " ++ toString size ++ " bytes (max: " ++ toString limit ++ ")"

/-- The form of a refusal in a diagnostic. -/
def diagnostic : WireError → String
  | lengthMismatch expected actual =>
    "LengthMismatch \x7b expected: " ++ toString expected ++ ", actual: " ++ toString actual
      ++ " \x7d"
  | truncated needed remaining =>
    "TruncatedInput \x7b needed: " ++ toString needed ++ ", remaining: " ++ toString remaining
      ++ " \x7d"
  | invalidHex fault => "InvalidHex(" ++ fault.diagnostic ++ ")"
  | blockTooLarge size limit =>
    "BlockTooLarge \x7b size: " ++ toString size ++ ", max: " ++ toString limit ++ " \x7d"

end WireError

end AnchoredLedger
