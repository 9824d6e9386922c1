import AnchoredLedger.Base58
import AnchoredLedger.Digest.Ripemd160
import AnchoredLedger.Network
import AnchoredLedger.Overflow

/-! # Addresses

An address is a version octet and a short hash, with a check against misreading, in base 58.
Withdrawals pay to the hash of a key; deposits pay to the hash of a script that any of several keys
may redeem.

* **`Address.checked version payload`** — the text with its check.
* **`Address.ofKey`**, **`Address.ofScript`** — the two kinds of address.
* **`RedeemScript.assemble`**, **`RedeemScript.multisig`** — the script of several keys. -/

namespace AnchoredLedger

namespace Address

/-- The version octet, the payload and the first four octets of their double digest. -/
def checkedOctets (version : UInt8) (payload : Octets) : Octets :=
  let body := version :: payload
  body ++ (Digest.doubleSha256 body).take 4

/-- **A payload with its version and check**, in base 58. -/
def checked (version : UInt8) (payload : Octets) : String :=
  Base58.encode (checkedOctets version payload)

/-- The address that pays to a serialized key. -/
def ofKey (network : Network) (key : Octets) : String :=
  checked network.addressHeader (Digest.hash160 key)

/-- The address that pays to a script. -/
def ofScript (network : Network) (script : Octets) : String :=
  checked network.scriptHeader (Digest.hash160 script)

end Address

namespace RedeemScript

/-- The operation that ends the script: check several signatures. -/
def checkMultisig : UInt8 := 0xae

/-- The operation that pushes a small number: the low octet of the number above 80. -/
def smallNumber (n : Nat) : Except Overflow UInt8 := Overflow.add8 0x50 (UInt8.ofNat n)

/-- The keys in the order of their octets. -/
def sortKeys (keys : List Octets) : List Octets := keys.mergeSort fun a b => decide (a ≤ b)

/-- A key with the low octet of its length in front. -/
def pushKey (key : Octets) : Octets := UInt8.ofNat key.length :: key

/-- **The script between its two numbers**: how many signatures are needed, the keys in order, how
many there are. -/
def assemble (needed total : UInt8) (keys : List Octets) : Octets :=
  needed :: (sortKeys keys).flatMap pushKey ++ [total, checkMultisig]

/-- **The script that asks for signatures of `threshold` of the keys.** -/
def multisig (threshold : Nat) (keys : List Octets) : Except Overflow Octets :=
  match smallNumber threshold with
  | .error e => .error e
  | .ok needed =>
    match smallNumber keys.length with
    | .error e => .error e
    | .ok total => .ok (assemble needed total keys)

end RedeemScript

end AnchoredLedger
