import AnchoredLedger.Address
import AnchoredLedger.Signature.Ecdsa

/-! # Key pairs

A key pair is a secret and a public key, with the plan key it signs beside where there is one. Signatures
and the exported secret are made with the secret; addresses are those of the public key, and signatures are
checked under it. Pairs are made from a secret and hold its public key, but nothing keeps a pair from being
put together otherwise.

* **`KeyPair`** — the two keys and the plan key; **`KeyPair.ofSecret`** makes one, **`KeyPair.ofHex`** reads
  the secret.
* **`KeyPair.IsMatched`** — the public key is that of the secret.
* **`KeyPair.withdrawAddress`**, **`KeyPair.depositAddress`** — the addresses.
* **`KeyPair.exportedSecret`** — the secret in the form in which wallets import it.
* **`KeyPair.sign`** — the DER signature of a message.
* **`KeyError`** — what may be wrong with keys. -/

namespace AnchoredLedger

/-- **What may be wrong with keys.** -/
inductive KeyError where
  /-- The text is no usable secret. -/
  | invalidPrivateKey
  /-- A part of the identity is empty. -/
  | incompleteIdentity
  /-- There is no plan key to sign beside. -/
  | missingPlanKey
  /-- The text of the plan key is refused. -/
  | invalidPlanKey (cause : WireError)
  /-- A derived number is no usable secret. -/
  | unusableSecret
  /-- No candidate was acceptable among all there are. -/
  | exhausted
deriving DecidableEq, Repr

namespace KeyError

/-- What is said about an incomplete identity. -/
def identityNotice : String := "id number, privacy salt and plan key are required"

/-- The wording of an error. -/
def message : KeyError → String
  | invalidPrivateKey => "Invalid private key"
  | incompleteIdentity => "Illegal identity input: " ++ identityNotice
  | missingPlanKey => "Not a plan key pair (no plan key)"
  | invalidPlanKey cause => "Invalid plan key: " ++ cause.message
  | unusableSecret => "Secp256k1 error: malformed or out-of-range secret key"
  | exhausted => "No acceptable candidate"

/-- The form of an error in a diagnostic. -/
def diagnostic : KeyError → String
  | invalidPrivateKey => "InvalidPrivateKey"
  | incompleteIdentity => "InvalidIdentity(\"" ++ identityNotice ++ "\")"
  | missingPlanKey => "MissingPlanKey"
  | invalidPlanKey cause => "InvalidPlanKey(" ++ cause.diagnostic ++ ")"
  | unusableSecret => "Secp256k1Error(InvalidSecretKey)"
  | exhausted => "Exhausted"

end KeyError

/-- **A key pair.** -/
structure KeyPair where
  /-- The secret. -/
  secret : Secret
  /-- The public key. -/
  publicKey : PublicKey
  /-- The plan key it signs beside, if any. -/
  planKey : Option PlanKey
deriving DecidableEq, Repr

namespace KeyPair

/-- The pair of a secret and its public key, without a plan key. -/
def ofSecret (secret : Secret) : KeyPair := ⟨secret, .ofSecret secret, none⟩

/-- The pair whose secret a hexadecimal text gives. -/
def ofHex (s : String) : Except KeyError KeyPair :=
  match Hex.decode s with
  | .error _ => .error .invalidPrivateKey
  | .ok bs =>
    match Secret.ofOctets? bs with
    | none => .error .invalidPrivateKey
    | some secret => .ok (ofSecret secret)

/-- The compressed public key. -/
def publicOctets (k : KeyPair) : Octets := k.publicKey.compressed

/-- The secret as a hexadecimal text. -/
def secretHex (k : KeyPair) : String := Hex.encode k.secret.toOctets

/-- The compressed public key as a hexadecimal text. -/
def publicHex (k : KeyPair) : String := Hex.encode k.publicOctets

/-- The address that withdrawals pay to. -/
def withdrawAddress (k : KeyPair) (network : Network) : String :=
  Address.ofKey network k.publicOctets

/-- The script that either the own key or the plan key redeems. -/
def depositScript (k : KeyPair) (planKey : PlanKey) : Octets :=
  RedeemScript.assemble 0x51 0x52 [k.publicOctets, planKey.octets]

/-- **The address that deposits pay to**: its script is redeemed by the own key or the plan key. -/
def depositAddress (k : KeyPair) (network : Network) : Except KeyError String :=
  match k.planKey with
  | none => .error .missingPlanKey
  | some planKey => .ok (Address.ofScript network (k.depositScript planKey))

/-- **The exported secret**, marked as that of a compressed key. -/
def exportedSecret (k : KeyPair) (network : Network) : String :=
  Address.checked network.secretHeader (k.secret.toOctets ++ [0x01])

/-- **The DER signature of a message.** -/
def sign (k : KeyPair) (message : Octets) : Except KeyError Octets :=
  match Signature.sign k.secret message with
  | none => .error .exhausted
  | some sig => .ok sig.toDer

/-- Whether a signature of a message is valid under the own public key. -/
def verifies (k : KeyPair) (message signature : Octets) : Bool :=
  Signature.verifies message signature k.publicOctets

/-- A key pair in a diagnostic, which withholds the secret. -/
def diagnostic (k : KeyPair) : String :=
  let planKey :=
    match k.planKey with
    | none => "None"
    | some key => "Some(" ++ PlanKey.diagnostic key ++ ")"
  "KeyPair \x7b public_key: \"" ++ k.publicHex ++ "\", plan_key: " ++ planKey ++ ", .. \x7d"

/-- The deposit script asks for one signature of two keys. -/
theorem multisig_eq_depositScript (k : KeyPair) (planKey : PlanKey) :
    RedeemScript.multisig 1 [k.publicOctets, planKey.octets] = .ok (k.depositScript planKey) :=
  rfl

/-! ## Pairs made from a secret -/

/-- **The public key is that of the secret.** -/
def IsMatched (k : KeyPair) : Prop := k.publicKey = .ofSecret k.secret

theorem isMatched_ofSecret (secret : Secret) : (ofSecret secret).IsMatched := rfl

/-- A pair whose secret is read is matched. -/
theorem isMatched_of_ofHex {s : String} {k : KeyPair} (h : ofHex s = .ok k) : k.IsMatched := by
  unfold ofHex at h
  split at h
  · contradiction
  · split at h
    · contradiction
    · cases h
      exact isMatched_ofSecret _

end KeyPair

end AnchoredLedger
