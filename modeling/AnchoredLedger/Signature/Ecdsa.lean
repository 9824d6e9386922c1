import AnchoredLedger.Signature.Der
import AnchoredLedger.Digest.Hmac

/-! # Signing and verifying

Signatures over secp256k1. The nonce of a signature is drawn from the secret and the message by the
deterministic generator of RFC 6979, so that a signature is a function of the two; of the two valid
second numbers the lower one is given out, and both are accepted.

* **`Signature.messageOctets`** — what is signed: 32 octets as they are, anything else by its digest.
* **`Signature.sign`** — the signature of a message under a secret.
* **`Signature.verifies`** — whether a DER signature of a message is valid under a serialized key. -/

namespace AnchoredLedger

namespace Signature

/-- What is signed for a message: 32 octets are taken as a hash, anything else is digested. -/
def messageOctets (message : Octets) : Octets :=
  if message.length = 32 then message else Digest.sha256 message

/-- The number that stands for a message. -/
def messageNumber (message : Octets) : Nat :=
  Octets.toNatBE (messageOctets message) % Curve.order

/-! ## Nonces -/

/-- **The state of the nonce generator.** -/
structure Generator where
  /-- The key of the keyed digest. -/
  key : Octets
  /-- The latest output. -/
  value : Octets

namespace Generator

/-- Mixes a marker and further octets into the key and renews the output. -/
def mix (g : Generator) (marker : UInt8) (extra : Octets) : Generator :=
  let key := Digest.hmacSha256 g.key (g.value ++ marker :: extra)
  ⟨key, Digest.hmacSha256 key g.value⟩

/-- The generator seeded with a secret and the number of a message. -/
def seed (secret : Secret) (message : Nat) : Generator :=
  let extra := secret.toOctets ++ Octets.ofNatBE 32 message
  ((Generator.mk (List.replicate 32 0) (List.replicate 32 1)).mix 0 extra).mix 1 extra

/-- The next output. -/
def step (g : Generator) : Generator := ⟨g.key, Digest.hmacSha256 g.key g.value⟩

/-- The generator after an output that was of no use. -/
def retry (g : Generator) : Generator := g.mix 0 []

end Generator

/-! ## Signing -/

/-- The signature made with a given nonce, if both its numbers are usable. -/
def withNonce? (secret : Secret) (message nonce : Nat) : Option Signature :=
  match (Curve.multiply nonce Curve.generator.toPoint).toAffine? with
  | none => none
  | some point =>
    let r := point.x % Curve.order
    let s := Modular.inverse Curve.order nonce * (message + r * secret.value) % Curve.order
    if r = 0 ∨ s = 0 then none
    else some ⟨r, if Curve.order / 2 < s then Curve.order - s else s⟩

/-- The signature made with the first usable nonce among the next `attempts` outputs. -/
def search (secret : Secret) (message : Nat) : Nat → Generator → Option Signature
  | 0, _ => none
  | attempts + 1, g =>
    let drawn := g.step
    let attempt :=
      match Secret.ofOctets? drawn.value with
      | none => none
      | some nonce => withNonce? secret message nonce.value
    match attempt with
    | some sig => some sig
    | none => search secret message attempts drawn.retry

/-- How many outputs are tried: the generator has no more states than that. -/
def attempts : Nat := 1 <<< 512

/-- **The signature of a message under a secret.** -/
def sign (secret : Secret) (message : Octets) : Option Signature :=
  let number := messageNumber message
  search secret number attempts (Generator.seed secret number)

/-! ## Verifying -/

/-- Whether the numbers of a signature belong to a message number and a public key. -/
def isValid (sig : Signature) (message : Nat) (key : PublicKey) : Bool :=
  if sig.r = 0 ∨ sig.s = 0 then false
  else
    let inv := Modular.inverse Curve.order sig.s
    let sum := Curve.add
      (Curve.multiply (inv * message % Curve.order) Curve.generator.toPoint)
      (Curve.multiply (inv * sig.r % Curve.order) key.toPoint)
    match sum.toAffine? with
    | none => false
    | some point => point.x % Curve.order = sig.r

/-- **Whether a DER signature of a message is valid under a serialized public key.** Forms that
cannot be read are not valid. -/
def verifies (message signature key : Octets) : Bool :=
  match ofDer? signature, PublicKey.ofOctets? key with
  | some sig, some k => isValid sig (messageNumber message) k
  | _, _ => false

end Signature

end AnchoredLedger
