import AnchoredLedger.KeyPair
import AnchoredLedger.Text.Lowercase

/-! # Keys derived from an identity

A key pair can be derived from an identity number, a salt and the text of a plan key. Number and
salt together, in small letters, are digested under the text of the plan key; from the digest of that
a chain of digests starts, and the first of them that is greater than one as a signed number is the
secret.

* **`Identity.seed`** — where the chain starts; **`Identity.isAcceptable`** — where it may end.
* **`Identity.firstAcceptable`** — the first acceptable digest within a number of steps.
* **`Identity.derive`** — the key pair. -/

namespace AnchoredLedger.Identity

/-- The start of the chain: the digest of number and salt in small letters, keyed by the text of the
plan key, and digested once more. -/
def seed (number salt planKey : String) : Octets :=
  let name := Text.octets (Text.lowercase (number ++ salt))
  Digest.sha256 (Digest.hmacSha256 (Text.octets planKey) name)

/-- **Whether a digest may be a secret**: the sign bit is clear and the number is more than one. -/
def isAcceptable (digest : Octets) : Bool :=
  digest.headD 0 &&& 0x80 == 0
    && ((digest.take 31).any (· != 0) || 1 < (digest.drop 31).headD 0)

/-- The first acceptable digest among the next `steps` of the chain. -/
def firstAcceptable : Nat → Octets → Option Octets
  | 0, _ => none
  | steps + 1, digest =>
    if isAcceptable digest then some digest else firstAcceptable steps (Digest.sha256 digest)

/-- How far the chain is followed: there are no more digests than that, so a chain without an
acceptable digest so far has come round to where it was. -/
def steps : Nat := (1 <<< 256) + 1

/-- **The key pair of an identity.** The parts must not be empty; the plan key must be one, which is
found out last. -/
def derive (number salt planKey : String) : Except KeyError KeyPair :=
  if number.isEmpty || salt.isEmpty || planKey.isEmpty then .error .incompleteIdentity
  else
    match firstAcceptable steps (seed number salt planKey) with
    | none => .error .exhausted
    | some digest =>
      match Secret.ofOctets? digest with
      | none => .error .unusableSecret
      | some secret =>
        match FixedOctets.ofHex planKey with
        | .error cause => .error (.invalidPlanKey cause)
        | .ok key => .ok { KeyPair.ofSecret secret with planKey := some key }

end AnchoredLedger.Identity
