import AnchoredLedger.Digest.Sha256

/-! # Keyed digests

HMAC over SHA-256: the key is brought to one block and mixed into the start of an inner and an
outer digest.

* **`Digest.hmacSha256 key bs`** — the 32 octets of the keyed digest. -/

namespace AnchoredLedger.Digest

namespace Hmac

/-- The key as one block of 64 octets: a longer key is digested first, a shorter one is followed by
zeros. -/
def keyBlock (key : Octets) : Octets :=
  let short := if 64 < key.length then sha256 key else key
  short ++ List.replicate (64 - short.length) 0

end Hmac

/-- **The keyed digest** HMAC-SHA256. -/
def hmacSha256 (key bs : Octets) : Octets :=
  let block := Hmac.keyBlock key
  sha256 (block.map (· ^^^ 0x5c) ++ sha256 (block.map (· ^^^ 0x36) ++ bs))

@[simp] theorem length_hmacSha256 (key bs : Octets) : (hmacSha256 key bs).length = 32 :=
  length_sha256 _

end AnchoredLedger.Digest
