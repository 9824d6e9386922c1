import AnchoredLedger.Cursor
import AnchoredLedger.Digest.Sha256

/-! # Block headers

The header is the fixed part of a block: 137 octets that carry everything its identity depends on.

* **`Header`** — the six fields.
* **`Header.encode`** / **`Header.read`** — the wire form and the read of it; `length_encode` gives
  its length.
* **`Header.hash`** — the identity: the double digest of the wire form, in display order. -/

namespace AnchoredLedger

/-- **The hash of an octet string** that names headers and transactions: its double digest, turned
into the order of display. -/
def Hash.ofTwice (bs : Octets) : Hash := ⟨(Digest.doubleSha256 bs).reverse, by simp⟩

/-- **The fixed part of a block.** -/
structure Header where
  /-- Version number. -/
  version : UInt32
  /-- Second signer of the redemption path. -/
  planKey : PlanKey
  /-- Identity of the previous block. -/
  prevBlock : Hash
  /-- Root of the tree over the transaction hashes. -/
  merkleRoot : Hash
  /-- The transaction that anchors the previous block. -/
  prevAnchor : Hash
  /-- Seconds since the epoch. -/
  time : UInt32
deriving DecidableEq, Repr

namespace Header

/-- The length of the wire form. -/
def size : Nat := 137

/-- **The wire form**: the fields in order, words with the least octet first, hashes and key in
reverse. -/
def encode (h : Header) : Octets :=
  Octets.word32 h.version ++ h.planKey.toWire ++ h.prevBlock.toWire ++ h.merkleRoot.toWire
    ++ h.prevAnchor.toWire ++ Octets.word32 h.time

/-- **The next header.** -/
def read : Reader Header := do
  let version ← Reader.word32
  let planKey ← Reader.planKey
  let prevBlock ← Reader.hash
  let merkleRoot ← Reader.hash
  let prevAnchor ← Reader.hash
  let time ← Reader.word32
  pure { version, planKey, prevBlock, merkleRoot, prevAnchor, time }

/-- **The identity of a block with this header.** -/
def hash (h : Header) : Hash := .ofTwice h.encode

@[simp] theorem length_encode (h : Header) : h.encode.length = size := by
  simp [encode, size]

end Header

end AnchoredLedger
