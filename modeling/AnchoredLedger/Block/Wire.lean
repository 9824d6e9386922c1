import AnchoredLedger.Block.Basic
import AnchoredLedger.Network
import AnchoredLedger.Text.Blank

/-! # Reading blocks

The wire form of a block is its header, then possibly a counted list of hashes, then possibly a
signature with its length. Where the octets end decides which of the two are there; what follows a
signature is left unread.

* **`Sections`** — the parts of a wire form; **`Sections.readWith`** reads them.
* **`Block.parse`** — the block at an offset into a buffer.
* **`Block.ofHex`** — the block of a hexadecimal text. -/

namespace AnchoredLedger

/-- **The parts of the wire form of a block.** -/
structure Sections where
  /-- The header. -/
  header : Header
  /-- The transaction hashes, where there is a list. -/
  transactions : Option (List Hash)
  /-- The signature, where there is one. -/
  signatures : Option Octets
deriving DecidableEq, Repr

namespace Sections

/-- The transaction list: refused once header and list would exceed the limit. -/
def readTransactions (length : Transaction.LengthReader) (limit : Nat) : Reader (List Hash) := do
  let count ← length 32
  if limit < Header.size + count * 32 then
    throw (.blockTooLarge (Header.size + count * 32) limit)
  else
    Reader.times Reader.hash count

/-- The signature, which stands in reverse. -/
def readSignatures (length : Transaction.LengthReader) : Reader Octets := do
  let n ← length 1
  let bs ← Reader.octets n
  pure bs.reverse

/-- A section that is there unless nothing remains. -/
def optional {α : Type} (part : Reader α) : Reader (Option α) := do
  if ← Reader.atEnd then pure none else some <$> part

/-- **The next parts of a block**, with lengths read as given. -/
def readWith (length : Transaction.LengthReader) (limit : Nat) : Reader Sections := do
  let header ← Header.read
  let transactions ← optional (readTransactions length limit)
  let signatures ← optional (readSignatures length)
  pure { header, transactions, signatures }

/-- The next parts of a block. -/
def read (limit : Nat) : Reader Sections := readWith CompactSize.readLength limit

end Sections

namespace Block

/-- The block with the given parts, read from the given octets, which are kept or not. -/
def ofSections (s : Sections) (octets : Octets) (retain : Bool) : Block where
  version := s.header.version
  planKey := s.header.planKey
  prevBlock := s.header.prevBlock
  root? := some s.header.merkleRoot
  prevAnchor := s.header.prevAnchor
  time := s.header.time
  transactions := s.transactions
  signatures := s.signatures
  anchor := none
  identity? := some (.ofTwice (octets.take Header.size))
  retained := if retain then .all octets else .nothing

/-- The block at an offset into a buffer, with lengths read as given. -/
def parseWith (length : Transaction.LengthReader) (network : Network) (retain : Bool)
    (buffer : Octets) (offset : Nat) : Except WireError Block :=
  match Reader.parseAt (Sections.readWith length network.maxBlockSize.toNat) buffer offset with
  | .error e => .error e
  | .ok (s, used) => .ok (ofSections s ((buffer.drop offset).take used) retain)

/-- **The block at an offset into a buffer**, keeping the octets it was read from or not. -/
def parse (network : Network) (retain : Bool) (buffer : Octets) (offset : Nat) :
    Except WireError Block :=
  parseWith CompactSize.readLength network retain buffer offset

/-- The block that a buffer starts with, on the main network. -/
def ofOctets (buffer : Octets) : Except WireError Block := parse .main true buffer 0

/-- **The block of a hexadecimal text**, around which blanks may stand. -/
def ofHex (s : String) : Except WireError Block :=
  match Hex.decode (Text.trim s) with
  | .error fault => .error (.invalidHex fault)
  | .ok bs => ofOctets bs

/-- The wire form as a hexadecimal text. -/
def toHex (b : Block) : String := Hex.encode b.encode

end Block

end AnchoredLedger
