import AnchoredLedger.CompactSize

/-! # Reads as data

Each kind of read, as a value: sequences of reads can be listed, carried out and reasoned about.

* **`Request`** — a kind of read; **`Item`** — what it gives.
* **`Request.perform`** — the read itself. -/

namespace AnchoredLedger

/-- **A kind of read.** -/
inductive Request where
  /-- One octet. -/
  | octet
  /-- A 32-bit word. -/
  | word32
  /-- A 64-bit word. -/
  | word64
  /-- A compact size. -/
  | compactSize
  /-- A hash. -/
  | hash
  /-- A plan key. -/
  | planKey
  /-- A number of octets. -/
  | octets (n : Nat)
  /-- The octets of an array of a fixed length. -/
  | array (n : Nat)
deriving DecidableEq, Repr

/-- **What a read gives.** -/
inductive Item where
  /-- An octet. -/
  | octet (b : UInt8)
  /-- A 32-bit word. -/
  | word32 (w : UInt32)
  /-- A 64-bit word. -/
  | word64 (w : UInt64)
  /-- A compact size. -/
  | compactSize (n : Nat)
  /-- A hash. -/
  | hash (h : Hash)
  /-- A plan key. -/
  | planKey (k : PlanKey)
  /-- Octets. -/
  | octets (bs : Octets)
deriving DecidableEq, Repr

/-- The read of a kind. -/
def Request.perform : Request → Reader Item
  | .octet => Item.octet <$> Reader.octet
  | .word32 => Item.word32 <$> Reader.word32
  | .word64 => Item.word64 <$> Reader.word64
  | .compactSize => Item.compactSize <$> CompactSize.read
  | .hash => Item.hash <$> Reader.hash
  | .planKey => Item.planKey <$> Reader.planKey
  | .octets n => Item.octets <$> Reader.octets n
  | .array n => Item.octets <$> Reader.octets n

/-- What the read of a kind comes to, with the cursor after it. -/
def Request.outcome (q : Request) : Cursor → Except WireError Item × Cursor := Reader.outcome q.perform

/-- **The cursor after a sequence of reads**, some of which may be refused. -/
def Request.run : List Request → Cursor → Cursor
  | [], c => c
  | q :: qs, c => run qs (q.outcome c).2

end AnchoredLedger
