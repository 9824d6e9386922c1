import AnchoredLedger.Block.Retained
import AnchoredLedger.CompactSize
import AnchoredLedger.Merkle.Tree
import AnchoredLedger.Transaction

/-! # Blocks

A block is a header, the hashes of its transactions, a signature and the hash of the transaction that
anchors it. The list and the signature may be absent; the anchor is never written.

Two things are worked out when first asked for and then remembered: the Merkle root, which may also
have been given, and the identity. Edits forget what they make stale.

* **`Block`** — the fields, what is remembered, and the octets it was read from.
* **`Block.merkleRoot`**, **`Block.header`**, **`Block.hash`** — the root in force, the header and the
  identity.
* **`Block.encode`** — the wire form; **`Block.messageSize`** and **`Block.optimalSize`** — its length
  and the length it has at best.
* **`Block.set…`**, **`Block.addTransactionHash`** — the edits.
* **`Block.Query`**, **`Block.consult`** — what asking makes a block remember. -/

namespace AnchoredLedger

/-- **A block.** -/
structure Block where
  /-- Version number. -/
  version : UInt32
  /-- Second signer of the redemption path. -/
  planKey : PlanKey
  /-- Identity of the previous block. -/
  prevBlock : Hash
  /-- The root in force: given, or worked out from the transaction hashes and remembered. -/
  root? : Option Hash
  /-- The transaction that anchors the previous block. -/
  prevAnchor : Hash
  /-- Seconds since the epoch. -/
  time : UInt32
  /-- Hashes of the transactions; absent where the block is only a header. -/
  transactions : Option (List Hash)
  /-- The signature. -/
  signatures : Option Octets
  /-- The transaction that anchors this block; never written and no part of the identity. -/
  anchor : Option Hash
  /-- The identity, where it is remembered. -/
  identity? : Option Hash
  /-- The octets it was read from. -/
  retained : Retained
deriving DecidableEq, Repr

namespace Block

/-! ## New blocks -/

/-- **A block made from its fields**; a root that is not given is worked out when asked for. -/
def new (version : UInt32) (planKey : PlanKey) (prevBlock : Hash) (root? : Option Hash)
    (prevAnchor : Hash) (time : UInt32) (transactions : List Hash) : Block where
  version
  planKey
  prevBlock
  root?
  prevAnchor
  time
  transactions := some transactions
  signatures := none
  anchor := none
  identity? := none
  retained := .nothing

/-- A block that is only a header, with zeros for its hashes. -/
def withVersion (version time : UInt32) : Block where
  version
  planKey := .zero
  prevBlock := .zero
  root? := none
  prevAnchor := .zero
  time
  transactions := none
  signatures := none
  anchor := none
  identity? := none
  retained := .nothing

/-! ## Root, header and identity -/

/-- The root of the tree over the transaction hashes; zero where there are none. -/
def calculateMerkleRoot (b : Block) : Hash :=
  match b.transactions with
  | none => .zero
  | some hashes => (Merkle.root? hashes).getD .zero

/-- **The root in force.** -/
def merkleRoot (b : Block) : Hash := b.root?.getD b.calculateMerkleRoot

/-- **The header**, with the root in force. -/
def header (b : Block) : Header :=
  { version := b.version, planKey := b.planKey, prevBlock := b.prevBlock,
    merkleRoot := b.merkleRoot, prevAnchor := b.prevAnchor, time := b.time }

/-- The octets of the header, kept or written. -/
def headerOctets (b : Block) : Octets := b.retained.header?.getD b.header.encode

/-- **The identity.** -/
def hash (b : Block) : Hash := b.identity?.getD (.ofTwice b.headerOctets)

/-! ## The wire form -/

/-- A counted list of hashes. -/
def encodeTransactions (hashes : List Hash) : Octets :=
  CompactSize.encode hashes.length ++ hashes.flatMap FixedOctets.toWire

/-- A signature in reverse, with its length in front. -/
def encodeSignatures (signatures : Octets) : Octets :=
  CompactSize.encode signatures.length ++ signatures.reverse

/-- What follows the header. A signature without a transaction list has an empty list before it, so
that it is not taken for one. -/
def encodeBody : Option (List Hash) → Option Octets → Octets
  | some hashes, some sig => encodeTransactions hashes ++ encodeSignatures sig
  | some hashes, none => encodeTransactions hashes
  | none, some sig => encodeTransactions [] ++ encodeSignatures sig
  | none, none => []

/-- The octets after the header, kept or written. -/
def bodyOctets (b : Block) : Octets :=
  b.retained.body?.getD (encodeBody b.transactions b.signatures)

/-- **The wire form**: the octets it was read from as far as they hold, the rest written anew. -/
def encode (b : Block) : Octets :=
  match b.retained.whole? with
  | some octets => octets
  | none => b.headerOctets ++ b.bodyOctets

/-- The length of the wire form with every compact size at its shortest. -/
def optimalSize (b : Block) : Nat :=
  let list :=
    match b.transactions with
    | some hashes => CompactSize.size hashes.length + 32 * hashes.length
    | none => if b.signatures.isSome then 1 else 0
  let signature :=
    match b.signatures with
    | some sig => CompactSize.size sig.length + sig.length
    | none => 0
  Header.size + list + signature

/-- **The length of the wire form**, without writing it. -/
def messageSize (b : Block) : Nat :=
  match b.retained.whole? with
  | some octets => octets.length
  | none =>
    match b.retained.body? with
    | some body => Header.size + body.length
    | none => b.optimalSize

/-! ## What others ask -/

/-- The number of transactions. -/
def transactionCount (b : Block) : Nat :=
  match b.transactions with
  | none => 0
  | some hashes => hashes.length

/-- Whether there is any transaction. -/
def hasTransactions (b : Block) : Bool :=
  match b.transactions with
  | none => false
  | some hashes => !hashes.isEmpty

/-- The first version under which the rules BIP34, BIP66 and BIP65 hold. -/
def ruleVersion : UInt32 := 1

/-- The rules a block is under: height in the first transaction, strict signatures, lock times. -/
def rules (b : Block) : List (String × Bool) :=
  ["BIP34", "BIP66", "BIP65"].map fun name => (name, ruleVersion ≤ b.version)

/-! ## Edits -/

/-- Forgets the identity and the header octets. -/
def forgetHeader (b : Block) : Block :=
  { b with retained := b.retained.dropHeader, identity? := none }

/-- Forgets all that depends on the transaction list: its octets, the root, and with the root the
header. -/
def forgetTransactions (b : Block) : Block :=
  { forgetHeader { b with retained := b.retained.dropBody } with root? := none }

/-- The block with another version. -/
def setVersion (b : Block) (v : UInt32) : Block := { b.forgetHeader with version := v }

/-- The block at another time. -/
def setTime (b : Block) (t : UInt32) : Block := { b.forgetHeader with time := t }

/-- The block with another plan key. -/
def setPlanKey (b : Block) (k : PlanKey) : Block := { b.forgetHeader with planKey := k }

/-- The block after another block. -/
def setPrevBlock (b : Block) (h : Hash) : Block := { b.forgetHeader with prevBlock := h }

/-- The block after another anchor. -/
def setPrevAnchor (b : Block) (h : Hash) : Block := { b.forgetHeader with prevAnchor := h }

/-- The block with a given root. -/
def setMerkleRoot (b : Block) (h : Hash) : Block := { b.forgetHeader with root? := some h }

/-- The block with one more transaction hash. -/
def addTransactionHash (b : Block) (h : Hash) : Block :=
  { b.forgetTransactions with transactions := some (b.transactions.getD [] ++ [h]) }

/-- The block with one more transaction. -/
def addTransaction (b : Block) (t : Transaction) : Block := b.addTransactionHash t.txid

/-- The block with another transaction list, or none. -/
def setTransactions (b : Block) (hashes : Option (List Hash)) : Block :=
  { b.forgetTransactions with transactions := hashes }

/-- The block with another signature, or none. The identity does not depend on it. -/
def setSignatures (b : Block) (signatures : Option Octets) : Block :=
  { b with retained := b.retained.dropBody, signatures }

/-- The block with another anchor, or none. -/
def setAnchor (b : Block) (anchor : Option Hash) : Block := { b with anchor }

/-- **The header of a block as a block**, with the root in force and the identity. -/
def cloneAsHeader (b : Block) : Block where
  version := b.version
  planKey := b.planKey
  prevBlock := b.prevBlock
  root? := some b.merkleRoot
  prevAnchor := b.prevAnchor
  time := b.time
  transactions := none
  signatures := none
  anchor := none
  identity? := some b.hash
  retained := .nothing

/-! ## What asking makes a block remember -/

/-- **A question** that may make a block remember what it worked out for the answer. -/
inductive Query where
  /-- The identity. -/
  | hash
  /-- The root in force. -/
  | merkleRoot
  /-- The header. -/
  | header
  /-- The octets of the header. -/
  | headerOctets
  /-- The wire form. -/
  | encode
deriving DecidableEq, Repr

/-- The block with its root remembered. -/
def rememberRoot (b : Block) : Block := { b with root? := some b.merkleRoot }

/-- The block after its header octets were asked for: they are kept, or written with the root. -/
def rememberHeader (b : Block) : Block :=
  if b.retained.header?.isSome then b else b.rememberRoot

/-- **The block after a question.** -/
def consult (b : Block) : Query → Block
  | .hash => if b.identity?.isSome then b else { b.rememberHeader with identity? := some b.hash }
  | .merkleRoot => b.rememberRoot
  | .header => b.rememberRoot
  | .headerOctets => b.rememberHeader
  | .encode => if b.retained.whole?.isSome then b else b.rememberHeader

/-- Blocks are the same when their identities are. -/
def same (b c : Block) : Bool := b.hash == c.hash

end Block

end AnchoredLedger
