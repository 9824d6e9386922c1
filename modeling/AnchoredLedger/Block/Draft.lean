import AnchoredLedger.Block.Basic

/-! # Drafts of blocks

A draft collects the fields of a block one by one; what is not given has a default.

* **`Draft`** — the fields so far; **`Draft.blank`** — none given yet.
* **`Draft.Entry`**, **`Draft.enter`** — one field.
* **`Draft.build`** — the block. -/

namespace AnchoredLedger

/-- **A draft of a block.** -/
structure Draft where
  /-- Version number. -/
  version : UInt32
  /-- Second signer of the redemption path. -/
  planKey : PlanKey
  /-- Identity of the previous block. -/
  prevBlock : Hash
  /-- The root, if given. -/
  merkleRoot : Option Hash
  /-- The transaction that anchors the previous block. -/
  prevAnchor : Hash
  /-- The time, if given. -/
  time : Option UInt32
  /-- Hashes of the transactions; absent where the block is to be only a header. -/
  transactions : Option (List Hash)
  /-- The signature, if given. -/
  signatures : Option Octets
  /-- The transaction that anchors the block, if given. -/
  anchor : Option Hash
deriving DecidableEq, Repr

namespace Draft

/-- The version of a block whose draft gives none. -/
def firstVersion : UInt32 := 1

/-- A draft with no field given: an empty transaction list, and zeros for hashes and key. -/
def blank : Draft where
  version := firstVersion
  planKey := .zero
  prevBlock := .zero
  merkleRoot := none
  prevAnchor := .zero
  time := none
  transactions := some []
  signatures := none
  anchor := none

/-- **A field to enter.** -/
inductive Entry where
  /-- The version. -/
  | version (v : UInt32)
  /-- The plan key. -/
  | planKey (k : PlanKey)
  /-- The previous block. -/
  | prevBlock (h : Hash)
  /-- The root. -/
  | merkleRoot (h : Hash)
  /-- The previous anchor. -/
  | prevAnchor (h : Hash)
  /-- The time. -/
  | time (t : UInt32)
  /-- One more transaction hash. -/
  | addTransactionHash (h : Hash)
  /-- The transaction hashes. -/
  | transactions (hashes : List Hash)
  /-- No transaction list. -/
  | headerOnly
  /-- The signature. -/
  | signatures (signatures : Octets)
  /-- The anchor. -/
  | anchor (h : Hash)
deriving DecidableEq, Repr

/-- **The draft with one more field entered.** -/
def enter (d : Draft) : Entry → Draft
  | .version v => { d with version := v }
  | .planKey k => { d with planKey := k }
  | .prevBlock h => { d with prevBlock := h }
  | .merkleRoot h => { d with merkleRoot := some h }
  | .prevAnchor h => { d with prevAnchor := h }
  | .time t => { d with time := some t }
  | .addTransactionHash h => { d with transactions := some (d.transactions.getD [] ++ [h]) }
  | .transactions hashes => { d with transactions := some hashes }
  | .headerOnly => { d with transactions := none }
  | .signatures signatures => { d with signatures := some signatures }
  | .anchor h => { d with anchor := some h }

/-- The draft with fields entered one after the other. -/
def enterAll (d : Draft) (entries : List Entry) : Draft := entries.foldl enter d

/-- **The block of a draft**; a time that is not given is the present one. -/
def build (d : Draft) (now : UInt32) : Block :=
  { Block.new d.version d.planKey d.prevBlock d.merkleRoot d.prevAnchor (d.time.getD now) [] with
    transactions := d.transactions
    signatures := d.signatures
    anchor := d.anchor }

end Draft

end AnchoredLedger
