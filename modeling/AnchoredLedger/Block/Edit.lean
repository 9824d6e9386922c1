import AnchoredLedger.Block.Wire
import AnchoredLedger.KeyPair

/-! # Runs of edits

Edits as values, so that sequences of them can be carried out and reasoned about.

* **`Block.sign`**, **`Block.signatureMatches`** — signing the identity, and checking the signature.
* **`Block.Edit`** — everything that may happen to a block.
* **`Block.apply`**, **`Block.run`** — one edit, and a run of them. -/

namespace AnchoredLedger.Block

/-- **The block signed by a key pair**: the signature is that of the identity. -/
def sign (b : Block) (key : KeyPair) : Except KeyError Block :=
  (key.sign b.hash.octets).map fun signature => (b.consult .hash).setSignatures (some signature)

/-- Whether the signature is one of the identity under a serialized public key. -/
def signatureMatches (b : Block) (key : Octets) : Bool :=
  match b.signatures with
  | none => false
  | some signature => Signature.verifies b.hash.octets signature key

/-- **What may happen to a block.** -/
inductive Edit where
  /-- Another version. -/
  | setVersion (v : UInt32)
  /-- Another time. -/
  | setTime (t : UInt32)
  /-- Another plan key. -/
  | setPlanKey (k : PlanKey)
  /-- Another previous block. -/
  | setPrevBlock (h : Hash)
  /-- Another previous anchor. -/
  | setPrevAnchor (h : Hash)
  /-- A given root. -/
  | setMerkleRoot (h : Hash)
  /-- One more transaction hash. -/
  | addTransactionHash (h : Hash)
  /-- One more transaction. -/
  | addTransaction (t : Transaction)
  /-- Another transaction list, or none. -/
  | setTransactions (hashes : Option (List Hash))
  /-- Another signature, or none. -/
  | setSignatures (signatures : Option Octets)
  /-- Another anchor, or none. -/
  | setAnchor (anchor : Option Hash)
  /-- The signature of a key pair; nothing happens where there is none. -/
  | sign (key : KeyPair)
  /-- A copy takes the place of the block. -/
  | clone
  /-- The header as a block takes the place of the block. -/
  | cloneAsHeader
  /-- A question is asked. -/
  | consult (q : Query)
  /-- The block read from its own wire form takes its place; nothing happens where it is refused. -/
  | reparse (network : Network) (retain : Bool)

/-- **The block after an edit.** -/
def apply (b : Block) : Edit → Block
  | .setVersion v => b.setVersion v
  | .setTime t => b.setTime t
  | .setPlanKey k => b.setPlanKey k
  | .setPrevBlock h => b.setPrevBlock h
  | .setPrevAnchor h => b.setPrevAnchor h
  | .setMerkleRoot h => b.setMerkleRoot h
  | .addTransactionHash h => b.addTransactionHash h
  | .addTransaction t => b.addTransaction t
  | .setTransactions hashes => b.setTransactions hashes
  | .setSignatures signatures => b.setSignatures signatures
  | .setAnchor anchor => b.setAnchor anchor
  | .sign key => (b.sign key).toOption.getD b
  | .clone => b
  | .cloneAsHeader => b.cloneAsHeader
  | .consult q => b.consult q
  | .reparse network retain => (parse network retain b.encode 0).toOption.getD b

/-- **The block after a run of edits.** -/
def run (b : Block) (edits : List Edit) : Block := edits.foldl apply b

@[simp] theorem run_nil (b : Block) : b.run [] = b := rfl

@[simp] theorem run_cons (b : Block) (e : Edit) (es : List Edit) :
    b.run (e :: es) = (b.apply e).run es := rfl

theorem run_append (b : Block) (es fs : List Edit) : b.run (es ++ fs) = (b.run es).run fs := by
  simp [run]

end AnchoredLedger.Block
