import AnchoredLedger.CompactSize
import AnchoredLedger.Header
import AnchoredLedger.Overflow

/-! # Transactions

A transaction spends outputs of earlier ones and makes new outputs. Its wire form is a version, two
counted lists and four words; blocks know it by its hash alone.

* **`Transaction`** with **`Input`** and **`Output`**.
* **`Transaction.encode`** / **`Transaction.read`** — the wire form and the read of it.
* **`Transaction.messageSize`** — the length of the wire form, added up field by field.
* **`Transaction.txid`**, **`totalOutput`**, **`isTimeLocked`** — what others ask of a transaction.

Reading is stated over the way in which a length is read (**`Transaction.readWith`**): the reader in
use refuses a length at once when so many items cannot follow. -/

namespace AnchoredLedger

namespace Transaction

/-- **The source of an input**: an output of an earlier transaction, with what unlocks it. -/
structure Input where
  /-- The earlier transaction. -/
  prevTx : Hash
  /-- Which of its outputs. -/
  outputIndex : UInt32
  /-- The unlocking script. -/
  scriptSig : Octets
  /-- Sequence number. -/
  sequence : UInt32
deriving DecidableEq, Repr

/-- **An amount locked by a script.** -/
structure Output where
  /-- The amount. -/
  value : UInt64
  /-- The locking script. -/
  scriptPubkey : Octets
deriving DecidableEq, Repr

end Transaction

/-- **A transaction.** -/
structure Transaction where
  /-- Version number. -/
  version : UInt32
  /-- What is spent. -/
  inputs : List Transaction.Input
  /-- What is made. -/
  outputs : List Transaction.Output
  /-- Block height or time before which it does not count. -/
  lockTime : UInt32
  /-- Kind of transaction. -/
  kind : UInt32
  /-- Seconds since the epoch at which it was made. -/
  createTime : UInt32
  /-- Distinguishes transactions that agree otherwise. -/
  nonce : UInt32
deriving DecidableEq, Repr

namespace Transaction

/-- A length reader: given the least size of an item, the next number of items. -/
abbrev LengthReader : Type := Nat → Reader Nat

/-- Octets preceded by their number. -/
def encodeScript (script : Octets) : Octets := CompactSize.encode script.length ++ script

/-- The next octets preceded by their number. -/
def readScript (length : LengthReader) : Reader Octets := do
  let n ← length 1
  Reader.octets n

/-! ## Inputs -/

namespace Input

/-- The least wire size of an input: hash and index, an empty script, sequence number. -/
def minSize : Nat := 41

/-- The sequence number that puts the lock time out of force. -/
def finalSequence : UInt32 := 0xFFFFFFFF

/-- The wire form of an input. -/
def encode (i : Input) : Octets :=
  i.prevTx.toWire ++ Octets.word32 i.outputIndex ++ encodeScript i.scriptSig
    ++ Octets.word32 i.sequence

/-- The next input. -/
def readWith (length : LengthReader) : Reader Input := do
  let prevTx ← Reader.hash
  let outputIndex ← Reader.word32
  let scriptSig ← readScript length
  let sequence ← Reader.word32
  pure { prevTx, outputIndex, scriptSig, sequence }

/-- The wire size of an input. -/
def messageSize (i : Input) : Nat :=
  40 + CompactSize.size i.scriptSig.length + i.scriptSig.length

/-- Whether the input disregards the lock time. -/
def isFinal (i : Input) : Bool := i.sequence == finalSequence

end Input

/-! ## Outputs -/

namespace Output

/-- The least wire size of an output: the amount and an empty script. -/
def minSize : Nat := 9

/-- The wire form of an output. -/
def encode (o : Output) : Octets := Octets.word64 o.value ++ encodeScript o.scriptPubkey

/-- The next output. -/
def readWith (length : LengthReader) : Reader Output := do
  let value ← Reader.word64
  let scriptPubkey ← readScript length
  pure { value, scriptPubkey }

/-- The wire size of an output. -/
def messageSize (o : Output) : Nat :=
  8 + CompactSize.size o.scriptPubkey.length + o.scriptPubkey.length

end Output

/-! ## The wire form -/

/-- **The wire form**: version, inputs, outputs, then lock time, kind, creation time and nonce. -/
def encode (t : Transaction) : Octets :=
  Octets.word32 t.version
    ++ CompactSize.encode t.inputs.length ++ t.inputs.flatMap Input.encode
    ++ CompactSize.encode t.outputs.length ++ t.outputs.flatMap Output.encode
    ++ Octets.word32 t.lockTime ++ Octets.word32 t.kind ++ Octets.word32 t.createTime
    ++ Octets.word32 t.nonce

/-- The next transaction, with lengths read as given. -/
def readWith (length : LengthReader) : Reader Transaction := do
  let version ← Reader.word32
  let inputCount ← length Input.minSize
  let inputs ← Reader.times (Input.readWith length) inputCount
  let outputCount ← length Output.minSize
  let outputs ← Reader.times (Output.readWith length) outputCount
  let lockTime ← Reader.word32
  let kind ← Reader.word32
  let createTime ← Reader.word32
  let nonce ← Reader.word32
  pure { version, inputs, outputs, lockTime, kind, createTime, nonce }

/-- **The next transaction.** -/
def read : Reader Transaction := readWith CompactSize.readLength

/-- The transaction at an offset into a buffer, with the octets it took. -/
def parse (buffer : Octets) (offset : Nat) : Except WireError (Transaction × Nat) :=
  Reader.parseAt read buffer offset

/-- The transaction a buffer starts with. -/
def ofOctets (buffer : Octets) : Except WireError Transaction :=
  (parse buffer 0).map Prod.fst

/-- **The length of the wire form**, added up from the parts. -/
def messageSize (t : Transaction) : Nat :=
  4 + CompactSize.size t.inputs.length + t.inputs.foldr (fun i size => i.messageSize + size) 0
    + CompactSize.size t.outputs.length + t.outputs.foldr (fun o size => o.messageSize + size) 0 + 16

/-! ## What others ask -/

/-- The hash that names the transaction. -/
def txid (t : Transaction) : Hash := .ofTwice t.encode

/-- **The sum of all amounts**, as a 64-bit word; a sum that leaves that range is an overflow. -/
def totalOutput (t : Transaction) : Except Overflow UInt64 :=
  t.outputs.foldlM (fun sum o => Overflow.add64 sum o.value) 0

/-- Whether the lock time holds for some input. -/
def isTimeLocked (t : Transaction) : Bool := 0 < t.lockTime && t.inputs.any fun i => !i.isFinal

end Transaction

end AnchoredLedger
