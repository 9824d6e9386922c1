import AnchoredLedger.Block.Basic
import AnchoredLedger.Overflow

/-! # Verification of blocks

What can be checked of a block without the chain: its time must not run ahead of the clock by more
than the allowed drift, and its transaction hashes must produce its root.

* **`Verdict`** — accepted, refused for a cause, or out of the range of the clock.
* **`Verifier`** — the clock and the drift it allows; **`Verifier.verify`** makes all checks. -/

namespace AnchoredLedger

/-- **Why a block is refused.** -/
inductive Refusal where
  /-- The time lies beyond the limit. -/
  | timestampTooFarInFuture (time limit : Int64)
  /-- The transaction hashes have another root than the header. -/
  | merkleRootMismatch (calculated header : Hash)
deriving DecidableEq, Repr

namespace Refusal

/-- The wording of a refusal. -/
def message : Refusal → String
  | timestampTooFarInFuture time limit =>
    "Block too far in future: " ++ toString time.toInt ++ " vs " ++ toString limit.toInt
  | merkleRootMismatch calculated header =>
    "Merkle hashes do not match: " ++ calculated.toHex ++ " vs " ++ header.toHex

end Refusal

/-- **The outcome of a check.** -/
inductive Verdict where
  /-- Nothing speaks against the block. -/
  | accepted
  /-- The block is refused. -/
  | refused (cause : Refusal)
  /-- Clock and drift have no sum, so there is no limit to check against. -/
  | overflow (cause : Overflow)
deriving DecidableEq, Repr

/-- The next check, made only if the first finds nothing. -/
def Verdict.andThen : Verdict → Verdict → Verdict
  | accepted, next => next
  | verdict, _ => verdict

/-- **The clock and the drift it allows**, in seconds. -/
structure Verifier where
  /-- Seconds since the epoch. -/
  now : Int64
  /-- How far a time may run ahead; two days unless given otherwise. -/
  drift : Int64 := 172800
deriving DecidableEq, Repr

namespace Verifier

/-- The time of a block against the clock. -/
def verifyHeader (v : Verifier) (b : Block) : Verdict :=
  match Overflow.addInt64 v.now v.drift with
  | .error e => .overflow e
  | .ok limit =>
    let time := Int64.ofNat b.time.toNat
    if limit < time then .refused (.timestampTooFarInFuture time limit) else .accepted

end Verifier

namespace Verdict

/-- The transaction hashes against the root in force. A block without a transaction list has nothing
to check. -/
def ofMerkleRoot (b : Block) : Verdict :=
  match b.transactions with
  | none => .accepted
  | some _ =>
    if b.calculateMerkleRoot = b.merkleRoot then .accepted
    else .refused (.merkleRootMismatch b.calculateMerkleRoot b.merkleRoot)

/-- The contents of the transactions, at a height and under flags: there are no rules for them, so
nothing is refused. -/
def ofTransactions (_block : Block) (_height : Option UInt64) (_flags : UInt32) : Verdict := .accepted

end Verdict

/-- **All checks of a block**: its time, its root, its transactions; the first refusal counts. -/
def Verifier.verify (v : Verifier) (b : Block) (height : Option UInt64) (flags : UInt32) : Verdict :=
  ((v.verifyHeader b).andThen (.ofMerkleRoot b)).andThen (.ofTransactions b height flags)

end AnchoredLedger
