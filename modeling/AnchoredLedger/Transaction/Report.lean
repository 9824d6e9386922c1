import AnchoredLedger.Calendar.Instant
import AnchoredLedger.Transaction

/-! # Reports on transactions

The report of a transaction is its description in lines. A transaction without inputs is not complete
and is described no further.

* **`Transaction.report`** — the lines, each with its end. -/

namespace AnchoredLedger.Transaction

/-- Lock times below this number are block heights, others are seconds since the epoch. -/
def lockTimeThreshold : UInt32 := 500000000

/-- The line on a lock time in force. -/
def lockLines (t : Transaction) : List String :=
  if t.isTimeLocked then
    [(if t.lockTime < lockTimeThreshold then "  time locked until block " else "  time locked until ")
      ++ toString t.lockTime.toNat]
  else []

/-- The line on an input. -/
def Input.line (i : Input) : String :=
  "     in   " ++ Hex.encode i.scriptSig ++ " outpoint:" ++ i.prevTx.toHex ++ ":"
    ++ toString i.outputIndex.toNat

/-- The line on an output. -/
def Output.line (o : Output) : String :=
  "     out  " ++ Hex.encode o.scriptPubkey ++ " " ++ toString o.value.toNat

/-- The lines on everything that only a complete transaction has. -/
def detailLines (t : Transaction) : List String :=
  if t.inputs.isEmpty then ["  INCOMPLETE: No inputs!"]
  else
    t.inputs.map Input.line ++ t.outputs.map Output.line
      ++ ["     type " ++ toString t.kind.toNat,
        "     createtime " ++ (Calendar.Instant.ofSeconds t.createTime).toText,
        "     nonce " ++ toString t.nonce.toNat]

/-- **The report**, every line with its end. -/
def report (t : Transaction) : String :=
  String.join ((("  " ++ t.txid.toHex) :: t.lockLines ++ t.detailLines).map (· ++ "\n"))

end AnchoredLedger.Transaction
