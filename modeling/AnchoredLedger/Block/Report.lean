import AnchoredLedger.Block.Basic
import AnchoredLedger.Calendar.Instant

/-! # Reports on blocks

The report of a block is its description in lines, for people to read.

* **`Block.report`** — the lines, each with its end. -/

namespace AnchoredLedger.Block

/-- The rules in force, in brackets, or nothing. -/
def rulesNote (b : Block) : String :=
  match b.rules.filter Prod.snd with
  | [] => ""
  | inForce => " (" ++ ", ".intercalate (inForce.map Prod.fst) ++ ")"

/-- The anchor, or that there is none. -/
def anchorNote (b : Block) : String :=
  match b.anchor with
  | some anchor => anchor.toHex
  | none => "none"

/-- The lines that list the transactions. -/
def transactionLines (b : Block) : List String :=
  match b.transactions with
  | none => []
  | some [] => []
  | some hashes =>
    ("   with " ++ toString hashes.length ++ " transaction(s):")
      :: hashes.map fun h => "      " ++ h.toHex

/-- The lines of the report. -/
def reportLines (b : Block) : List String :=
  [" block: ",
    "   hash: " ++ b.hash.toHex,
    "   version: " ++ toString b.version.toNat ++ b.rulesNote,
    "   plan key: " ++ b.planKey.toHex,
    "   previous block: " ++ b.prevBlock.toHex,
    "   merkle root: " ++ b.merkleRoot.toHex,
    "   previous anchor: " ++ b.prevAnchor.toHex,
    "   current anchor: [ " ++ b.anchorNote ++ " ] (not hashed)",
    "   time: " ++ toString b.time.toNat ++ " (" ++ (Calendar.Instant.ofSeconds b.time).toText
      ++ ")"]
    ++ b.transactionLines

/-- **The report**, every line with its end. -/
def report (b : Block) : String := String.join (b.reportLines.map (· ++ "\n"))

end AnchoredLedger.Block
