import AnchoredLedger.Header
import AnchoredLedger.Json.Record
import AnchoredLedger.Json.Value

/-! # The JSON form of headers

* **`Header.toJson`** — the form, hashes and key as hexadecimal texts.
* **`Header.step`**, **`Header.ofJson`** — the read of it, within a text and as a whole one.
* **`Json.fixed`** — the read of a value of fixed width. -/

namespace AnchoredLedger

namespace Json

/-- The value of fixed width that a text shows. -/
def fixed (n : Nat) : Step (FixedOctets n) := through fun s => (FixedOctets.ofHex s).toOption

/-- A 32-bit word. -/
def word32 : Step UInt32 := fun cs =>
  (natural 0xFFFFFFFF cs).map fun r => (UInt32.ofNat r.1, r.2)

/-- A value of fixed width as a text. -/
def Value.ofFixed {n : Nat} (v : FixedOctets n) : Value := .text v.toHex

end Json

/-- The value of fixed width that a whole JSON text shows. -/
def FixedOctets.ofJson {n : Nat} (s : String) : Except Json.Fault (FixedOctets n) :=
  Json.ofText (Json.fixed n) s

/-- The JSON text of a value of fixed width. -/
def FixedOctets.jsonText {n : Nat} (v : FixedOctets n) : String := (Json.Value.ofFixed v).compact

namespace Header

/-- **The form of a header.** -/
def toJson (h : Header) : Json.Value :=
  .object [("version", .number h.version.toNat), ("plan_key", .ofFixed h.planKey),
    ("prev_block_hash", .ofFixed h.prevBlock), ("merkle_root", .ofFixed h.merkleRoot),
    ("prev_anchor_hash", .ofFixed h.prevAnchor), ("time", .number h.time.toNat)]

/-- A header as far as it has been read. -/
structure Partial where
  /-- Version number. -/
  version : Option UInt32 := none
  /-- Second signer of the redemption path. -/
  planKey : Option PlanKey := none
  /-- Identity of the previous block. -/
  prevBlock : Option Hash := none
  /-- Root of the tree over the transaction hashes. -/
  merkleRoot : Option Hash := none
  /-- The transaction that anchors the previous block. -/
  prevAnchor : Option Hash := none
  /-- Seconds since the epoch. -/
  time : Option UInt32 := none

/-- The header, if all its fields have been read. -/
def Partial.complete? (p : Partial) : Option Header := do
  let version ← p.version
  let planKey ← p.planKey
  let prevBlock ← p.prevBlock
  let merkleRoot ← p.merkleRoot
  let prevAnchor ← p.prevAnchor
  let time ← p.time
  pure { version, planKey, prevBlock, merkleRoot, prevAnchor, time }

/-- The fields of a header. -/
def fields : List (Json.Field Partial) :=
  [Json.field "version" Json.word32 (·.version) fun p v => { p with version := some v },
    Json.field "plan_key" (Json.fixed 33) (·.planKey) fun p v => { p with planKey := some v },
    Json.field "prev_block_hash" (Json.fixed 32) (·.prevBlock) fun p v =>
      { p with prevBlock := some v },
    Json.field "merkle_root" (Json.fixed 32) (·.merkleRoot) fun p v =>
      { p with merkleRoot := some v },
    Json.field "prev_anchor_hash" (Json.fixed 32) (·.prevAnchor) fun p v =>
      { p with prevAnchor := some v },
    Json.field "time" Json.word32 (·.time) fun p v => { p with time := some v }]

/-- The next header of a JSON text. -/
def step : Json.Step Header := Json.record fields {} Partial.complete?

/-- **The header of a whole JSON text.** -/
def ofJson (s : String) : Except Json.Fault Header := Json.ofText step s

end Header

end AnchoredLedger
