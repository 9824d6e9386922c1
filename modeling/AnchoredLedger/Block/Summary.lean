import AnchoredLedger.Block.Basic
import AnchoredLedger.Calendar.Reading
import AnchoredLedger.Header.Form

/-! # Summaries of blocks

A summary is what is shown of a block in JSON: its identity and header, its time in words, its anchor,
list and signature where it has them, and its size.

* **`Summary`**, **`Block.summary`** — the summary of a block.
* **`Summary.toJson`**, **`Summary.ofJson`** — the JSON form and the read of it. -/

namespace AnchoredLedger

/-- **A summary of a block.** -/
structure Summary where
  /-- The identity. -/
  hash : Hash
  /-- The header. -/
  header : Header
  /-- The time as a date. -/
  time : Option Calendar.Instant
  /-- The anchor. -/
  anchor : Option Hash
  /-- The transaction hashes. -/
  transactions : Option (List Hash)
  /-- The signature as a hexadecimal text. -/
  signatures : Option String
  /-- The length of the wire form. -/
  size : Nat
deriving DecidableEq, Repr

/-- **The summary of a block.** -/
def Block.summary (b : Block) : Summary where
  hash := b.hash
  header := b.header
  time := some (.ofSeconds b.time)
  anchor := b.anchor
  transactions := b.transactions
  signatures := b.signatures.map Hex.encode
  size := b.messageSize

namespace Summary

/-- **The form of a summary.** -/
def toJson (s : Summary) : Json.Value :=
  .object [("hash", .ofFixed s.hash), ("header", s.header.toJson),
    ("time_utc", .ofOption (fun t => .text t.toText) s.time),
    ("anchor_hash", .ofOption .ofFixed s.anchor),
    ("transactions", .ofOption (fun hashes => .list (hashes.map .ofFixed)) s.transactions),
    ("signatures", .ofOption .text s.signatures), ("size", .number s.size)]

/-- A summary as far as it has been read. -/
structure Partial where
  /-- The identity. -/
  hash : Option Hash := none
  /-- The header. -/
  header : Option Header := none
  /-- The time as a date. -/
  time : Option (Option Calendar.Instant) := none
  /-- The anchor. -/
  anchor : Option (Option Hash) := none
  /-- The transaction hashes. -/
  transactions : Option (Option (List Hash)) := none
  /-- The signature. -/
  signatures : Option (Option String) := none
  /-- The length of the wire form. -/
  size : Option Nat := none

/-- The summary, if all fields it cannot do without have been read. -/
def Partial.complete? (p : Partial) : Option Summary := do
  let hash ← p.hash
  let header ← p.header
  let size ← p.size
  pure { hash, header, time := p.time.join, anchor := p.anchor.join,
         transactions := p.transactions.join, signatures := p.signatures.join, size }

/-- The fields of a summary. -/
def fields : List (Json.Field Partial) :=
  [Json.field "hash" (Json.fixed 32) (·.hash) fun p v => { p with hash := some v },
    Json.field "header" Header.step (·.header) fun p v => { p with header := some v },
    Json.field "time_utc" (Json.optional (Json.through Calendar.Instant.ofText?)) (·.time)
      fun p v => { p with time := some v },
    Json.field "anchor_hash" (Json.optional (Json.fixed 32)) (·.anchor) fun p v =>
      { p with anchor := some v },
    Json.field "transactions" (Json.optional (Json.listOf (Json.fixed 32))) (·.transactions)
      fun p v => { p with transactions := some v },
    Json.field "signatures" (Json.optional Json.string) (·.signatures) fun p v =>
      { p with signatures := some v },
    Json.field "size" (Json.natural Json.maxExact) (·.size) fun p v => { p with size := some v }]

/-- The next summary of a JSON text. -/
def step : Json.Step Summary := Json.record fields {} Partial.complete?

/-- **The summary of a whole JSON text.** -/
def ofJson (s : String) : Except Json.Fault Summary := Json.ofText step s

end Summary

end AnchoredLedger
