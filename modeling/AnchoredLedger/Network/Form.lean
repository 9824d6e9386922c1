import AnchoredLedger.Header.Form
import AnchoredLedger.Network

/-! # The JSON form of network parameters

* **`Network.toJson`** — the form; **`Network.ofJson`** — the read of it from a whole text. -/

namespace AnchoredLedger

namespace Json

/-- An octet. -/
def octet : Step UInt8 := fun cs => (natural 0xFF cs).map fun r => (UInt8.ofNat r.1, r.2)

/-- A 16-bit word. -/
def word16 : Step UInt16 := fun cs => (natural 0xFFFF cs).map fun r => (UInt16.ofNat r.1, r.2)

/-- A 64-bit word. -/
def word64 : Step UInt64 := fun cs => (natural maxExact cs).map fun r => (UInt64.ofNat r.1, r.2)

end Json

namespace Network

/-- **The form of network parameters.** -/
def toJson (n : Network) : Json.Value :=
  .object [("id", .text n.id), ("packet_magic", .number n.packetMagic.toNat),
    ("port", .number n.port.toNat), ("address_header", .number n.addressHeader.toNat),
    ("p2sh_header", .number n.scriptHeader.toNat),
    ("dumped_private_key_header", .number n.secretHeader.toNat),
    ("bip32_header_pub", .number n.bip32PublicHeader.toNat),
    ("bip32_header_priv", .number n.bip32SecretHeader.toNat), ("uri_scheme", .text n.uriScheme),
    ("anchor_prefix", .list (n.anchorPrefix.map fun b => .number b.toNat)),
    ("max_block_size", .number n.maxBlockSize.toNat)]

/-- Parameters as far as they have been read. -/
structure Partial where
  /-- Name. -/
  id : Option String := none
  /-- Mark in front of every packet. -/
  packetMagic : Option UInt32 := none
  /-- Default port. -/
  port : Option UInt16 := none
  /-- Version octet of addresses that pay to a key. -/
  addressHeader : Option UInt8 := none
  /-- Version octet of addresses that pay to a script. -/
  scriptHeader : Option UInt8 := none
  /-- Version octet of exported secrets. -/
  secretHeader : Option UInt8 := none
  /-- Mark of extended public keys. -/
  bip32PublicHeader : Option UInt32 := none
  /-- Mark of extended secrets. -/
  bip32SecretHeader : Option UInt32 := none
  /-- Scheme of payment addresses in links. -/
  uriScheme : Option String := none
  /-- What an output that anchors a block starts with. -/
  anchorPrefix : Option Octets := none
  /-- Limit on header and transaction list of a block. -/
  maxBlockSize : Option UInt64 := none

/-- The parameters, if all of them have been read. -/
def Partial.complete? (p : Partial) : Option Network := do
  let id ← p.id
  let packetMagic ← p.packetMagic
  let port ← p.port
  let addressHeader ← p.addressHeader
  let scriptHeader ← p.scriptHeader
  let secretHeader ← p.secretHeader
  let bip32PublicHeader ← p.bip32PublicHeader
  let bip32SecretHeader ← p.bip32SecretHeader
  let uriScheme ← p.uriScheme
  let anchorPrefix ← p.anchorPrefix
  let maxBlockSize ← p.maxBlockSize
  pure { id, packetMagic, port, addressHeader, scriptHeader, secretHeader, bip32PublicHeader,
         bip32SecretHeader, uriScheme, anchorPrefix, maxBlockSize }

/-- The fields of network parameters. -/
def fields : List (Json.Field Partial) :=
  [Json.field "id" Json.string (·.id) fun p v => { p with id := some v },
    Json.field "packet_magic" Json.word32 (·.packetMagic) fun p v =>
      { p with packetMagic := some v },
    Json.field "port" Json.word16 (·.port) fun p v => { p with port := some v },
    Json.field "address_header" Json.octet (·.addressHeader) fun p v =>
      { p with addressHeader := some v },
    Json.field "p2sh_header" Json.octet (·.scriptHeader) fun p v =>
      { p with scriptHeader := some v },
    Json.field "dumped_private_key_header" Json.octet (·.secretHeader) fun p v =>
      { p with secretHeader := some v },
    Json.field "bip32_header_pub" Json.word32 (·.bip32PublicHeader) fun p v =>
      { p with bip32PublicHeader := some v },
    Json.field "bip32_header_priv" Json.word32 (·.bip32SecretHeader) fun p v =>
      { p with bip32SecretHeader := some v },
    Json.field "uri_scheme" Json.string (·.uriScheme) fun p v => { p with uriScheme := some v },
    Json.field "anchor_prefix" (Json.listOf Json.octet) (·.anchorPrefix) fun p v =>
      { p with anchorPrefix := some v },
    Json.field "max_block_size" Json.word64 (·.maxBlockSize) fun p v =>
      { p with maxBlockSize := some v }]

/-- **The parameters of a whole JSON text.** -/
def ofJson (s : String) : Except Json.Fault Network :=
  Json.ofText (Json.record fields {} Partial.complete?) s

end Network

end AnchoredLedger
