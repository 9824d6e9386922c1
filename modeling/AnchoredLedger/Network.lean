import AnchoredLedger.Octets

/-! # Networks

What distinguishes a network of nodes: the marks on its packets, the version octets of its addresses
and the limit on its blocks.

* **`Network`** — the parameters; **`Network.main`** — the only network there is.
* **`Network.magicOctets`** — the packet mark as it travels.
* **`Network.acceptsVersion`** — whether a version octet belongs to an address. -/

namespace AnchoredLedger

/-- **The parameters of a network.** -/
structure Network where
  /-- Name. -/
  id : String
  /-- Mark in front of every packet. -/
  packetMagic : UInt32
  /-- Default port. -/
  port : UInt16
  /-- Version octet of addresses that pay to a key. -/
  addressHeader : UInt8
  /-- Version octet of addresses that pay to a script. -/
  scriptHeader : UInt8
  /-- Version octet of exported secrets. -/
  secretHeader : UInt8
  /-- Mark of extended public keys. -/
  bip32PublicHeader : UInt32
  /-- Mark of extended secrets. -/
  bip32SecretHeader : UInt32
  /-- Scheme of payment addresses in links. -/
  uriScheme : String
  /-- What an output that anchors a block starts with. -/
  anchorPrefix : Octets
  /-- Limit on header and transaction list of a block, in octets. -/
  maxBlockSize : UInt64
deriving DecidableEq, Repr

namespace Network

/-- **The main network.** -/
def main : Network where
  id := "org.anchor.production"
  packetMagic := 0x6266687a
  port := 6969
  addressHeader := 40
  scriptHeader := 80
  secretHeader := 128
  bip32PublicHeader := 0x0488B21E
  bip32SecretHeader := 0x0488ADE4
  uriScheme := "bafanghuzhu"
  anchorPrefix := [0x38, 0x68, 0x7a]
  maxBlockSize := 1024 * 1000 * 1000

/-- The packet mark, most significant octet first. -/
def magicOctets (n : Network) : Octets := Octets.ofNatBE 4 n.packetMagic.toNat

/-- Whether a version octet is that of an address. -/
def acceptsVersion (n : Network) (version : UInt8) : Bool :=
  version == n.addressHeader || version == n.scriptHeader

end Network

end AnchoredLedger
