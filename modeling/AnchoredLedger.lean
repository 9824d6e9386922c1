import AnchoredLedger.Address
import AnchoredLedger.Base58
import AnchoredLedger.Block.Basic
import AnchoredLedger.Block.Draft
import AnchoredLedger.Block.Edit
import AnchoredLedger.Block.Report
import AnchoredLedger.Block.Retained
import AnchoredLedger.Block.Summary
import AnchoredLedger.Block.Wire
import AnchoredLedger.Calendar
import AnchoredLedger.Calendar.Instant
import AnchoredLedger.Calendar.Reading
import AnchoredLedger.Command
import AnchoredLedger.CommandLine
import AnchoredLedger.CommandLine.Value
import AnchoredLedger.CommandLine.Word
import AnchoredLedger.CompactSize
import AnchoredLedger.Cursor
import AnchoredLedger.Cursor.Request
import AnchoredLedger.Curve.Modular
import AnchoredLedger.Curve.Point
import AnchoredLedger.Curve.PublicKey
import AnchoredLedger.Digest.Hmac
import AnchoredLedger.Digest.Ripemd160
import AnchoredLedger.Digest.Sha256
import AnchoredLedger.Files
import AnchoredLedger.FixedOctets
import AnchoredLedger.Header
import AnchoredLedger.Header.Form
import AnchoredLedger.Hex
import AnchoredLedger.Identity
import AnchoredLedger.Json.Lexical
import AnchoredLedger.Json.Record
import AnchoredLedger.Json.Value
import AnchoredLedger.KeyPair
import AnchoredLedger.Main
import AnchoredLedger.Merkle.Branch
import AnchoredLedger.Merkle.Tree
import AnchoredLedger.Network
import AnchoredLedger.Network.Form
import AnchoredLedger.Octets
import AnchoredLedger.Overflow
import AnchoredLedger.Proofs.Block.Coherence
import AnchoredLedger.Proofs.Block.Parse
import AnchoredLedger.Proofs.Block.Reachable
import AnchoredLedger.Proofs.Block.RoundTrip
import AnchoredLedger.Proofs.Block.Sections
import AnchoredLedger.Proofs.Block.Verdicts
import AnchoredLedger.Proofs.CompactSize
import AnchoredLedger.Proofs.Header
import AnchoredLedger.Proofs.Octets
import AnchoredLedger.Proofs.Recognition
import AnchoredLedger.Signature.Der
import AnchoredLedger.Signature.Ecdsa
import AnchoredLedger.Text.Blank
import AnchoredLedger.Text.CaseTable
import AnchoredLedger.Text.Lowercase
import AnchoredLedger.Text.Octets
import AnchoredLedger.Transaction
import AnchoredLedger.Transaction.Report
import AnchoredLedger.Verification
import AnchoredLedger.WireError
import AnchoredLedger.Proofs.Collision
import AnchoredLedger.Proofs.Merkle.Levels
import AnchoredLedger.Proofs.Merkle.Branch
import AnchoredLedger.Proofs.Block.Commitment
import AnchoredLedger.Proofs.Block.Contents
import AnchoredLedger.Proofs.Block.Retention
import AnchoredLedger.Proofs.Block.Root
import AnchoredLedger.Proofs.Block.Size
import AnchoredLedger.Proofs.Unwinding
import AnchoredLedger.Proofs.Block.Independence
import AnchoredLedger.Proofs.Merkle.Completeness
import AnchoredLedger.Proofs.Economy
import AnchoredLedger.Proofs.Locality
import AnchoredLedger.Proofs.Transaction.Grammar
import AnchoredLedger.Proofs.Transaction.Consumption
import AnchoredLedger.Proofs.Transaction.RoundTrip
import AnchoredLedger.Proofs.Transaction.Total
import AnchoredLedger.Proofs.Clock
import AnchoredLedger.Proofs.Hex
import AnchoredLedger.Proofs.Signature
import AnchoredLedger.Proofs.Command.Request
import AnchoredLedger.Proofs.Command.Build
import AnchoredLedger.Proofs.Block.Signing
import AnchoredLedger.Proofs.Block.Routes
import AnchoredLedger.Proofs.Block.Ambiguity
import AnchoredLedger.Proofs.Block.Truncation
import AnchoredLedger.Proofs.Lookahead
import AnchoredLedger.Proofs.Merkle.Agreement
import AnchoredLedger.Proofs.Text
import AnchoredLedger.Proofs.RedeemScript
import AnchoredLedger.Proofs.Command.Input
import AnchoredLedger.Proofs.Verification
import AnchoredLedger.Proofs.Block.Limit
import AnchoredLedger.Proofs.Base58
import AnchoredLedger.Proofs.Secret
import AnchoredLedger.Proofs.Address
import AnchoredLedger.Proofs.Identity
import AnchoredLedger.Proofs.CompactSize.Delimitation
import AnchoredLedger.Proofs.Identity.LetterCase
import AnchoredLedger.Proofs.Json.Lexical
import AnchoredLedger.Proofs.Json.Form
import AnchoredLedger.Proofs.Json.Reading
import AnchoredLedger.Proofs.Hex.Texts
import AnchoredLedger.Proofs.Calendar
import AnchoredLedger.Proofs.Calendar.Reading
import AnchoredLedger.Proofs.Block.Summary
import AnchoredLedger.Proofs.Cursor.Indexed
import AnchoredLedger.Proofs.Cursor.Sequence
