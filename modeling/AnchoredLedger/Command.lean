import AnchoredLedger.Block.Draft
import AnchoredLedger.Block.Edit
import AnchoredLedger.Block.Report
import AnchoredLedger.Block.Summary
import AnchoredLedger.Files
import AnchoredLedger.Identity
import AnchoredLedger.Merkle.Tree
import AnchoredLedger.Verification

/-! # Commands

What the tool does for its user: look at blocks, verify and build them, compute roots, and derive keys.
A command is a function of what it is given; it says what it prints and what it results in.

* **`Outcome`** — what is printed, and a result or a **`CommandError`**.
* **`Command.readBlock`** — the octets of a block, given as a text or in a file.
* **`Command.inspect`**, **`verify`**, **`merkle`**, **`build`**, **`derive`**, **`keygen`**. -/

namespace AnchoredLedger

/-- **Why a command fails.** -/
inductive CommandError where
  /-- Octets or a text are no value. -/
  | wire (cause : WireError)
  /-- A text is no hexadecimal text. -/
  | hex (cause : Hex.Fault)
  /-- Something is wrong with keys. -/
  | key (cause : KeyError)
  /-- A file cannot be read. -/
  | file (cause : FileError)
  /-- Something is missing, in words. -/
  | notice (text : String)
  /-- A sum left its range. -/
  | overflow (cause : Overflow)
deriving DecidableEq, Repr

namespace CommandError

/-- The wording of an error. -/
def message : CommandError → String
  | wire cause => cause.message
  | hex cause => cause.message
  | key cause => cause.message
  | file cause => cause.message
  | notice text => text
  | overflow cause => cause.message

/-- The form of an error in a diagnostic. -/
def diagnostic : CommandError → String
  | wire cause => cause.diagnostic
  | hex cause => cause.diagnostic
  | key cause => cause.diagnostic
  | file cause => cause.diagnostic
  | notice text => "\"" ++ text ++ "\""
  | overflow cause => cause.message

end CommandError

/-- **What a command does**: what it prints, and its result. -/
structure Outcome (α : Type) where
  /-- What is printed. -/
  printed : String
  /-- The result. -/
  result : Except CommandError α

namespace Outcome

variable {α β : Type}

/-- A failure before anything is printed. -/
def failed (e : CommandError) : Outcome α := ⟨"", .error e⟩

/-- A success with some lines printed. -/
def success (lines : List String) (a : α) : Outcome α :=
  ⟨String.join (lines.map (· ++ "\n")), .ok a⟩

/-- A command on what another computation gives; its failure is that of the command. -/
def bindResult (r : Except CommandError β) (next : β → Outcome α) : Outcome α :=
  match r with
  | .error e => failed e
  | .ok b => next b

end Outcome

namespace Command

/-! ## Blocks -/

/-- The octets of a file: those its text stands for where it is a hexadecimal text, blanks around it
aside, and else its own. -/
def fileOctets (contents : Octets) : Octets :=
  match Text.ofOctets? contents with
  | none => contents
  | some text =>
    match Hex.decode (Text.trim text) with
    | .error _ => contents
    | .ok bs => bs

/-- **The octets of a block**, from a hexadecimal text or else from a file. -/
def readBlock (text : Option String) (file : Option (Except FileError Octets)) :
    Except CommandError Octets :=
  match text, file with
  | some s, _ => (Hex.decode (Text.trim s)).mapError .hex
  | none, some (.error e) => .error (.file e)
  | none, some (.ok contents) => .ok (fileOctets contents)
  | none, none => .error (.notice "either a hex block or --file is required")

/-- The block that octets start with. -/
def parseBlock (octets : Octets) : Except CommandError Block :=
  (Block.ofOctets octets).mapError .wire

/-- **Shows a block**, as a report or in JSON. -/
def inspect (octets : Octets) (json : Bool) : Outcome Unit :=
  .bindResult (parseBlock octets) fun block =>
    if json then .success [block.summary.toJson.pretty] ()
    else ⟨block.report ++ "   size: " ++ toString block.messageSize ++ " bytes\n", .ok ()⟩

/-- **Verifies a block**: whether its time and its root are in order. -/
def verify (octets : Octets) (now : Int64) (height : Option UInt64) : Outcome Bool :=
  .bindResult (parseBlock octets) fun block =>
    match Verifier.verify { now } block height 0 with
    | .accepted => .success ["✅ Block " ++ block.hash.toHex ++ " is valid"] true
    | .refused cause =>
      .success ["❌ Block " ++ block.hash.toHex ++ " failed verification: " ++ cause.message] false
    | .overflow cause => .failed (.overflow cause)

/-- The hash a text shows. -/
def readHash (s : String) : Except CommandError Hash := (FixedOctets.ofHex s).mapError .wire

/-- **Computes the root** over transaction hashes. -/
def merkle (texts : List String) : Outcome Hash :=
  .bindResult (texts.mapM readHash) fun leaves =>
    match Merkle.root? leaves with
    | none => .failed (.notice "at least one transaction hash is required")
    | some root => .success [root.toHex] root

/-- **What a block is built from.** -/
structure BuildRequest where
  /-- Version number. -/
  version : Option UInt32 := none
  /-- Plan key. -/
  planKey : Option String := none
  /-- Previous block. -/
  prevBlock : Option String := none
  /-- Previous anchor. -/
  prevAnchor : Option String := none
  /-- Root, if it is not to be computed. -/
  merkleRoot : Option String := none
  /-- Time, if it is not the present one. -/
  time : Option UInt32 := none
  /-- Transaction hashes. -/
  transactions : List String := []
  /-- Whether the block is to be only a header. -/
  headerOnly : Bool := false
  /-- Secret to sign with. -/
  signKey : Option String := none
deriving DecidableEq, Repr

/-- The hash an optional text shows; zero where there is none. -/
def readHashOrZero : Option String → Except CommandError Hash
  | none => .ok .zero
  | some s => readHash s

/-- What an optional text gives, entered into a draft. -/
def enterText {α : Type} (d : Draft) (s : Option String)
    (read : String → Except CommandError α) (entry : α → Draft.Entry) : Except CommandError Draft :=
  match s with
  | none => .ok d
  | some s => (read s).map fun a => d.enter (entry a)

/-- The draft of a request; transaction hashes are not looked at where only a header is wanted. -/
def BuildRequest.draft (r : BuildRequest) : Except CommandError Draft := do
  let prevBlock ← readHashOrZero r.prevBlock
  let prevAnchor ← readHashOrZero r.prevAnchor
  let d := Draft.blank.enterAll [.prevBlock prevBlock, .prevAnchor prevAnchor]
  let d := d.enterAll (r.version.toList.map .version)
  let d ← enterText d r.planKey (fun s => (FixedOctets.ofHex s).mapError .wire) .planKey
  let d ← enterText d r.merkleRoot readHash .merkleRoot
  let d := d.enterAll (r.time.toList.map .time)
  if r.headerOnly then
    pure (d.enter .headerOnly)
  else
    let hashes ← r.transactions.mapM readHash
    pure (d.enter (.transactions hashes))

/-- The block of a request, signed where a secret is given. -/
def BuildRequest.block (r : BuildRequest) (now : UInt32) : Except CommandError Block := do
  let block := (← r.draft).build now
  match r.signKey with
  | none => pure block
  | some s =>
    let key ← (KeyPair.ofHex s).mapError CommandError.key
    (block.sign key).mapError CommandError.key

/-- **Builds a block** and prints it as a hexadecimal text. -/
def build (r : BuildRequest) (now : UInt32) : Outcome Block :=
  .bindResult (r.block now) fun block => .success [block.toHex] block

/-! ## Keys -/

/-- The lines on a key pair. -/
def keyLines (key : KeyPair) (network : Network) : List String :=
  ["   Private key: " ++ key.secretHex,
    "   WIF: " ++ key.exportedSecret network,
    "   Public key: " ++ key.publicHex,
    "   Withdraw address: " ++ key.withdrawAddress network]
    ++ match key.depositAddress network with
      | .ok address => ["   Charge address: " ++ address]
      | .error _ => []

/-- **Derives the key pair of an identity.** -/
def derive (number salt planKey : String) : Outcome KeyPair :=
  .bindResult ((Identity.derive number salt planKey).mapError .key) fun key =>
    .success ("🔑 Identity key derived" :: keyLines key .main) key

/-- **Shows a new key pair**, made from a fresh secret. -/
def keygen (secret : Secret) : Outcome KeyPair :=
  let key := KeyPair.ofSecret secret
  .success ("🔑 New key pair" :: keyLines key .main) key

end Command

end AnchoredLedger
