import AnchoredLedger.Command
import AnchoredLedger.CommandLine.Value
import AnchoredLedger.CommandLine.Word

/-! # The command line

The words of a command line name a command and what it is given; or else they ask for help or for the
version, or they are wrong.

* **`Invocation`**, **`Invocation.ofWords`** — the command they name, or why there is none.
* **`Exit`** — how the tool ends.
* **`Invocation.execute`** — the exit of a command. -/

namespace AnchoredLedger

open CommandLine

/-! ## Commands -/

/-- **A command with what it is given.** -/
inductive Invocation where
  /-- Show a block. -/
  | inspect (text : Option String) (file : Option String) (json : Bool)
  /-- Verify a block. -/
  | verify (text : Option String) (file : Option String) (now : Option Int64)
      (height : Option UInt64)
  /-- Compute a root. -/
  | merkle (hashes : List String)
  /-- Build a block. -/
  | build (request : Command.BuildRequest)
  /-- Derive the key pair of an identity. -/
  | derive (number salt planKey : String)
  /-- Make a new key pair. -/
  | keygen
deriving DecidableEq, Repr

namespace Invocation

/-- **A way to name a command**: its name, what it takes, and the command with that, unless something
is missing. -/
structure Entry where
  /-- Name. -/
  name : String
  /-- What it takes. -/
  shape : Shape
  /-- The command. -/
  invocation : List Given → Option Invocation

/-- The option that names a file. -/
def fileSwitch : Switch :=
  { name := "file", letter := some 'f', accepts := fun v => (path? v).isSome }

/-- An option that is a number. -/
def numberSwitch {α : Type} (name : String) (read? : String → Option α) : Switch :=
  { name, accepts := fun v => (read? v).isSome }

/-- An option without a value. -/
def plainSwitch (name : String) : Switch := { name, hasValue := false }

/-- The value of an option. -/
def value? (given : List Given) (name : String) : Option String := (values given name).head?

/-- Showing a block. -/
def inspectEntry : Entry where
  name := "inspect"
  shape := { switches := [fileSwitch, plainSwitch "json"], mostOperands := some 1 }
  invocation given :=
    some (.inspect (operands given).head? (value? given "file") (isGiven given "json"))

/-- Verifying a block. -/
def verifyEntry : Entry where
  name := "verify"
  shape :=
    { switches := [fileSwitch, numberSwitch "now" signed64?, numberSwitch "height" word64?]
      mostOperands := some 1 }
  invocation given :=
    some (.verify (operands given).head? (value? given "file")
      ((value? given "now").bind signed64?) ((value? given "height").bind word64?))

/-- Computing a root, of at least one hash. -/
def merkleEntry : Entry where
  name := "merkle"
  shape := { mostOperands := none }
  invocation given := if (operands given).isEmpty then none else some (.merkle (operands given))

/-- Building a block. -/
def buildEntry : Entry where
  name := "build"
  shape :=
    { switches :=
        [numberSwitch "version" word32?, { name := "plan-key" }, { name := "prev" },
          { name := "prev-anchor" }, { name := "merkle-root" }, numberSwitch "time" word32?,
          { name := "tx", repeats := true }, plainSwitch "header-only", { name := "sign-key" }] }
  invocation given :=
    some (.build
      { version := (value? given "version").bind word32?
        planKey := value? given "plan-key"
        prevBlock := value? given "prev"
        prevAnchor := value? given "prev-anchor"
        merkleRoot := value? given "merkle-root"
        time := (value? given "time").bind word32?
        transactions := values given "tx"
        headerOnly := isGiven given "header-only"
        signKey := value? given "sign-key" })

/-- Deriving a key pair. -/
def deriveEntry : Entry where
  name := "derive"
  shape := { switches := [{ name := "id" }, { name := "salt" }, { name := "plan-key" }] }
  invocation given := do
    let number ← value? given "id"
    let salt ← value? given "salt"
    let planKey ← value? given "plan-key"
    pure (.derive number salt planKey)

/-- Making a key pair. -/
def keygenEntry : Entry where
  name := "keygen"
  shape := {}
  invocation _ := some .keygen

/-- All commands. -/
def entries : List Entry :=
  [inspectEntry, verifyEntry, merkleEntry, buildEntry, deriveEntry, keygenEntry]

/-- The command of a name. -/
def entryNamed (name : String) : Option Entry := entries.find? (·.name == name)

/-- What words after a request for help come to: one may name a command, or the request again. -/
def helpOn : List String → Stop
  | [] => .help
  | [topic] => if topic = "help" ∨ (entryNamed topic).isSome then .help else .misuse
  | _ => .misuse

/-- What a first word that names no command asks for. A letter after one dash counts whatever stands
behind it. -/
def request (word : String) (words : List String) : Stop :=
  if word = "help" then helpOn words
  else if word = "--help" ∨ word.startsWith "-h" then .help
  else if word = "--version" ∨ word.startsWith "-V" then .version
  else .misuse

/-- **The command that words name**, or why there is none. -/
def ofWords : List String → Except Stop Invocation
  | [] => .error .misuse
  | word :: words =>
    match entryNamed word with
    | none => .error (request word words)
    | some entry =>
      match entry.shape.read words with
      | .error reason => .error reason
      | .ok given =>
        match entry.invocation given with
        | none => .error .misuse
        | some invocation => .ok invocation

/-- The file that a command reads: a block that is given as a text is not looked for in a file. -/
def file? : Invocation → Option String
  | .inspect none file _ => file
  | .verify none file _ _ => file
  | _ => none

end Invocation

/-! ## Exits -/

/-- **The exit of the tool**: its status, and what it wrote where. -/
structure Exit where
  /-- Status. -/
  code : UInt32
  /-- What was printed. -/
  printed : String
  /-- What was reported. -/
  reported : String
deriving DecidableEq, Repr

namespace Exit

/-- What the tool calls itself. -/
def banner : String := "anchor-block 0.1.0"

/-- The commands of the tool. -/
def usage : String :=
  "Usage: anchor-block <inspect|verify|merkle|build|derive|keygen> [OPTIONS] [ARGUMENTS]\n"

/-- The exit after a command: a failure is reported, and an overflow has a status of its own. -/
def ofOutcome {α : Type} (o : Outcome α) (passes : α → Bool) : Exit :=
  match o.result with
  | .ok a => ⟨if passes a then 0 else 1, o.printed, ""⟩
  | .error (.overflow cause) => ⟨101, o.printed, cause.message ++ "\n"⟩
  | .error e => ⟨1, o.printed, "Error: " ++ e.diagnostic ++ "\n"⟩

/-- The exit where words name no command. -/
def ofStop : Stop → Exit
  | .misuse => ⟨2, "", usage⟩
  | .help => ⟨0, usage, ""⟩
  | .version => ⟨0, banner ++ "\n", ""⟩

end Exit

/-- **What the tool finds when it runs.** -/
structure Surroundings where
  /-- What reading the file that the command names gave. -/
  file : Option (Except FileError Octets)
  /-- Seconds since the epoch. -/
  now : Int64
  /-- A fresh secret. -/
  secret : Secret

/-- The clock as a 32-bit word, at its highest where it does not fit. -/
def Surroundings.time (s : Surroundings) : UInt32 :=
  if 0 ≤ s.now.toInt ∧ s.now.toInt ≤ 0xFFFFFFFF then UInt32.ofNat s.now.toInt.toNat else 0xFFFFFFFF

/-- **The exit of a command.** -/
def Invocation.execute (s : Surroundings) : Invocation → Exit
  | .inspect text _ json =>
    .ofOutcome (.bindResult (Command.readBlock text s.file) (Command.inspect · json)) fun _ => true
  | .verify text _ now height =>
    .ofOutcome
      (.bindResult (Command.readBlock text s.file) (Command.verify · (now.getD s.now) height)) id
  | .merkle hashes => .ofOutcome (Command.merkle hashes) fun _ => true
  | .build request => .ofOutcome (Command.build request s.time) fun _ => true
  | .derive number salt planKey => .ofOutcome (Command.derive number salt planKey) fun _ => true
  | .keygen => .ofOutcome (Command.keygen s.secret) fun _ => true

end AnchoredLedger
