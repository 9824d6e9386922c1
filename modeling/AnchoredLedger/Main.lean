import AnchoredLedger.CommandLine
import Std.Time.DateTime.Timestamp

/-! # The tool

The outer layer of the tool: it gathers the file, the clock and a fresh secret, and writes out what
the command line comes to.

* **`main`** — the entry of the program. -/

namespace AnchoredLedger.Tool

/-- The cause for which a file could not be read, told by its number, whatever its sign. -/
def fileError : IO.Error → FileError
  | .noFileOrDirectory _ code _ | .permissionDenied _ code _ | .inappropriateType _ code _
  | .invalidArgument _ code _ | .noSuchThing _ code _ | .resourceExhausted _ code _
  | .otherError code _ => .ofCode code.toInt32.toInt.natAbs
  | _ => .unreadable

/-- The octets of a file. -/
def readFile (path : String) : IO (Except FileError Octets) := do
  match ← (IO.FS.readBinFile path).toBaseIO with
  | .ok contents => pure (.ok contents.toList)
  | .error e => pure (.error (fileError e))

/-- A fresh secret, drawn anew as long as the octets drawn are not usable. -/
partial def freshSecret : IO Secret := do
  match Secret.ofOctets? (← IO.getRandomBytes 32).toList with
  | some secret => pure secret
  | none => freshSecret

/-- Seconds since the epoch. -/
def clock : IO Int64 := do
  let now ← Std.Time.Timestamp.now
  pure (.ofInt now.toSecondsSinceUnixEpoch.val)

/-- Carries out a command. -/
def run (command : Invocation) : IO Exit := do
  let file ← command.file?.mapM readFile
  pure (command.execute { file, now := ← clock, secret := ← freshSecret })

end AnchoredLedger.Tool

/-- **The entry of the program**: carries out the command that the words name. -/
def main (words : List String) : IO UInt32 := do
  let exit ← match AnchoredLedger.Invocation.ofWords words with
    | .error stop => pure (AnchoredLedger.Exit.ofStop stop)
    | .ok command => AnchoredLedger.Tool.run command
  IO.print exit.printed
  IO.eprint exit.reported
  pure exit.code
