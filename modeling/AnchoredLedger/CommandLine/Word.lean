/-! # The words of a command line

Words that start with dashes are options, up to a word of two dashes alone; an option may carry its
value after an equals sign, a short one directly behind it, or in the next word. All other words are
operands. Words are read from left to right: the first that is wrong, or asks for help, ends the reading.

* **`Switch`**, **`Shape`** — an option that a command knows, and all that a command takes.
* **`Word.read`** — what a single word says; **`scan`** — what all of them give.
* **`Shape.read`** — what words give to a command of some shape, or why they give nothing. -/

namespace AnchoredLedger.CommandLine

/-- **An option that a command knows.** -/
structure Switch where
  /-- Its name, after two dashes. -/
  name : String
  /-- Its letter, after one dash; an option with a letter has a value. -/
  letter : Option Char := none
  /-- Whether it has a value. -/
  hasValue : Bool := true
  /-- Whether it may be given more than once. -/
  repeats : Bool := false
  /-- Which values it may have. -/
  accepts : String → Bool := fun _ => true

/-- **What a command takes.** -/
structure Shape where
  /-- Its options. -/
  switches : List Switch := []
  /-- The most operands it has, where there is such a number. -/
  mostOperands : Option Nat := some 0

/-- **What a word gives.** -/
inductive Given where
  /-- An option, with its value where it has one. -/
  | option (name : String) (value : String)
  /-- An operand. -/
  | operand (text : String)
deriving DecidableEq, Repr

/-- **Why words name no command.** -/
inductive Stop where
  /-- They are wrong. -/
  | misuse
  /-- They ask for help. -/
  | help
  /-- They ask for the version. -/
  | version
deriving DecidableEq, Repr

/-! ## Single words -/

/-- **What a word says.** -/
inductive Word where
  /-- It gives something. -/
  | gives (what : Given)
  /-- It is an option whose value is the next word. -/
  | awaits (name : String)
  /-- All words after it are operands. -/
  | close
  /-- It ends the reading. -/
  | stop (reason : Stop)
deriving DecidableEq, Repr

/-- **What a word says** where some options are known. A dash alone is an operand. -/
def Word.read (known : List Switch) (w : String) : Word :=
  if w = "--" then .close
  else
    match w.toList with
    | '-' :: '-' :: long =>
      let name := String.ofList (long.takeWhile (· ≠ '='))
      match known.find? (·.name == name), long.dropWhile (· ≠ '=') with
      | none, _ => .stop (if w = "--help" then .help else .misuse)
      | some s, [] => if s.hasValue then .awaits s.name else .gives (.option s.name "")
      | some s, _ :: value =>
        if s.hasValue then .gives (.option s.name (String.ofList value)) else .stop .misuse
    | '-' :: letter :: behind =>
      match known.find? (·.letter == some letter), behind with
      | none, _ => .stop (if letter = 'h' then .help else .misuse)
      | some s, [] => .awaits s.name
      | some s, '=' :: value => .gives (.option s.name (String.ofList value))
      | some s, value => .gives (.option s.name (String.ofList value))
    | _ => .gives (.operand w)

/-- Whether a word can be the value of the option before it: it must not start with a dash, a dash
alone excepted. -/
def isValue (w : String) : Bool := !w.startsWith "-" || w = "-"

/-! ## All words -/

/-- **What words give**, in order, up to the word that ends the reading, and why it ends there. -/
def scan (known : List Switch) : List String → List Given × Option Stop
  | [] => ([], none)
  | w :: ws =>
    match Word.read known w with
    | .stop reason => ([], some reason)
    | .close => (ws.map .operand, none)
    | .gives what =>
      let (given, stop) := scan known ws
      (what :: given, stop)
    | .awaits name =>
      match ws with
      | [] => ([], some .misuse)
      | v :: rest =>
        if isValue v then
          let (given, stop) := scan known rest
          (.option name v :: given, stop)
        else ([], some .misuse)

/-- The values given to an option, in order. -/
def values (given : List Given) (name : String) : List String :=
  given.filterMap fun
    | .option n v => if n = name then some v else none
    | .operand _ => none

/-- The operands, in order. -/
def operands (given : List Given) : List String :=
  given.filterMap fun
    | .option _ _ => none
    | .operand text => some text

/-- Whether an option is given. -/
def isGiven (given : List Given) (name : String) : Bool := !(values given name).isEmpty

/-! ## What a command takes -/

namespace Shape

/-- **Whether a command takes what is given**: values that its options may have, each option as often
as it may be given, and no operand too many. -/
def takes (shape : Shape) (given : List Given) : Bool :=
  (shape.switches.all fun s =>
      (values given s.name).all s.accepts && (s.repeats || (values given s.name).length ≤ 1))
    && shape.mostOperands.all ((operands given).length ≤ ·)

/-- **What words give to a command.** What comes before the end of the reading must be taken; only
then the reason for that end counts. -/
def read (shape : Shape) (words : List String) : Except Stop (List Given) :=
  let (given, stop) := scan shape.switches words
  if shape.takes given then
    match stop with
    | none => .ok given
    | some reason => .error reason
  else .error .misuse

end Shape

end AnchoredLedger.CommandLine
