/-! # JSON values and their texts

The values that summaries, headers and parameters are written as, with the two texts of each: on one
line without blanks, and spread over lines.

* **`Json.Value`** — null, numbers, texts, lists, and objects in the order of their fields.
* **`Json.Value.compact`** — the text on one line.
* **`Json.Value.pretty`** — the text over lines, each level two blanks further in. -/

namespace AnchoredLedger.Json

/-- **A value.** -/
inductive Value where
  /-- No value. -/
  | null
  /-- A natural number. -/
  | number (n : Nat)
  /-- A text. -/
  | text (s : String)
  /-- A list. -/
  | list (items : List Value)
  /-- An object, in the order of its fields. -/
  | object (fields : List (String × Value))

/-! ## Texts within texts -/

/-- The low hexadecimal digit of a number. -/
def hexDigit (n : Nat) : Char := (Nat.digitChar (n % 16))

/-- A character within a text: quotes, backslashes and control characters are escaped. -/
def escaped (c : Char) : List Char :=
  if c = '"' then ['\\', '"']
  else if c = '\\' then ['\\', '\\']
  else if c = '\x08' then ['\\', 'b']
  else if c = '\t' then ['\\', 't']
  else if c = '\n' then ['\\', 'n']
  else if c = '\x0c' then ['\\', 'f']
  else if c = '\r' then ['\\', 'r']
  else if c.toNat < 32 then ['\\', 'u', '0', '0', hexDigit (c.toNat / 16), hexDigit c.toNat]
  else [c]

/-- A text between quotes. -/
def quoted (s : String) : List Char := '"' :: s.toList.flatMap escaped ++ ['"']

namespace Value

/-! ## On one line -/

mutual

/-- The characters of a value on one line. -/
def compactChars : Value → List Char
  | null => ['n', 'u', 'l', 'l']
  | number n => Nat.toDigits 10 n
  | text s => quoted s
  | list [] => ['[', ']']
  | list (v :: vs) => '[' :: compactChars v ++ compactItems vs
  | object [] => ['\x7b', '\x7d']
  | object ((name, v) :: fs) =>
    '\x7b' :: quoted name ++ ':' :: compactChars v ++ compactFields fs

/-- The characters of the further items of a list, with its end. -/
def compactItems : List Value → List Char
  | [] => [']']
  | v :: vs => ',' :: compactChars v ++ compactItems vs

/-- The characters of the further fields of an object, with its end. -/
def compactFields : List (String × Value) → List Char
  | [] => ['\x7d']
  | (name, v) :: fs => ',' :: quoted name ++ ':' :: compactChars v ++ compactFields fs

end

/-- **The text on one line.** -/
def compact (v : Value) : String := String.ofList v.compactChars

/-! ## Over lines -/

/-- The start of a line at a level. -/
def newLine (level : Nat) : List Char := '\n' :: List.replicate (2 * level) ' '

mutual

/-- The characters of a value at a level. -/
def prettyChars (level : Nat) : Value → List Char
  | null => ['n', 'u', 'l', 'l']
  | number n => Nat.toDigits 10 n
  | text s => quoted s
  | list [] => ['[', ']']
  | list (v :: vs) =>
    '[' :: newLine (level + 1) ++ prettyChars (level + 1) v ++ prettyItems level vs
  | object [] => ['\x7b', '\x7d']
  | object ((name, v) :: fs) =>
    '\x7b' :: newLine (level + 1) ++ quoted name ++ ':' :: ' ' :: prettyChars (level + 1) v
      ++ prettyFields level fs

/-- The characters of the further items of a list at a level, with its end. -/
def prettyItems (level : Nat) : List Value → List Char
  | [] => newLine level ++ [']']
  | v :: vs => ',' :: newLine (level + 1) ++ prettyChars (level + 1) v ++ prettyItems level vs

/-- The characters of the further fields of an object at a level, with its end. -/
def prettyFields (level : Nat) : List (String × Value) → List Char
  | [] => newLine level ++ ['\x7d']
  | (name, v) :: fs =>
    ',' :: newLine (level + 1) ++ quoted name ++ ':' :: ' ' :: prettyChars (level + 1) v
      ++ prettyFields level fs

end

/-- **The text over lines.** -/
def pretty (v : Value) : String := String.ofList (v.prettyChars 0)

/-- A value that may be absent. -/
def ofOption {α : Type} (form : α → Value) : Option α → Value
  | none => null
  | some a => form a

end Value

end AnchoredLedger.Json
