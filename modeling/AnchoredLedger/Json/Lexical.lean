/-! # The lexical part of JSON

Reading goes from left to right and stops at the first fault. There are three kinds of fault: the text
ends too early, it is not formed as JSON, or it is formed but does not say what was asked for.

* **`Json.Fault`** — the kinds of fault; **`Json.Step`** — a step of reading.
* **`Json.textBody`** — a text, its opening quote behind; escapes are resolved.
* **`Json.scanNumber`** — a number, judged for its form and its size.
* **`Json.skipValue`** — a value nobody asked for, judged for its form alone. -/

namespace AnchoredLedger.Json

/-- **Why a text is refused.** -/
inductive Fault where
  /-- It ends too early. -/
  | ended
  /-- It is not formed as JSON. -/
  | malformed
  /-- It does not say what was asked for. -/
  | content
deriving DecidableEq, Repr

/-- A step of reading: what it gives, with the characters that follow. -/
abbrev Step (α : Type) : Type := List Char → Except Fault (α × List Char)

/-! ## Blanks and words -/

/-- The characters that may stand between the parts of a text. -/
def isSpace (c : Char) : Bool := c == ' ' || c == '\n' || c == '\t' || c == '\r'

/-- The characters after any blanks. -/
def skipSpace (cs : List Char) : List Char := cs.dropWhile isSpace

/-- The rest of a fixed word. -/
def word : List Char → Step Unit
  | [], cs => .ok ((), cs)
  | _ :: _, [] => .error .ended
  | e :: es, c :: cs => if c = e then word es cs else .error .malformed

/-! ## Texts -/

/-- The value of a hexadecimal digit. -/
def hexValue? (c : Char) : Option Nat :=
  if '0' ≤ c ∧ c ≤ '9' then some (c.toNat - 48)
  else if 'a' ≤ c ∧ c ≤ 'f' then some (c.toNat - 87)
  else if 'A' ≤ c ∧ c ≤ 'F' then some (c.toNat - 55)
  else none

/-- The number of four hexadecimal digits. -/
def hexQuad? (a b c d : Char) : Option Nat := do
  let a ← hexValue? a
  let b ← hexValue? b
  let c ← hexValue? c
  let d ← hexValue? d
  some (((a * 16 + b) * 16 + c) * 16 + d)

/-- The fault where four hexadecimal digits should follow and do not: the text ends too early if fewer
than four octets are left. -/
def quadFault (cs : List Char) : Fault :=
  if (cs.take 4).foldr (fun c size => c.utf8Size + size) 0 < 4 then .ended else .malformed

/-- The character of a short escape. -/
def shortEscape? (c : Char) : Option Char :=
  if c = '"' ∨ c = '\\' ∨ c = '/' then some c
  else if c = 'b' then some '\x08'
  else if c = 'f' then some '\x0c'
  else if c = 'n' then some '\n'
  else if c = 'r' then some '\r'
  else if c = 't' then some '\t'
  else none

/-- Whether a number is the first half of a surrogate pair. -/
def isHighSurrogate (n : Nat) : Bool := 0xD800 ≤ n && n ≤ 0xDBFF

/-- Whether a number is the second half of a surrogate pair. -/
def isLowSurrogate (n : Nat) : Bool := 0xDC00 ≤ n && n ≤ 0xDFFF

/-- The character of a surrogate pair. -/
def pairChar (high low : Nat) : Char := Char.ofNat (0x10000 + (high - 0xD800) * 0x400 + (low - 0xDC00))

/-- The fault after the first half of a surrogate pair whose second half is not escaped too. -/
def halfFault : List Char → Fault
  | [] => .ended
  | ['\\'] => .ended
  | '\\' :: 'u' :: rest => quadFault rest
  | _ => .malformed

/-- **The rest of a text**, its opening quote behind, given the characters so far in reverse. Control
characters must be escaped, and halves of surrogate pairs must pair up. -/
def textBody (done : List Char) : List Char → Except Fault (List Char × List Char)
  | [] => .error .ended
  | '"' :: rest => .ok (done.reverse, rest)
  | '\\' :: 'u' :: a :: b :: c :: d :: rest =>
    match hexQuad? a b c d with
    | none => .error (quadFault (a :: b :: c :: d :: rest))
    | some n =>
      if isLowSurrogate n then .error .malformed
      else if isHighSurrogate n then
        match rest with
        | '\\' :: 'u' :: e :: f :: g :: h :: rest' =>
          match hexQuad? e f g h with
          | none => .error (quadFault (e :: f :: g :: h :: rest'))
          | some m =>
            if isLowSurrogate m then textBody (pairChar n m :: done) rest'
            else .error .malformed
        | _ => .error (halfFault rest)
      else textBody (Char.ofNat n :: done) rest
  | '\\' :: 'u' :: rest => .error (quadFault rest)
  | ['\\'] => .error .ended
  | '\\' :: c :: rest =>
    match shortEscape? c with
    | none => .error .malformed
    | some e => textBody (e :: done) rest
  | c :: rest => if c.toNat < 32 then .error .malformed else textBody (c :: done) rest

/-- The characters after a text, its opening quote behind; its escapes are judged one by one. -/
def skipText : List Char → Except Fault (List Char)
  | [] => .error .ended
  | '"' :: rest => .ok rest
  | '\\' :: 'u' :: a :: b :: c :: d :: rest =>
    match hexQuad? a b c d with
    | none => .error (quadFault (a :: b :: c :: d :: rest))
    | some _ => skipText rest
  | '\\' :: 'u' :: rest => .error (quadFault rest)
  | ['\\'] => .error .ended
  | '\\' :: c :: rest =>
    match shortEscape? c with
    | none => .error .malformed
    | some _ => skipText rest
  | c :: rest => if c.toNat < 32 then .error .malformed else skipText rest

/-! ## Numbers -/

/-- Whether a character is a decimal digit. -/
def isDigit (c : Char) : Bool := '0' ≤ c && c ≤ '9'

/-- The largest number that is kept digit by digit. -/
def maxExact : Nat := 0xFFFFFFFFFFFFFFFF

/-- A number with more digits appended as long as it stays exact, and the digits left over. -/
def appendDigits (n : Nat) : List Char → Nat × List Char
  | [] => (n, [])
  | c :: cs =>
    let m := 10 * n + (c.toNat - 48)
    if maxExact < m then (n, c :: cs) else appendDigits m cs

/-- A number rounded to 53 significant bits, a tie going to the even neighbour. -/
def roundTo53 (n : Nat) : Nat :=
  let shift := n.log2 + 1 - 53
  let q := n >>> shift
  let r := n - (q <<< shift)
  let half := (1 <<< shift) / 2
  (if shift ≠ 0 ∧ (half < r ∨ (half = r ∧ q % 2 = 1)) then q + 1 else q) <<< shift

/-- **Whether a number is too large** for a double: `n * 10 ^ exponent`, each factor rounded, rounds
beyond the largest double. -/
def isTooLarge (n : Nat) (exponent : Int) : Bool :=
  n ≠ 0 && 0 ≤ exponent
    && (308 < exponent
      || (1 <<< 1024) - (1 <<< 970) ≤ roundTo53 n * roundTo53 (Nat.pow 10 exponent.toNat))

/-- What is left after a number that is no integer, if it is not too large. -/
def endNumber (n : Nat) (exponent : Int) (cs : List Char) : Except Fault (Option Nat × List Char) :=
  if isTooLarge n exponent then .error .malformed else .ok (none, cs)

/-- The largest exponent that is looked at. -/
def maxExponent : Nat := 0x7FFFFFFF

/-- The exponent of a number, its mark behind. -/
def scanExponent (n : Nat) (start : Int) (cs : List Char) :
    Except Fault (Option Nat × List Char) :=
  let (negative, cs) :=
    match cs with
    | '+' :: rest => (false, rest)
    | '-' :: rest => (true, rest)
    | _ => (false, cs)
  match cs with
  | [] => .error .ended
  | c :: _ =>
    if isDigit c then
      let ds := cs.takeWhile isDigit
      let rest := cs.dropWhile isDigit
      let value := ds.foldl (fun v d => 10 * v + (d.toNat - 48)) 0
      if maxExponent < value then
        if n ≠ 0 ∧ !negative then .error .malformed else .ok (none, rest)
      else endNumber n (if negative then start - value else start + value) rest
    else .error .malformed

/-- The fraction of a number, its point behind. -/
def scanFraction (n : Nat) (start : Int) (cs : List Char) : Except Fault (Option Nat × List Char) :=
  let ds := cs.takeWhile isDigit
  let rest := cs.dropWhile isDigit
  if ds.isEmpty then .error (if rest.isEmpty then .ended else .malformed)
  else
    let (m, left) := appendDigits n ds
    let exponent : Int := start - (ds.length - left.length : Nat)
    match rest with
    | c :: rest' => if c = 'e' ∨ c = 'E' then scanExponent m exponent rest' else endNumber m exponent rest
    | [] => endNumber m exponent []

/-- **A number**, its sign behind: the number itself if it is a natural number of 64 bits without
fraction and exponent, else nothing. -/
def scanNumber (negative : Bool) (cs : List Char) : Except Fault (Option Nat × List Char) :=
  let ds := cs.takeWhile isDigit
  let rest := cs.dropWhile isDigit
  match ds with
  | [] => .error (if cs.isEmpty then .ended else .malformed)
  | d :: more =>
    if d = '0' ∧ !more.isEmpty then .error .malformed
    else
      let (n, left) := appendDigits 0 ds
      let exponent : Int := left.length
      let whole : Except Fault (Option Nat × List Char) :=
        if !left.isEmpty then endNumber n exponent rest
        else .ok (if negative then none else some n, rest)
      match rest with
      | c :: rest' =>
        if c = '.' then scanFraction n exponent rest'
        else if c = 'e' ∨ c = 'E' then scanExponent n exponent rest'
        else whole
      | [] => whole

/-! ## Values nobody asked for -/

/-- The characters after an exponent, its mark behind. -/
def skipExponent (cs : List Char) : Except Fault (List Char) :=
  let cs :=
    match cs with
    | '+' :: rest => rest
    | '-' :: rest => rest
    | _ => cs
  if (cs.takeWhile isDigit).isEmpty then .error .malformed else .ok (cs.dropWhile isDigit)

/-- The characters after a number, its sign behind. -/
def skipNumber (cs : List Char) : Except Fault (List Char) :=
  let rest := cs.dropWhile isDigit
  match cs.takeWhile isDigit with
  | [] => .error .malformed
  | d :: more =>
    if d = '0' ∧ !more.isEmpty then .error .malformed
    else
      match rest with
      | '.' :: rest' =>
        let after := rest'.dropWhile isDigit
        if (rest'.takeWhile isDigit).isEmpty then .error .malformed
        else
          match after with
          | c :: after' => if c = 'e' ∨ c = 'E' then skipExponent after' else .ok after
          | [] => .ok after
      | c :: rest' => if c = 'e' ∨ c = 'E' then skipExponent rest' else .ok rest
      | [] => .ok rest

/-- A list or an object that has been opened. -/
inductive Frame where
  /-- A list. -/
  | list
  /-- An object. -/
  | object
deriving DecidableEq, Repr

/-- The mark that ends a frame. -/
def Frame.closing : Frame → Char
  | list => ']'
  | object => '\x7d'

/-- The characters from the next value of a frame on: in an object its name is passed over. -/
def skipName (frame : Frame) (cs : List Char) : Except Fault (List Char) :=
  match frame with
  | .list => .ok cs
  | .object =>
    match skipSpace cs with
    | [] => .error .ended
    | '"' :: rest =>
      match skipText rest with
      | .error e => .error e
      | .ok rest' =>
        match skipSpace rest' with
        | [] => .error .ended
        | ':' :: rest'' => .ok rest''
        | _ => .error .malformed
    | _ => .error .malformed

/-- Where skipping stands. -/
inductive Place where
  /-- Before a value. -/
  | value
  /-- Behind a value. -/
  | behind
  /-- Behind the mark that opens the innermost frame. -/
  | opened
deriving DecidableEq, Repr

/-- The end of a simple value at which skipping goes on. -/
def skipScalar (c : Char) (rest : List Char) : Except Fault (List Char) :=
  if c = 'n' then (word ['u', 'l', 'l'] rest).map Prod.snd
  else if c = 't' then (word ['r', 'u', 'e'] rest).map Prod.snd
  else if c = 'f' then (word ['a', 'l', 's', 'e'] rest).map Prod.snd
  else if c = '"' then skipText rest
  else if c = '-' then skipNumber rest
  else if isDigit c then skipNumber (c :: rest)
  else .error .malformed

/-- Skips on from a place within the given frames, innermost first. Every second step consumes a
character, so that twice their number of steps is enough. -/
def skipFrom : Nat → Place → List Frame → List Char → Except Fault (List Char)
  | 0, _, _, _ => .error .ended
  | fuel + 1, .value, frames, cs =>
    match skipSpace cs with
    | [] => .error .ended
    | '[' :: rest => skipFrom fuel .opened (.list :: frames) rest
    | '\x7b' :: rest => skipFrom fuel .opened (.object :: frames) rest
    | c :: rest =>
      match skipScalar c rest with
      | .error e => .error e
      | .ok rest' => skipFrom fuel .behind frames rest'
  | _ + 1, .behind, [], cs => .ok cs
  | fuel + 1, .behind, frame :: frames, cs =>
    match skipSpace cs with
    | [] => .error .ended
    | c :: rest =>
      if c = frame.closing then skipFrom fuel .behind frames rest
      else if c = ',' then
        match skipName frame rest with
        | .error e => .error e
        | .ok rest' => skipFrom fuel .value (frame :: frames) rest'
      else .error .malformed
  | _ + 1, .opened, [], cs => .ok cs
  | fuel + 1, .opened, frame :: frames, cs =>
    match skipSpace cs with
    | [] => .error .ended
    | c :: rest =>
      if c = frame.closing then skipFrom fuel .behind frames rest
      else
        match skipName frame (c :: rest) with
        | .error e => .error e
        | .ok rest' => skipFrom fuel .value (frame :: frames) rest'

/-- **The characters after a value nobody asked for.** -/
def skipValue (cs : List Char) : Except Fault (List Char) :=
  skipFrom (2 * cs.length + 2) .value [] cs

end AnchoredLedger.Json
