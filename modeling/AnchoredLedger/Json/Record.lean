import AnchoredLedger.Json.Lexical

/-! # Reading JSON for what it says

Readers for the values that are asked for. A value of another kind is refused, but only once its own
form has been judged as far as telling its kind takes.

* **`Json.natural`**, **`Json.string`**, **`Json.optional`**, **`Json.listOf`** — simple values.
* **`Json.Field`**, **`Json.record`** — objects with known fields: fields in any order, unknown ones
  passed over, none twice; or a list of exactly the fields in order.
* **`Json.ofText`** — the value of a whole text. -/

namespace AnchoredLedger.Json

/-- Refuses a value of another kind than asked for, whose first character is next. -/
def refuse {α : Type} : Step α
  | [] => .error .ended
  | c :: rest =>
    let judged : Except Fault Unit :=
      if c = 'n' then (word ['u', 'l', 'l'] rest).map fun _ => ()
      else if c = 't' then (word ['r', 'u', 'e'] rest).map fun _ => ()
      else if c = 'f' then (word ['a', 'l', 's', 'e'] rest).map fun _ => ()
      else if c = '"' then (textBody [] rest).map fun _ => ()
      else if c = '-' then (scanNumber true rest).map fun _ => ()
      else if isDigit c then (scanNumber false (c :: rest)).map fun _ => ()
      else if c = '[' ∨ c = '\x7b' then .ok ()
      else .error .malformed
    match judged with
    | .error e => .error e
    | .ok () => .error .content

/-! ## Simple values -/

/-- A natural number up to a bound. -/
def natural (bound : Nat) : Step Nat := fun cs =>
  let number (negative : Bool) (cs : List Char) : Except Fault (Nat × List Char) :=
    match scanNumber negative cs with
    | .error e => .error e
    | .ok (some n, rest) => if n ≤ bound then .ok (n, rest) else .error .content
    | .ok (none, _) => .error .content
  match skipSpace cs with
  | [] => .error .ended
  | c :: rest =>
    if c = '-' then number true rest
    else if isDigit c then number false (c :: rest)
    else refuse (c :: rest)

/-- A text. -/
def string : Step String := fun cs =>
  match skipSpace cs with
  | [] => .error .ended
  | '"' :: rest => (textBody [] rest).map fun r => (String.ofList r.1, r.2)
  | other => refuse other

/-- A text that stands for a value; one that stands for none is refused. -/
def through {α : Type} (meaning? : String → Option α) : Step α := fun cs =>
  match string cs with
  | .error e => .error e
  | .ok (s, rest) =>
    match meaning? s with
    | none => .error .content
    | some a => .ok (a, rest)

/-- A value that may be null. -/
def optional {α : Type} (step : Step α) : Step (Option α) := fun cs =>
  match skipSpace cs with
  | 'n' :: rest => (word ['u', 'l', 'l'] rest).map fun r => (none, r.2)
  | other => (step other).map fun r => (some r.1, r.2)

/-- What stands before the next item of a list: its end, or the item after a comma unless it is the
first. The end itself is not consumed. -/
def nextItem (first : Bool) : Step Bool := fun cs =>
  match skipSpace cs with
  | [] => .error .ended
  | ']' :: rest => .ok (false, ']' :: rest)
  | c :: rest =>
    if first then .ok (true, c :: rest)
    else if c = ',' then
      match skipSpace rest with
      | [] => .error .ended
      | ']' :: _ => .error .malformed
      | rest' => .ok (true, rest')
    else .error .malformed

/-- The end of a list. -/
def endList : Step Unit := fun cs =>
  match skipSpace cs with
  | [] => .error .ended
  | ']' :: rest => .ok ((), rest)
  | _ => .error .malformed

/-- The further items of a list. Every item takes a character, so that their number is enough
fuel. -/
def items {α : Type} (step : Step α) : Nat → Bool → Step (List α)
  | 0, _, _ => .error .ended
  | fuel + 1, first, cs =>
    match nextItem first cs with
    | .error e => .error e
    | .ok (false, rest) => .ok ([], rest)
    | .ok (true, rest) =>
      match step rest with
      | .error e => .error e
      | .ok (a, rest') =>
        match items step fuel false rest' with
        | .error e => .error e
        | .ok (as, rest'') => .ok (a :: as, rest'')

/-- A list of values of one kind. -/
def listOf {α : Type} (step : Step α) : Step (List α) := fun cs =>
  match skipSpace cs with
  | [] => .error .ended
  | '[' :: rest =>
    match items step (rest.length + 1) true rest with
    | .error e => .error e
    | .ok (as, rest') => (endList rest').map fun r => (as, r.2)
  | other => refuse other

/-! ## Records -/

/-- **A field of a record**, over the record as far as it has been read. -/
structure Field (ρ : Type) where
  /-- Its name. -/
  name : String
  /-- Whether it has been read. -/
  given : ρ → Bool
  /-- Reads its value into the record. -/
  read : ρ → Step ρ

variable {ρ : Type}

/-- The fields as the items of a list, all of them and in order. -/
def fieldList : List (Field ρ) → Bool → ρ → Step ρ
  | [], _, r, cs => .ok (r, cs)
  | f :: fs, first, r, cs =>
    match nextItem first cs with
    | .error e => .error e
    | .ok (false, _) => .error .content
    | .ok (true, rest) =>
      match f.read r rest with
      | .error e => .error e
      | .ok (r', rest') => fieldList fs false r' rest'

/-- What stands before the next field of an object: its end, or the opening quote of a name after a
comma unless it is the first. The end is consumed, and so is the quote. -/
def nextField (first : Bool) : Step Bool := fun cs =>
  match skipSpace cs with
  | [] => .error .ended
  | '\x7d' :: rest => .ok (false, rest)
  | c :: rest =>
    if first then
      if c = '"' then .ok (true, rest) else .error .malformed
    else if c = ',' then
      match skipSpace rest with
      | [] => .error .ended
      | '"' :: rest' => .ok (true, rest')
      | _ => .error .malformed
    else .error .malformed

/-- The colon between a name and its value. -/
def colon : Step Unit := fun cs =>
  match skipSpace cs with
  | [] => .error .ended
  | ':' :: rest => .ok ((), rest)
  | _ => .error .malformed

/-- The value of a named field: known fields are read once, unknown ones passed over. -/
def fieldValue (fields : List (Field ρ)) (name : String) (r : ρ) : Step ρ := fun cs =>
  match fields.find? fun f => f.name == name with
  | some f =>
    if f.given r then .error .content
    else
      match colon cs with
      | .error e => .error e
      | .ok ((), rest) => f.read r rest
  | none =>
    match colon cs with
    | .error e => .error e
    | .ok ((), rest) => (skipValue rest).map fun rest' => (r, rest')

/-- The further fields of an object. Every field takes a character, so that their number is enough
fuel. -/
def fieldMap (fields : List (Field ρ)) : Nat → Bool → ρ → Step ρ
  | 0, _, _, _ => .error .ended
  | fuel + 1, first, r, cs =>
    match nextField first cs with
    | .error e => .error e
    | .ok (false, rest) => .ok (r, rest)
    | .ok (true, rest) =>
      match textBody [] rest with
      | .error e => .error e
      | .ok (name, rest') =>
        match fieldValue fields (String.ofList name) r rest' with
        | .error e => .error e
        | .ok (r', rest'') => fieldMap fields fuel false r' rest''

/-- **A record with the given fields**, started empty; it is refused where a field that it cannot do
without is missing. -/
def record {α : Type} (fields : List (Field ρ)) (empty : ρ) (complete? : ρ → Option α) : Step α :=
  fun cs =>
    match skipSpace cs with
    | [] => .error .ended
    | '[' :: rest =>
      match fieldList fields true empty rest with
      | .error e => .error e
      | .ok (r, rest') =>
        match complete? r with
        | none => .error .content
        | some a => (endList rest').map fun e => (a, e.2)
    | '\x7b' :: rest =>
      match fieldMap fields (rest.length + 1) true empty rest with
      | .error e => .error e
      | .ok (r, rest') =>
        match complete? r with
        | none => .error .content
        | some a => .ok (a, rest')
    | other => refuse other

/-- A field whose value goes into an optional component of the record. -/
def field {α : Type} (name : String) (step : Step α) (get : ρ → Option α) (set : ρ → α → ρ) :
    Field ρ where
  name
  given r := (get r).isSome
  read r cs := (step cs).map fun x => (set r x.1, x.2)

/-! ## Whole texts -/

/-- **The value of a whole text**; nothing but blanks may follow it. -/
def ofText {α : Type} (step : Step α) (s : String) : Except Fault α :=
  match step s.toList with
  | .error e => .error e
  | .ok (a, rest) => if (skipSpace rest).isEmpty then .ok a else .error .malformed

end AnchoredLedger.Json
