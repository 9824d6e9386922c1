import AnchoredLedger.FixedOctets

/-! # Reading from an octet buffer

A cursor stands somewhere in a buffer and moves forward as values are read. A read that asks for
more than remains is refused and leaves the cursor where it was.

* **`Cursor`** — how many octets lie behind, and those that lie ahead.
* **`Reader α`** — a read: it takes a cursor to a value or a refusal, and to the cursor after it.
* **`Reader.outcome`** — what a read comes to, with the cursor after it.
* **`Reader.octets n`** — the next `n` octets; every other read is made of it and of
  **`Reader.octet`**.
* **`Reader.times r n`** — the same read `n` times over. -/

namespace AnchoredLedger

/-- **A place in a buffer.** -/
structure Cursor where
  /-- How many octets lie behind. -/
  position : Nat
  /-- The octets that lie ahead. -/
  rest : Octets
deriving DecidableEq, Repr

namespace Cursor

/-- The cursor at the start of a buffer. -/
def start (buffer : Octets) : Cursor := ⟨0, buffer⟩

/-- The cursor at an offset into a buffer, refused beyond its end. -/
def at? (buffer : Octets) (offset : Nat) : Except WireError Cursor :=
  if buffer.length < offset then .error (.truncated offset buffer.length)
  else .ok ⟨offset, buffer.drop offset⟩

/-- How many octets lie ahead. -/
def remaining (c : Cursor) : Nat := c.rest.length

/-- Whether nothing lies ahead. -/
def atEnd (c : Cursor) : Bool := c.rest.isEmpty

/-- The cursor `n` octets further on. -/
def advance (c : Cursor) (n : Nat) : Cursor := ⟨c.position + n, c.rest.drop n⟩

@[simp] theorem position_advance (c : Cursor) (n : Nat) :
    (c.advance n).position = c.position + n := rfl

@[simp] theorem rest_advance (c : Cursor) (n : Nat) : (c.advance n).rest = c.rest.drop n := rfl

end Cursor

/-- **A read**: from a cursor to a value or a refusal, with the cursor after it in both cases. -/
abbrev Reader (α : Type) : Type := EStateM WireError Cursor α

namespace Reader

/-- **The next `n` octets**, refused with the cursor unmoved if fewer remain. -/
def octets (n : Nat) : Reader Octets := fun c =>
  if Octets.holds n c.rest then .ok (c.rest.take n) (c.advance n)
  else .error (.truncated n c.remaining) c

/-- The next octet. -/
def octet : Reader UInt8 := fun c =>
  match c.rest with
  | b :: rest => .ok b ⟨c.position + 1, rest⟩
  | [] => .error (.truncated 1 0) c

/-- The next 32-bit word. -/
def word32 : Reader UInt32 := Octets.toWord32 <$> octets 4

/-- The next 64-bit word. -/
def word64 : Reader UInt64 := Octets.toWord64 <$> octets 8

/-- The next value of fixed width, which stands in reverse on the wire. -/
def fixed (n : Nat) : Reader (FixedOctets n) := do
  match FixedOctets.ofWire (← octets n) with
  | .ok v => pure v
  | .error e => throw e

/-- The next hash. -/
def hash : Reader Hash := fixed 32

/-- The next plan key. -/
def planKey : Reader PlanKey := fixed 33

/-- Whether nothing remains. -/
def atEnd : Reader Bool := fun c => .ok c.atEnd c

/-- The same read `n` times over; the first refusal ends it. -/
def times {α : Type} (r : Reader α) : Nat → Reader (List α)
  | 0 => pure []
  | n + 1 => do
    let a ← r
    let as ← times r n
    pure (a :: as)

/-- What a read gives and the cursor after it, whether it succeeds or not. -/
def outcome {α : Type} (r : Reader α) (c : Cursor) : Except WireError α × Cursor :=
  match r c with
  | .ok a d => (.ok a, d)
  | .error e d => (.error e, d)

/-- What a read gives at an offset into a buffer, with the number of octets it consumed. -/
def parseAt {α : Type} (r : Reader α) (buffer : Octets) (offset : Nat) :
    Except WireError (α × Nat) :=
  match Cursor.at? buffer offset with
  | .error e => .error e
  | .ok c =>
    match r c with
    | .ok a c' => .ok (a, c'.position - offset)
    | .error e _ => .error e

/-! ## What the reads do -/

theorem outcome_eq_ok_iff {α : Type} {r : Reader α} {a : α} {c d : Cursor} :
    outcome r c = (.ok a, d) ↔ r c = .ok a d := by
  unfold outcome
  cases r c <;> simp

theorem outcome_eq_error_iff {α : Type} {r : Reader α} {e : WireError} {c d : Cursor} :
    outcome r c = (.error e, d) ↔ r c = .error e d := by
  unfold outcome
  cases r c <;> simp

theorem octets_of_le {n : Nat} {c : Cursor} (h : n ≤ c.remaining) :
    octets n c = .ok (c.rest.take n) (c.advance n) := by
  simp [octets, (Octets.holds_iff n c.rest).2 h]

theorem octets_of_lt {n : Nat} {c : Cursor} (h : c.remaining < n) :
    octets n c = .error (.truncated n c.remaining) c := by
  have hn : ¬ Octets.holds n c.rest = true := fun hh =>
    absurd ((Octets.holds_iff n c.rest).1 hh) (Nat.not_le.2 h)
  simp [octets, hn]

@[simp] theorem octet_cons (p : Nat) (b : UInt8) (rest : Octets) :
    octet ⟨p, b :: rest⟩ = .ok b ⟨p + 1, rest⟩ := rfl

@[simp] theorem octet_nil (p : Nat) : octet ⟨p, []⟩ = .error (.truncated 1 0) ⟨p, []⟩ := rfl

/-- The octets of a block of the right length are read back from the front of a buffer. -/
theorem octets_append (p : Nat) (bs rest : Octets) :
    octets bs.length ⟨p, bs ++ rest⟩ = .ok bs ⟨p + bs.length, rest⟩ := by
  rw [octets_of_le (by simp [Cursor.remaining])]
  simp [Cursor.advance]

end Reader

end AnchoredLedger
