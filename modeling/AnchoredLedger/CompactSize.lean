import AnchoredLedger.Cursor

/-! # Compact sizes

Counts and lengths on the wire take one, three, five or nine octets: numbers below 253 are one
octet, and the markers 253, 254 and 255 announce two, four or eight octets of number. Writing uses
the shortest form; reading takes any of the four.

* **`CompactSize.encode n`** — the shortest form; **`CompactSize.size n`** — its length.
* **`CompactSize.read`** — the next number, in any form.
* **`CompactSize.readLength item`** — the next number, refused at once if so many items of the given
  size cannot follow. -/

namespace AnchoredLedger.CompactSize

/-- The length of the shortest form. -/
def size (n : Nat) : Nat :=
  if n < 0xFD then 1
  else if n ≤ 0xFFFF then 3
  else if n ≤ 0xFFFFFFFF then 5
  else 9

/-- **The shortest form of a number** below `2 ^ 64`. -/
def encode (n : Nat) : Octets :=
  if n < 0xFD then [UInt8.ofNat n]
  else if n ≤ 0xFFFF then 0xFD :: Octets.ofNatLE 2 n
  else if n ≤ 0xFFFFFFFF then 0xFE :: Octets.ofNatLE 4 n
  else 0xFF :: Octets.ofNatLE 8 n

/-- How many octets of number follow a marker; none follow an octet that is its own number. -/
def payload (marker : UInt8) : Nat :=
  if marker = 0xFD then 2 else if marker = 0xFE then 4 else if marker = 0xFF then 8 else 0

/-- **The next number**, in any of the four forms. Where the number is cut short the marker has
been consumed. -/
def read : Reader Nat := do
  let marker ← Reader.octet
  if payload marker = 0 then
    pure marker.toNat
  else
    let bs ← Reader.octets (payload marker)
    pure (Octets.toNatLE bs)

/-- The largest number of octets that a refusal can name. -/
def maxNeeded : Nat := 0xFFFFFFFFFFFFFFFF

/-- **The next number, as a count of items**: refused when fewer octets remain than so many items of
`item` octets take. A need beyond 64 bits is named as the largest such number. -/
def readLength (item : Nat) : Reader Nat := do
  let count ← read
  let needed := min (count * item) maxNeeded
  let c ← get
  if Octets.holds needed c.rest then
    pure count
  else
    throw (.truncated needed c.remaining)

/-- The number at an offset into a buffer, with the octets it took. -/
def decode (buffer : Octets) (offset : Nat) : Except WireError (Nat × Nat) :=
  Reader.parseAt read buffer offset

@[simp] theorem length_encode (n : Nat) : (encode n).length = size n := by
  unfold encode size
  split
  · rfl
  · split
    · simp
    · split <;> simp

end AnchoredLedger.CompactSize
