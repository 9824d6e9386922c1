import AnchoredLedger.WireError

/-! # Values of fixed width

Hashes and plan keys are octet strings whose length is part of their type. They are held in the
order in which they are shown; on the wire the octets stand in reverse.

* **`FixedOctets n`** — exactly `n` octets; **`Hash`** has 32 of them and **`PlanKey`** 33.
* **`ofOctets`**, **`ofWire`**, **`ofHex`** — from octets in either order and from a text.
* **`toWire`**, **`toHex`** — to the wire and to a text. -/

namespace AnchoredLedger

/-- **Exactly `n` octets**, in the order in which they are shown. -/
@[ext] structure FixedOctets (n : Nat) where
  /-- The octets. -/
  octets : Octets
  /-- There are `n` of them. -/
  length_octets : octets.length = n
deriving DecidableEq, Repr

namespace FixedOctets

variable {n : Nat}

attribute [simp] length_octets

/-- The value whose octets are all zero; it stands for "none". -/
def zero : FixedOctets n := ⟨List.replicate n 0, List.length_replicate⟩

/-- Whether every octet is zero. -/
def isZero (v : FixedOctets n) : Bool := v == zero

/-- The value with the given octets, refused unless there are exactly `n`. -/
def ofOctets (bs : Octets) : Except WireError (FixedOctets n) :=
  if h : bs.length = n then .ok ⟨bs, h⟩ else .error (.lengthMismatch n bs.length)

/-- The value with its octets in the opposite order. -/
def reverse (v : FixedOctets n) : FixedOctets n := ⟨v.octets.reverse, by simp⟩

/-- The value whose wire form is given. -/
def ofWire (bs : Octets) : Except WireError (FixedOctets n) := (ofOctets bs).map reverse

/-- The wire form: the octets in reverse. -/
def toWire (v : FixedOctets n) : Octets := v.octets.reverse

/-- The value a hexadecimal text shows: the text is read first and its length judged after. -/
def ofHex (s : String) : Except WireError (FixedOctets n) :=
  match Hex.decode s with
  | .error fault => .error (.invalidHex fault)
  | .ok bs => ofOctets bs

/-- The value shown as a hexadecimal text. -/
def toHex (v : FixedOctets n) : String := Hex.encode v.octets

/-- The order of values: by the first octet in which they differ. -/
def order (v w : FixedOctets n) : Ordering := compare v.octets w.octets

@[simp] theorem length_toWire (v : FixedOctets n) : v.toWire.length = n := by simp [toWire]

@[simp] theorem reverse_reverse (v : FixedOctets n) : v.reverse.reverse = v := by
  ext1; simp [reverse]

theorem ofOctets_of_length {bs : Octets} (h : bs.length = n) : ofOctets bs = .ok ⟨bs, h⟩ := by
  simp [ofOctets, h]

@[simp] theorem ofOctets_octets (v : FixedOctets n) : ofOctets v.octets = .ok v :=
  ofOctets_of_length v.length_octets

theorem ofWire_of_length {bs : Octets} (h : bs.length = n) :
    ofWire bs = .ok (FixedOctets.reverse ⟨bs, h⟩) := by
  simp [ofWire, ofOctets_of_length h, Except.map]

/-- Reading the wire form of a value gives the value. -/
@[simp] theorem ofWire_toWire (v : FixedOctets n) : ofWire v.toWire = .ok v := by
  rw [ofWire_of_length v.length_toWire]
  congr 1
  ext1
  simp [toWire, reverse]

/-- Values with one wire form are equal. -/
theorem toWire_inj {v w : FixedOctets n} (h : v.toWire = w.toWire) : v = w := by
  ext1; exact List.reverse_inj.1 h

end FixedOctets

/-! ## The two widths -/

/-- **A 32-octet hash**: of a header, a transaction, or two nodes of a tree. -/
abbrev Hash : Type := FixedOctets 32

/-- **A 33-octet compressed public key**, the second signer of the redemption path. -/
abbrev PlanKey : Type := FixedOctets 33

instance : Inhabited Hash := ⟨.zero⟩

instance : Inhabited PlanKey := ⟨.zero⟩

/-- A hash in a diagnostic. -/
def Hash.diagnostic (h : Hash) : String := "Sha256Hash(" ++ h.toHex ++ ")"

/-- A plan key in a diagnostic. -/
def PlanKey.diagnostic (k : PlanKey) : String := "CompactKey(" ++ k.toHex ++ ")"

end AnchoredLedger
