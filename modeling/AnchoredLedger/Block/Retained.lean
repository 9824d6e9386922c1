import AnchoredLedger.Header

/-! # The octets a block was read from

A block that was read keeps the octets it was read from, so that it is written unchanged as long as
it is unchanged. Header and body are kept track of separately: an edit gives up the part it touches,
and the octets go when neither part is left.

* **`Retained`** — the octets and which parts of them still hold.
* **`Retained.whole?`**, **`header?`**, **`body?`** — the parts that still hold.
* **`Retained.dropHeader`**, **`dropBody`** — what edits do. -/

namespace AnchoredLedger

/-- **The octets a block was read from**, and which parts still describe it. -/
structure Retained where
  /-- The octets. -/
  octets? : Option Octets
  /-- Whether the header still holds. -/
  headerHolds : Bool
  /-- Whether the body still holds. -/
  bodyHolds : Bool
deriving DecidableEq, Repr

namespace Retained

/-- Nothing is kept. -/
def nothing : Retained := ⟨none, false, false⟩

/-- All of the octets are kept. -/
def all (octets : Octets) : Retained := ⟨some octets, true, true⟩

/-- The octets, if both parts hold. -/
def whole? (r : Retained) : Option Octets := if r.headerHolds && r.bodyHolds then r.octets? else none

/-- The header octets, if they hold. -/
def header? (r : Retained) : Option Octets :=
  match r.octets? with
  | some bs => if r.headerHolds && Octets.holds Header.size bs then some (bs.take Header.size) else none
  | none => none

/-- The octets after the header, if they hold. -/
def body? (r : Retained) : Option Octets :=
  match r.octets? with
  | some bs => if r.bodyHolds && Octets.holds Header.size bs then some (bs.drop Header.size) else none
  | none => none

/-- The header no longer holds. -/
def dropHeader (r : Retained) : Retained :=
  ⟨if r.bodyHolds then r.octets? else none, false, r.bodyHolds⟩

/-- The body no longer holds. -/
def dropBody (r : Retained) : Retained :=
  ⟨if r.headerHolds then r.octets? else none, r.headerHolds, false⟩

@[simp] theorem whole?_all (bs : Octets) : (all bs).whole? = some bs := rfl

@[simp] theorem whole?_nothing : nothing.whole? = none := rfl

@[simp] theorem header?_nothing : nothing.header? = none := rfl

@[simp] theorem body?_nothing : nothing.body? = none := rfl

@[simp] theorem header?_dropHeader (r : Retained) : r.dropHeader.header? = none := by
  unfold dropHeader header?
  split <;> simp_all

@[simp] theorem body?_dropBody (r : Retained) : r.dropBody.body? = none := by
  unfold dropBody body?
  split <;> simp_all

end Retained

end AnchoredLedger
