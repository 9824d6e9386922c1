import AnchoredLedger.Merkle.Tree

/-! # Merkle branches

A branch proves that a leaf belongs to a tree: it lists, from the leaf up, the neighbour of each node
on the way to the root.

* **`Branch.ofLeaf? leaves i`** — the branch of leaf `i`, read off the flat tree.
* **`Branch.climb b leaf`** — the root that the branch leads to.
* **`Branch.verifies b leaf root`** — whether that is the given root. -/

namespace AnchoredLedger.Merkle

/-- **A neighbour on the way to the root.** -/
structure Sibling where
  /-- The neighbouring node. -/
  hash : Hash
  /-- Whether it stands on the left. -/
  onLeft : Bool
deriving DecidableEq, Repr

/-- **A branch**: the neighbours from the leaf up. -/
structure Branch where
  /-- The neighbours, the leaf's own first. -/
  siblings : List Sibling
deriving DecidableEq, Repr

namespace Branch

/-- Where the neighbour of the node at `position` stands in a level of `size` nodes; a lone last
node is its own neighbour. -/
def neighbour (position size : Nat) : Nat :=
  if position % 2 = 0 then min (position + 1) (size - 1) else position - 1

/-- The neighbours from the node at `position` of the level of `size` nodes at `offset` upwards. -/
def collect (tree : Array Hash) (offset size position : Nat) : Option (List Sibling) :=
  if 1 < size then
    match tree[offset + neighbour position size]? with
    | none => none
    | some hash =>
      match collect tree (offset + size) ((size + 1) / 2) (position / 2) with
      | none => none
      | some above => some (⟨hash, position % 2 = 1⟩ :: above)
  else some []
termination_by size

/-- **The branch of the leaf at `index`**; there is none beyond the last leaf. -/
def ofLeaf? (leaves : List Hash) (index : Nat) : Option Branch :=
  if index < leaves.length then
    (collect (flatTree leaves) 0 leaves.length index).map Branch.mk
  else none

/-- The node above a node and its neighbour. -/
def join (node : Hash) (s : Sibling) : Hash :=
  if s.onLeft then combine s.hash node else combine node s.hash

/-- **The root that a branch leads to** from a leaf. -/
def climb (b : Branch) (leaf : Hash) : Hash := b.siblings.foldl join leaf

/-- Whether a branch leads from the leaf to the root. -/
def verifies (b : Branch) (leaf root : Hash) : Bool := b.climb leaf == root

@[simp] theorem climb_nil (leaf : Hash) : climb ⟨[]⟩ leaf = leaf := rfl

@[simp] theorem climb_cons (s : Sibling) (above : List Sibling) (leaf : Hash) :
    climb ⟨s :: above⟩ leaf = climb ⟨above⟩ (join leaf s) := rfl

@[simp] theorem verifies_iff (b : Branch) (leaf root : Hash) :
    b.verifies leaf root = true ↔ b.climb leaf = root := by simp [verifies]

end Branch

end AnchoredLedger.Merkle
