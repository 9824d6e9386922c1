import AnchoredLedger.FixedOctets
import AnchoredLedger.Digest.Sha256

/-! # Merkle trees over hashes

The leaves are the hashes of a block's transactions. A level is made from the one below by joining
neighbours two by two; a last node without a neighbour is joined with itself. With five leaves:

```text
          root
         /    \
        1      5
       / \    / \
      2   3  4   4
     /\  /\  /\
    a b c d e e
```

* **`Merkle.combine l r`** — the parent of two nodes: the double digest of their wire forms.
* **`Merkle.nextLevel`** — the level above; **`Merkle.levels`** — all of them, leaves first.
* **`Merkle.root?`** — the single node of the top level, computed level by level.
* **`Merkle.flatTree`** — all levels in one array, grown in place. -/

namespace AnchoredLedger.Merkle

/-- **The parent of two nodes**: their wire forms side by side, digested twice and turned back into
the order of display. -/
def combine (l r : Hash) : Hash :=
  ⟨(Digest.doubleSha256 (l.toWire ++ r.toWire)).reverse, by simp⟩

/-! ## Level by level -/

/-- **The level above**: neighbours joined two by two, a lone last node with itself. -/
def nextLevel : List Hash → List Hash
  | l :: r :: rest => combine l r :: nextLevel rest
  | [l] => [combine l l]
  | [] => []

@[simp] theorem nextLevel_nil : nextLevel [] = [] := rfl

@[simp] theorem nextLevel_singleton (l : Hash) : nextLevel [l] = [combine l l] := rfl

@[simp] theorem nextLevel_cons_cons (l r : Hash) (rest : List Hash) :
    nextLevel (l :: r :: rest) = combine l r :: nextLevel rest := rfl

/-- The level above has half as many nodes, rounded up. -/
@[simp] theorem length_nextLevel : ∀ level : List Hash,
    (nextLevel level).length = (level.length + 1) / 2
  | [] => rfl
  | [_] => by simp
  | _ :: _ :: rest => by
    rw [nextLevel_cons_cons, List.length_cons, length_nextLevel rest]
    simp only [List.length_cons]
    omega

/-- **The root**: levels are made until one node is left. There is none without leaves. -/
def root? : List Hash → Option Hash
  | [] => none
  | [top] => some top
  | l :: r :: rest => root? (nextLevel (l :: r :: rest))
termination_by level => level.length
decreasing_by simp only [length_nextLevel, List.length_cons]; omega

/-- All levels, from the leaves up to the root. -/
def levels (leaves : List Hash) : List (List Hash) :=
  if 1 < leaves.length then leaves :: levels (nextLevel leaves)
  else if leaves.isEmpty then [] else [leaves]
termination_by leaves.length
decreasing_by simp only [length_nextLevel]; omega

/-! ## In one array -/

/-- The parents of the level of `size` nodes that starts at `offset`: node `i` joins nodes `2 * i`
and `2 * i + 1` of the level, or node `2 * i` with itself where it is the last. -/
def parents (tree : Array Hash) (offset size : Nat) (h : offset + size ≤ tree.size) : Array Hash :=
  Array.ofFn fun i : Fin ((size + 1) / 2) =>
    have left : offset + 2 * i.val < tree.size := by omega
    have right : offset + min (2 * i.val + 1) (size - 1) < tree.size := by omega
    combine tree[offset + 2 * i.val] tree[offset + min (2 * i.val + 1) (size - 1)]

@[simp] theorem size_parents (tree : Array Hash) (offset size : Nat)
    (h : offset + size ≤ tree.size) : (parents tree offset size h).size = (size + 1) / 2 := by
  simp [parents]

/-- Appends level after level, from the level of `size` nodes that ends the array. -/
def grow (tree : Array Hash) (offset size : Nat) (h : offset + size = tree.size) : Array Hash :=
  if 1 < size then
    grow (tree ++ parents tree offset size (by omega)) (offset + size) ((size + 1) / 2)
      (by simp [h])
  else tree
termination_by size

/-- **The whole tree in one array**: the leaves, then each level up to the root, which is last. -/
def flatTree (leaves : List Hash) : Array Hash :=
  grow leaves.toArray 0 leaves.length (by simp)

end AnchoredLedger.Merkle
