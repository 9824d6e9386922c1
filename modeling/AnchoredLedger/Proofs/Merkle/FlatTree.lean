import AnchoredLedger.Proofs.Merkle.Levels

/-! # The flat tree

The flat tree is grown in place: the nodes of a level are found by an offset, and those of the level
above are put behind them. What comes out are the levels, one behind the other.

* **`Merkle.width`**, **`Merkle.start`** — how many nodes a level has, and where it starts in the array.
* **`toList_parents`** — what one round of growing puts behind a level.
* **`toList_flatTree`** — the array is the levels joined. -/

namespace AnchoredLedger.Merkle

/-! ## Where levels stand -/

/-- **The number of nodes of a level** over a number of leaves, the leaves being level 0. -/
def width (leaves : Nat) : Nat → Nat
  | 0 => leaves
  | k + 1 => (width leaves k + 1) / 2

/-- **The place at which a level starts** in the array: behind all levels below it. -/
def start (leaves : Nat) : Nat → Nat
  | 0 => 0
  | k + 1 => start leaves k + width leaves k

@[simp] theorem width_zero (n : Nat) : width n 0 = n := rfl

@[simp] theorem start_zero (n : Nat) : start n 0 = 0 := rfl

/-- A level over some nodes is the next lower level over those above them. -/
theorem width_succ (n k : Nat) : width n (k + 1) = width ((n + 1) / 2) k := by
  induction k with
  | zero => rfl
  | succ k ih => rw [width, ih, ← width]

/-- A level starts behind the lowest one and what lies between. -/
theorem start_succ (n k : Nat) : start n (k + 1) = n + start ((n + 1) / 2) k := by
  induction k with
  | zero => simp [start]
  | succ k ih => rw [start, ih, width_succ, Nat.add_assoc, ← start]

/-! ## Growing -/

/-- Behind the nodes of lower levels the nodes of a level are found by their places in it. -/
theorem getElem?_of_toList_eq {tree : Array Hash} {before level above : List Hash}
    (h : tree.toList = before ++ (level ++ above)) {i : Nat} (hi : i < level.length) :
    tree[before.length + i]? = level[i]? := by
  rw [← Array.getElem?_toList, h, List.getElem?_append_right (Nat.le_add_right _ _),
    Nat.add_sub_cancel_left, List.getElem?_append_left hi]

/-- The parents of the level that ends the array are the level above. -/
theorem toList_parents {tree : Array Hash} {before level : List Hash}
    (h : tree.toList = before ++ level) (hfits : before.length + level.length ≤ tree.size) :
    (parents tree before.length level.length hfits).toList = nextLevel level := by
  have hends : tree.toList = before ++ (level ++ []) := by rw [List.append_nil, h]
  have hnode : ∀ i < level.length, tree[before.length + i]? = level[i]? := fun i hi =>
    getElem?_of_toList_eq hends hi
  refine List.ext_getElem? fun i => ?_
  rw [getElem?_nextLevel, Array.getElem?_toList]
  rcases Nat.lt_or_ge i ((level.length + 1) / 2) with hlt | hge
  · have hleft := hnode (2 * i) (by omega)
    have hright := hnode (min (2 * i + 1) (level.length - 1)) (by omega)
    rw [Array.getElem?_eq_getElem (by omega)] at hleft hright
    have hpair := children?_eq_some_iff (p := (_, _)) |>.2 ⟨hleft.symm, hright.symm⟩
    rw [hpair, Array.getElem?_eq_getElem (by rwa [size_parents])]
    simp [parents]
  · -- neither side has a node there
    have hnone : level[2 * i]? = none := List.getElem?_eq_none (by omega)
    rw [Array.getElem?_eq_none (by rwa [size_parents]), children?, hnone]
    rfl

/-- A level with no level above it is one node. -/
theorem exists_eq_singleton {level : List Hash} (hfew : ¬ 1 < level.length) (hne : level ≠ []) :
    ∃ top, level = [top] := by
  have hpos := List.length_pos_iff.2 hne
  exact List.length_eq_one_iff.1 (by omega)

/-- **Growing puts the levels above behind the level that ends the array.** -/
theorem toList_grow {tree : Array Hash} {before level : List Hash}
    (h : tree.toList = before ++ level) (hends : before.length + level.length = tree.size) :
    (grow tree before.length level.length hends).toList = before ++ (levels level).flatten := by
  induction level using levels.induct generalizing tree before with
  | case1 level hmany ih =>
    have hparents := toList_parents h (Nat.le_of_eq hends)
    have hgrown : (tree ++ parents tree before.length level.length (Nat.le_of_eq hends)).toList =
        (before ++ level) ++ nextLevel level := by
      rw [Array.toList_append, h, hparents]
    have hnext := ih hgrown (by rw [Array.size_append, size_parents, List.length_append,
      length_nextLevel, hends])
    rw [grow, if_pos hmany, levels_of_one_lt hmany, List.flatten_cons, ← List.append_assoc, ← hnext]
    simp only [List.length_append, length_nextLevel]
  | case2 level hfew hempty =>
    obtain rfl := List.isEmpty_iff.1 hempty
    rw [grow, if_neg hfew, h, levels_nil]
    rfl
  | case3 level hfew hnonempty =>
    obtain ⟨top, rfl⟩ := exists_eq_singleton hfew (mt List.isEmpty_iff.2 hnonempty)
    rw [grow, if_neg hfew, h, levels_singleton]
    rfl

/-- **The flat tree is the levels joined**, leaves first and the root last. -/
theorem toList_flatTree (leaves : List Hash) : (flatTree leaves).toList = (levels leaves).flatten :=
  @toList_grow leaves.toArray [] leaves rfl (Nat.zero_add _)

end AnchoredLedger.Merkle
