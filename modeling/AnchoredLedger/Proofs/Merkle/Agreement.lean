import AnchoredLedger.Proofs.Merkle.Completeness
import Mathlib.Logic.Function.Iterate

/-! # Three ways to one root

A tree is grown in one array, with offsets and with a clamped right neighbour; the root is worked out
from fresh levels, without the array; and nodes are kept in the order of display, so that they are turned
round before each digest and after it. The three agree: the array holds the levels, its last node is the
root, and the reversals between two levels cancel.

* **`Merkle.width_eq`** — how many nodes a level has.
* **`Merkle.getElem?_flatTree`** — where the nodes of a level stand in the array; `back?_flatTree` for the
  last of all.
* **`Merkle.plainRoot?`** — the root without reversals; `plainRoot?_map_toWire` says that it is the root.
* **`Merkle.trees_agree`** — all of it for any leaves. -/

namespace AnchoredLedger.Merkle

/-! ## How many nodes a level has -/

/-- **A level has as many nodes as there are leaves, halved as often as the level is high**, rounded
up. -/
theorem width_eq (n k : Nat) : width n k = (n + 2 ^ k - 1) / 2 ^ k := by
  induction k with
  | zero => simp
  | succ k ih =>
    have hpos : 0 < 2 ^ k := Nat.two_pow_pos k
    have hsum : n + 2 ^ k - 1 + 2 ^ k = n + 2 ^ (k + 1) - 1 := by
      rw [Nat.pow_succ]
      omega
    -- rounding up twice in a row is rounding up once
    rw [width, ih, ← Nat.add_div_right _ hpos, Nat.div_div_eq_div_mul, hsum, Nat.pow_succ]

/-- At the height of a tree there is one node. -/
theorem width_clog {n : Nat} (h : 0 < n) : width n (Nat.clog 2 n) = 1 := by
  have hle : n ≤ 2 ^ Nat.clog 2 n := Nat.le_pow_clog (by decide) n
  rw [width_eq]
  exact Nat.div_eq_of_lt_le (by omega) (by omega)

/-- Below the height of a tree there are several. -/
theorem one_lt_width {n k : Nat} (h : k < Nat.clog 2 n) : 1 < width n k := by
  have hlt : 2 ^ k < n := (Nat.lt_clog_iff_pow_lt (by decide)).1 h
  rw [width_eq]
  exact (Nat.le_div_iff_mul_le (Nat.two_pow_pos k)).2 (by omega)

/-! ## Where the nodes of a level stand -/

theorem length_iterate_nextLevel (leaves : List Hash) (k : Nat) :
    (nextLevel^[k] leaves).length = width leaves.length k := by
  induction k with
  | zero => rfl
  | succ k ih => rw [Function.iterate_succ_apply', length_nextLevel, ih, width]

/-- **The nodes of a level stand in the array from the start of the level on.** -/
theorem getElem?_flatTree {leaves : List Hash} {k i : Nat} (hk : k < (levels leaves).length)
    (hi : i < width leaves.length k) :
    (flatTree leaves)[start leaves.length k + i]? = (nextLevel^[k] leaves)[i]? := by
  rw [← Array.getElem?_toList, toList_flatTree]
  induction k generalizing leaves with
  | zero =>
    have hne : leaves ≠ [] := by
      rintro rfl
      simp at hk
    obtain ⟨above, habove⟩ := exists_levels_eq_cons hne
    rw [habove, List.flatten_cons, start_zero, Nat.zero_add, List.getElem?_append_left hi]
    rfl
  | succ k ih =>
    have hmany : 1 < leaves.length := one_lt_length_levels_iff.1 (by omega)
    rw [levels_of_one_lt hmany, List.length_cons] at hk
    rw [width_succ, ← length_nextLevel] at hi
    -- behind the lowest level the array is that of the nodes above it
    rw [levels_of_one_lt hmany, List.flatten_cons, start_succ, Nat.add_assoc,
      List.getElem?_append_right (Nat.le_add_right _ _), Nat.add_sub_cancel_left,
      ← length_nextLevel, ih (by omega) hi, Function.iterate_succ_apply]

/-- **A node of the array joins two nodes of the level below**, which stand in the array before the
level of the node does. -/
theorem exists_joined {leaves : List Hash} {k i : Nat} (hk : k + 1 < (levels leaves).length)
    (hi : i < width leaves.length (k + 1)) :
    let left := start leaves.length k + 2 * i
    let right := start leaves.length k + min (2 * i + 1) (width leaves.length k - 1)
    left < start leaves.length (k + 1) ∧ right < start leaves.length (k + 1) ∧
      ∃ l r, (flatTree leaves)[left]? = some l ∧ (flatTree leaves)[right]? = some r ∧
        (flatTree leaves)[start leaves.length (k + 1) + i]? = some (combine l r) := by
  intro left right
  rw [width] at hi
  have hlen := length_iterate_nextLevel leaves k
  have hleft : 2 * i < width leaves.length k := by omega
  have hright : min (2 * i + 1) (width leaves.length k - 1) < width leaves.length k := by omega
  obtain ⟨l, hl⟩ : ∃ l, (nextLevel^[k] leaves)[2 * i]? = some l :=
    ⟨_, List.getElem?_eq_getElem (by rwa [hlen])⟩
  obtain ⟨r, hr⟩ : ∃ r, (nextLevel^[k] leaves)[min (2 * i + 1) (width leaves.length k - 1)]? = some r :=
    ⟨_, List.getElem?_eq_getElem (by rwa [hlen])⟩
  refine ⟨?_, ?_, l, r, ?_, ?_, ?_⟩
  · rw [start]
    omega
  · rw [start]
    omega
  · rw [getElem?_flatTree (by omega) hleft, hl]
  · rw [getElem?_flatTree (by omega) hright, hr]
  · -- what the two combine to is their node of the level above
    have hpair : children? (nextLevel^[k] leaves) i = some (l, r) :=
      children?_eq_some_iff.2 ⟨hl, by rwa [hlen]⟩
    rw [getElem?_flatTree hk hi, Function.iterate_succ_apply', getElem?_nextLevel, hpair,
      Option.map_some]

/-- The array starts with the leaves. -/
theorem take_flatTree (leaves : List Hash) :
    (flatTree leaves).toList.take leaves.length = leaves := by
  rw [toList_flatTree]
  by_cases hne : leaves = []
  · rw [hne, levels_nil]
    rfl
  · obtain ⟨above, habove⟩ := exists_levels_eq_cons hne
    rw [habove, List.flatten_cons, List.take_left]

/-- The array ends where a level above the highest would start. -/
theorem size_flatTree (leaves : List Hash) :
    (flatTree leaves).size = start leaves.length (levels leaves).length := by
  rw [← Array.length_toList, toList_flatTree]
  induction leaves using levels.induct with
  | case1 level hmany ih =>
    rw [levels_of_one_lt hmany, List.flatten_cons, List.length_append, List.length_cons, start_succ,
      ih, length_nextLevel]
  | case2 level hfew hempty =>
    obtain rfl := List.isEmpty_iff.1 hempty
    rw [levels_nil]
    rfl
  | case3 level hfew hnonempty =>
    obtain ⟨top, rfl⟩ := exists_eq_singleton hfew (mt List.isEmpty_iff.2 hnonempty)
    rw [levels_singleton]
    rfl

/-- **The last node of the array is the root.** -/
theorem back?_flatTree (leaves : List Hash) : (flatTree leaves).back? = root? leaves := by
  rw [← Array.getLast?_toList, toList_flatTree]
  induction leaves using levels.induct with
  | case1 level hmany ih =>
    have hne : nextLevel level ≠ [] := nextLevel_ne_nil (List.ne_nil_of_length_pos (by omega))
    obtain ⟨root, hroot⟩ := exists_root?_eq_some hne
    rw [levels_of_one_lt hmany, List.flatten_cons, List.getLast?_append, ih, ← root?_nextLevel hmany,
      hroot, Option.some_or]
  | case2 level hfew hempty =>
    obtain rfl := List.isEmpty_iff.1 hempty
    rw [levels_nil, root?]
    rfl
  | case3 level hfew hnonempty =>
    obtain ⟨top, rfl⟩ := exists_eq_singleton hfew (mt List.isEmpty_iff.2 hnonempty)
    rw [levels_singleton, root?_singleton]
    rfl

/-! ## Without reversals -/

/-- **The level above without reversals**: neighbours are put side by side as they are and digested
twice, a lone last node with itself. -/
def plainLevel : List Octets → List Octets
  | l :: r :: rest => Digest.doubleSha256 (l ++ r) :: plainLevel rest
  | [l] => [Digest.doubleSha256 (l ++ l)]
  | [] => []

@[simp] theorem plainLevel_nil : plainLevel [] = [] := rfl

@[simp] theorem plainLevel_singleton (l : Octets) :
    plainLevel [l] = [Digest.doubleSha256 (l ++ l)] := rfl

@[simp] theorem plainLevel_cons_cons (l r : Octets) (rest : List Octets) :
    plainLevel (l :: r :: rest) = Digest.doubleSha256 (l ++ r) :: plainLevel rest := rfl

@[simp] theorem length_plainLevel : ∀ level : List Octets,
    (plainLevel level).length = (level.length + 1) / 2
  | [] => rfl
  | [_] => by simp
  | _ :: _ :: rest => by
    rw [plainLevel_cons_cons, List.length_cons, length_plainLevel rest]
    simp only [List.length_cons]
    omega

/-- **The root without reversals**: levels are made until one node is left. -/
def plainRoot? : List Octets → Option Octets
  | [] => none
  | [top] => some top
  | l :: r :: rest => plainRoot? (plainLevel (l :: r :: rest))
termination_by level => level.length
decreasing_by simp only [length_plainLevel, List.length_cons]; omega

/-- In the order of the wire, a parent is the digest of its children as they are. -/
theorem toWire_combine (l r : Hash) :
    (combine l r).toWire = Digest.doubleSha256 (l.toWire ++ r.toWire) :=
  List.reverse_reverse _

theorem map_toWire_nextLevel (level : List Hash) :
    (nextLevel level).map FixedOctets.toWire = plainLevel (level.map FixedOctets.toWire) := by
  induction level using nextLevel.induct with
  | case1 l r rest ih => simp [toWire_combine, ih]
  | case2 l => simp [toWire_combine]
  | case3 => rfl

/-- **The root without reversals is the root in the order of the wire.** -/
theorem plainRoot?_map_toWire (leaves : List Hash) :
    plainRoot? (leaves.map FixedOctets.toWire) = (root? leaves).map FixedOctets.toWire := by
  induction leaves using root?.induct with
  | case1 => rw [List.map_nil, plainRoot?, root?, Option.map_none]
  | case2 top => rw [List.map_singleton, plainRoot?, root?, Option.map_some]
  | case3 l r rest ih =>
    rw [root?, ← ih, map_toWire_nextLevel, List.map_cons, List.map_cons, plainRoot?]

/-- **Leaves have a root, and it is the plain one in reverse.** -/
theorem exists_plainRoot? {leaves : List Hash} (h : leaves ≠ []) :
    ∃ root, root? leaves = some root ∧ ∃ plain,
      plainRoot? (leaves.map FixedOctets.toWire) = some plain ∧ root.octets = plain.reverse := by
  obtain ⟨root, hroot⟩ := exists_root?_eq_some h
  refine ⟨root, hroot, root.toWire, ?_, (List.reverse_reverse _).symm⟩
  rw [plainRoot?_map_toWire, hroot, Option.map_some]

/-! ## All three -/

/-- **The computations of a tree agree.** The array starts with the leaves. Above them stand levels of
half as many nodes, rounded up, until there is one. Each node of a level joins nodes `2 * i` and
`2 * i + 1` of the level below, or the last one in place of the latter; both stand in the array before
the level that is made. The last node is the root that is worked out level by level. And this root is in
reverse what comes out if the leaves are reversed once and no node is turned round any more. Without
leaves the array is empty and there is no root. -/
theorem trees_agree (leaves : List Hash) :
    let tree := flatTree leaves
    let height := Nat.clog 2 leaves.length
    let wide := width leaves.length
    let place := start leaves.length
    (tree.toList.take leaves.length = leaves ∧ tree.size = place (height + 1)) ∧
    (∀ k, wide k = (leaves.length + 2 ^ k - 1) / 2 ^ k) ∧
    (leaves ≠ [] → wide height = 1 ∧ ∀ k < height, 1 < wide k) ∧
    (∀ k < height, ∀ i < wide (k + 1),
      place k + 2 * i < place (k + 1) ∧ place k + min (2 * i + 1) (wide k - 1) < place (k + 1) ∧
      ∃ l r, tree[place k + 2 * i]? = some l ∧
        tree[place k + min (2 * i + 1) (wide k - 1)]? = some r ∧
        tree[place (k + 1) + i]? = some (combine l r)) ∧
    tree.back? = root? leaves ∧
    (leaves ≠ [] → ∃ root, root? leaves = some root ∧
      ∃ plain, plainRoot? (leaves.map FixedOctets.toWire) = some plain ∧
        root.octets = plain.reverse) ∧
    (leaves = [] → tree = #[] ∧ root? leaves = none) := by
  intro tree height wide place
  have hlevels : leaves ≠ [] → (levels leaves).length = height + 1 := length_levels
  refine ⟨⟨take_flatTree leaves, ?_⟩, width_eq _, fun hne => ?_, fun k hk i hi => ?_,
    back?_flatTree leaves, exists_plainRoot?, ?_⟩
  · rw [size_flatTree]
    by_cases hne : leaves = []
    · -- without leaves there are no levels, and the first one would start where it ends
      subst hne
      simp [place, height, start]
    · rw [hlevels hne]
  · have hpos : 0 < leaves.length := List.length_pos_iff.2 hne
    exact ⟨width_clog hpos, fun k hk => one_lt_width hk⟩
  · have hne : leaves ≠ [] := by
      rintro rfl
      simp [height] at hk
    exact exists_joined (by rw [hlevels hne]; omega) hi
  · rintro rfl
    exact ⟨Array.eq_empty_of_size_eq_zero (by simp [tree, size_flatTree]), by rw [root?]⟩

/-- Five leaves, so that two levels in a row have a lone last node: the second node of the level over
these two joins node 7 of the array with itself. -/
theorem trees_agree_lone_nodes :
    let leaf (n : UInt8) : Hash := ⟨List.replicate 32 n, List.length_replicate⟩
    let leaves := [leaf 0, leaf 1, leaf 2, leaf 3, leaf 4]
    let tree := flatTree leaves
    leaves ≠ [] ∧ 1 < Nat.clog 2 leaves.length ∧ 1 < width leaves.length 2 ∧ tree.size = 11 ∧
      (∃ l, tree[7]? = some l ∧ tree[9]? = some (combine l l)) ∧
      ∃ root, tree.back? = some root ∧ ∃ plain,
        plainRoot? (leaves.map FixedOctets.toWire) = some plain ∧ root.octets = plain.reverse := by
  intro leaf leaves tree
  have hheight : Nat.clog 2 leaves.length = 3 := (by decide : Nat.clog 2 5 = 3)
  have hne : leaves ≠ [] := List.cons_ne_nil _ _
  have hhigh : 1 < Nat.clog 2 leaves.length := by rw [hheight]; decide
  have hwide : 1 < width leaves.length 2 := (by decide : 1 < width 5 2)
  obtain ⟨⟨-, hsize⟩, -, -, hnodes, hback, hroot, -⟩ := trees_agree leaves
  obtain ⟨-, -, l, r, hl, hr, hnode⟩ := hnodes 1 hhigh 1 hwide
  have hleft : start leaves.length 1 + 2 * 1 = 7 := by decide
  have hright : start leaves.length 1 + min (2 * 1 + 1) (width leaves.length 1 - 1) = 7 := by decide
  have hplace : start leaves.length (1 + 1) + 1 = 9 := by decide
  have hend : start leaves.length (3 + 1) = 11 := by decide
  rw [hleft] at hl
  rw [hright, hl] at hr
  rw [hplace] at hnode
  rw [hheight, hend] at hsize
  obtain rfl := Option.some.inj hr
  obtain ⟨root, hsome, hplain⟩ := hroot hne
  exact ⟨hne, hhigh, hwide, hsize, ⟨l, hl, hnode⟩, root, hback.trans hsome, hplain⟩

end AnchoredLedger.Merkle
