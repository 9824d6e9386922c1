import AnchoredLedger.Proofs.Merkle.Branch
import AnchoredLedger.Proofs.Merkle.FlatTree
import Mathlib.Algebra.Group.Nat.Defs
import Mathlib.Data.List.Basic
import Mathlib.Data.Nat.Log

/-! # Every leaf has a branch

The branch of a leaf is read off the flat tree, with running offsets and with a lone last node as its
own neighbour; the root is computed level by level without it. Both go through the same nodes, so the
branch of every leaf is there and leads to the root.

* **`length_levels`** — how high a tree is.
* **`getElem?_half_nextLevel`** — one step up: a node joined with its neighbour is the node above.
* **`exists_collect`** — the way up from any node of any level, by that step.
* **`sibling_of_collect`** — which place of the array each neighbour comes from, and its side.
* **`Branch.ofLeaf?_complete`** — all of it for the branch of a leaf. -/

namespace AnchoredLedger.Merkle

/-- **The height of a tree**: over `n` leaves there are as many levels as halvings, rounded up, lead
from `n` to one, and that of the leaves. -/
theorem length_levels {level : List Hash} (h : level ≠ []) :
    (levels level).length = Nat.clog 2 level.length + 1 := by
  induction hn : level.length using Nat.strongRecOn generalizing level with
  | ind n ih =>
    rcases Nat.lt_or_ge 1 level.length with hmany | hfew
    · have hhalf : (nextLevel level).length = (n + 1) / 2 := by rw [length_nextLevel, hn]
      have habove := ih _ (by omega) (nextLevel_ne_nil h) hhalf
      rw [levels_of_one_lt hmany, List.length_cons, habove,
        Nat.clog_of_two_le (by decide) (show 2 ≤ n by omega)]
      rfl
    · obtain ⟨top, rfl⟩ := exists_eq_singleton (Nat.not_lt.2 hfew) h
      rw [levels_singleton, ← hn]
      rfl

namespace Branch

/-! ## One step up -/

/-- The neighbour of a node is a node. -/
theorem neighbour_lt {position size : Nat} (h : position < size) : neighbour position size < size := by
  unfold neighbour
  split <;> omega

/-- **A node joined with its neighbour is the node above.** -/
theorem getElem?_half_nextLevel {level : List Hash} {position : Nat} {node hash : Hash}
    (hnode : level[position]? = some node)
    (hhash : level[neighbour position level.length]? = some hash) :
    (nextLevel level)[position / 2]? = some (join node ⟨hash, position % 2 = 1⟩) := by
  have hlt : position < level.length := (List.getElem?_eq_some_iff.1 hnode).1
  rw [getElem?_nextLevel]
  unfold neighbour at hhash
  rcases Nat.mod_two_eq_zero_or_one position with heven | hodd
  · -- the node is the left one, and its neighbour the right one or the node itself
    rw [if_pos heven] at hhash
    have hpair : children? level (position / 2) = some (node, hash) := by
      refine children?_eq_some_iff.2 ⟨?_, ?_⟩
      · rwa [show 2 * (position / 2) = position by omega]
      · rwa [show 2 * (position / 2) = position by omega]
    rw [hpair, join, if_neg (by simp [heven])]
    rfl
  · -- the node is the right one, so it is no lone one
    rw [if_neg (by omega)] at hhash
    have hpair : children? level (position / 2) = some (hash, node) := by
      refine children?_eq_some_iff.2 ⟨?_, ?_⟩
      · rwa [show 2 * (position / 2) = position - 1 by omega]
      · rwa [show min (2 * (position / 2) + 1) (level.length - 1) = position by omega]
    rw [hpair, join, if_pos (by simp [hodd])]
    rfl

/-! ## The way up -/

/-- What is collected from a level of one node, and from one of more. -/
theorem collect_eq_some_iff {tree : Array Hash} {offset size position : Nat}
    {siblings : List Sibling} :
    collect tree offset size position = some siblings ↔
      (¬ 1 < size ∧ siblings = []) ∨
      (1 < size ∧ ∃ hash above, tree[offset + neighbour position size]? = some hash ∧
        collect tree (offset + size) ((size + 1) / 2) (position / 2) = some above ∧
        siblings = ⟨hash, position % 2 = 1⟩ :: above) := by
  rw [collect]
  by_cases hmany : 1 < size
  · rw [if_pos hmany]
    cases tree[offset + neighbour position size]? with
    | none => simp [hmany]
    | some hash =>
      cases collect tree (offset + size) ((size + 1) / 2) (position / 2) with
      | none => simp [hmany]
      | some above => simp [hmany, eq_comm]
  · rw [if_neg hmany]
    simp [hmany, eq_comm]

/-- **The way up from a node of a level** is there, and leads to the root. -/
theorem exists_collect {tree : Array Hash} {before level : List Hash} {root : Hash}
    (htree : tree.toList = before ++ (levels level).flatten) (hroot : root? level = some root)
    {position : Nat} {node : Hash} (hnode : level[position]? = some node) :
    ∃ siblings, collect tree before.length level.length position = some siblings ∧
      climb ⟨siblings⟩ node = root := by
  induction level using levels.induct generalizing before position node with
  | case1 level hmany ih =>
    have hlt : neighbour position level.length < level.length :=
      neighbour_lt (List.getElem?_eq_some_iff.1 hnode).1
    have hhash := List.getElem?_eq_getElem hlt
    rw [levels_of_one_lt hmany, List.flatten_cons] at htree
    -- the neighbour is read where it stands, and the way goes on from the node above
    have hread := (getElem?_of_toList_eq htree hlt).trans hhash
    rw [← List.append_assoc] at htree
    obtain ⟨above, hcollect, hclimb⟩ := ih htree ((root?_nextLevel hmany).trans hroot)
      (getElem?_half_nextLevel hnode hhash)
    rw [List.length_append, length_nextLevel] at hcollect
    exact ⟨_, collect_eq_some_iff.2 (.inr ⟨hmany, _, above, hread, hcollect, rfl⟩), hclimb⟩
  | case2 level hfew hempty =>
    obtain rfl := List.isEmpty_iff.1 hempty
    simp at hnode
  | case3 level hfew hnonempty =>
    obtain ⟨top, rfl⟩ := exists_eq_singleton hfew (mt List.isEmpty_iff.2 hnonempty)
    have hzero : position = 0 := by
      have hlt : position < 1 := (List.getElem?_eq_some_iff.1 hnode).1
      omega
    subst hzero
    rw [root?_singleton] at hroot
    refine ⟨[], collect_eq_some_iff.2 (.inl ⟨hfew, rfl⟩), ?_⟩
    exact Option.some.inj (hnode.symm.trans hroot)

/-- **Where each neighbour comes from**: from its place in its level of the array; and its side is a
binary digit of the place of the node. -/
theorem sibling_of_collect {tree : Array Hash} {offset size position : Nat}
    {siblings : List Sibling} (h : collect tree offset size position = some siblings) {k : Nat}
    {s : Sibling} (hs : siblings[k]? = some s) :
    tree[offset + (start size k + neighbour (position / 2 ^ k) (width size k))]? = some s.hash ∧
      s.onLeft = position.testBit k := by
  induction siblings generalizing offset size position k with
  | nil => simp at hs
  | cons first above ih =>
    rcases collect_eq_some_iff.1 h with ⟨-, hnil⟩ | ⟨-, hash, above', hhash, habove, heq⟩
    · cases hnil
    · cases heq
      cases k with
      | zero =>
        obtain rfl : _ = s := Option.some.inj hs
        refine ⟨by simpa using hhash, ?_⟩
        rw [Nat.testBit_zero]
      | succ k =>
        obtain ⟨htree, hside⟩ := ih habove (List.getElem?_cons_succ.symm.trans hs)
        refine ⟨?_, ?_⟩
        · rw [start_succ, width_succ, Nat.pow_succ', ← Nat.div_div_eq_div_mul, ← Nat.add_assoc,
            ← Nat.add_assoc]
          rwa [Nat.add_assoc (offset + size)]
        · rw [hside, Nat.testBit_succ]

/-! ## The branch of a leaf -/

/-- The branch of a leaf is what is collected from there in the flat tree. -/
theorem ofLeaf?_eq_some_iff {leaves : List Hash} {index : Nat} {b : Branch} :
    ofLeaf? leaves index = some b ↔ index < leaves.length ∧
      collect (flatTree leaves) 0 leaves.length index = some b.siblings := by
  unfold ofLeaf?
  by_cases hlt : index < leaves.length
  · rw [if_pos hlt]
    cases b
    simp [hlt]
  · rw [if_neg hlt]
    simp [hlt]

/-- The branch of a leaf is as high as its tree. -/
theorem length_siblings_of_ofLeaf? {leaves : List Hash} {index : Nat} {b : Branch}
    (h : ofLeaf? leaves index = some b) : b.siblings.length = Nat.clog 2 leaves.length := by
  obtain ⟨hlt, hcollect⟩ := ofLeaf?_eq_some_iff.1 h
  have hheight := (length_and_place_of_collect hcollect rfl hlt).1
  rw [length_levels (List.ne_nil_of_length_pos (by omega))] at hheight
  omega

/-- **Every leaf has a branch, and only leaves have one.** It has as many neighbours as the tree is high
above its leaves, each of them read from its place in the flat tree; the neighbour at a height stands on
the left exactly where that binary digit of the index is one; and it leads from the leaf to the root. -/
theorem ofLeaf?_complete (leaves : List Hash) (index : Nat) :
    ((ofLeaf? leaves index).isSome = true ↔ index < leaves.length) ∧
    ∀ leaf, leaves[index]? = some leaf → ∃ b root, ofLeaf? leaves index = some b ∧
      root? leaves = some root ∧ b.siblings.length = Nat.clog 2 leaves.length ∧
      (∀ k s, b.siblings[k]? = some s →
        (flatTree leaves)[start leaves.length k
          + neighbour (index / 2 ^ k) (width leaves.length k)]? = some s.hash ∧
        s.onLeft = index.testBit k) ∧
      b.verifies leaf root = true := by
  have hbranch : ∀ leaf, leaves[index]? = some leaf → ∃ b root, ofLeaf? leaves index = some b ∧
      root? leaves = some root ∧ b.climb leaf = root := by
    intro leaf hleaf
    have hlt : index < leaves.length := (List.getElem?_eq_some_iff.1 hleaf).1
    have hne : leaves ≠ [] := List.ne_nil_of_length_pos (by omega)
    obtain ⟨root, hroot⟩ := exists_root?_eq_some hne
    have htree : (flatTree leaves).toList = [] ++ (levels leaves).flatten := toList_flatTree leaves
    obtain ⟨siblings, hcollect, hclimb⟩ := exists_collect htree hroot hleaf
    exact ⟨⟨siblings⟩, root, ofLeaf?_eq_some_iff.2 ⟨hlt, hcollect⟩, hroot, hclimb⟩
  refine ⟨⟨fun hsome => ?_, fun hlt => ?_⟩, fun leaf hleaf => ?_⟩
  · obtain ⟨b, hb⟩ := Option.isSome_iff_exists.1 hsome
    exact (ofLeaf?_eq_some_iff.1 hb).1
  · obtain ⟨b, root, hb, -⟩ := hbranch _ (List.getElem?_eq_getElem hlt)
    rw [hb]
    rfl
  · obtain ⟨b, root, hb, hroot, hclimb⟩ := hbranch leaf hleaf
    refine ⟨b, root, hb, hroot, length_siblings_of_ofLeaf? hb, fun k s hs => ?_,
      (verifies_iff _ _ _).2 hclimb⟩
    have hsibling := sibling_of_collect (ofLeaf?_eq_some_iff.1 hb).2 hs
    rwa [Nat.zero_add] at hsibling

/-- Five leaves, and the branch of the last: the last nodes of two levels in a row have no neighbours but
themselves. -/
theorem ofLeaf?_complete_lone_leaf :
    let leaf (n : UInt8) : Hash := ⟨List.replicate 32 n, List.length_replicate⟩
    let leaves := [leaf 0, leaf 1, leaf 2, leaf 3, leaf 4]
    leaves[4]? = some (leaf 4) ∧ ∃ b root, ofLeaf? leaves 4 = some b ∧ root? leaves = some root ∧
      b.siblings.map Sibling.onLeft = [false, false, true] ∧ b.verifies (leaf 4) root = true := by
  intro leaf leaves
  have hleaf : leaves[4]? = some (leaf 4) := rfl
  obtain ⟨b, root, hb, hroot, hheight, hsides, hverifies⟩ := (ofLeaf?_complete leaves 4).2 _ hleaf
  obtain ⟨s, t, u, hsiblings⟩ := List.length_eq_three.1 (hheight.trans (by decide : Nat.clog 2 5 = 3))
  rw [hsiblings] at hsides
  have hs : s.onLeft = false := (hsides 0 s rfl).2
  have ht : t.onLeft = false := (hsides 1 t rfl).2
  have hu : u.onLeft = true := (hsides 2 u rfl).2
  refine ⟨hleaf, b, root, hb, hroot, ?_, hverifies⟩
  simp [hsiblings, hs, ht, hu]

end Branch

end AnchoredLedger.Merkle
