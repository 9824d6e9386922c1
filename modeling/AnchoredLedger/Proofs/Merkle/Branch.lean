import AnchoredLedger.Merkle.Branch
import AnchoredLedger.Proofs.Merkle.Levels

/-! # What a Merkle branch proves

A branch may name any neighbours on any side. If it leads from a node to the root of a tree all the
same, then the node stands in the tree where the sides of the neighbours lead down to from the root,
or some pair that was hashed on the way up is not the pair of the tree and has its parent.

* **`Branch.joined`** — the pair that is hashed for a node and its neighbour.
* **`Branch.place`** — where the sides of the neighbours lead down to.
* **`Branch.Collides`** — a pair on the way with the parent of another pair of the tree.
* **`stands_or_collides`** — the descent from the root; `length_and_place_of_collect` says where the
  branch of a leaf leads to.
* **`Branch.verifies_sound`** — both together, for any branch and for the branch of a leaf. -/

namespace AnchoredLedger.Merkle.Branch

/-! ## Along a branch -/

/-- **The pair that is hashed** for a node and its neighbour, the neighbour on its side. -/
def joined (node : Hash) (s : Sibling) : Hash × Hash :=
  if s.onLeft then (s.hash, node) else (node, s.hash)

theorem join_eq_combine (node : Hash) (s : Sibling) :
    join node s = combine (joined node s).1 (joined node s).2 := by
  unfold join joined
  cases s.onLeft <;> rfl

/-- **Where a node stands in the lowest level of a tower** if its neighbours on the way up are on the
given sides. The root has place 0, and a lone last node takes the place of its copy too. -/
def place : List Sibling → List (List Hash) → Nat
  | s :: above, level :: upper =>
    min (2 * place above upper + s.onLeft.toNat) (level.length - 1)
  | _, _ => 0

@[simp] theorem place_nil (tower : List (List Hash)) : place [] tower = 0 := rfl

@[simp] theorem place_cons (s : Sibling) (above : List Sibling) (level : List Hash)
    (upper : List (List Hash)) :
    place (s :: above) (level :: upper) =
      min (2 * place above upper + s.onLeft.toNat) (level.length - 1) := rfl

/-- A node whose pair with its neighbour is a pair of a level stands on its side of it. -/
theorem getElem?_of_children? {level : List Hash} {i : Nat} {node : Hash} {s : Sibling}
    (h : children? level i = some (joined node s)) :
    level[min (2 * i + s.onLeft.toNat) (level.length - 1)]? = some node := by
  obtain ⟨hleft, hright⟩ := children?_eq_some_iff.1 h
  unfold joined at hleft hright
  cases hside : s.onLeft with
  | true =>
    rw [hside, if_pos rfl] at hright
    exact hright
  | false =>
    rw [hside, if_neg Bool.false_ne_true] at hleft
    -- the left node of a pair is there, so its place needs no correction
    have hlt : 2 * i < level.length := (List.getElem?_eq_some_iff.1 hleft).1
    have hmin : min (2 * i + Bool.toNat false) (level.length - 1) = 2 * i := by
      rw [Bool.toNat_false]
      omega
    rw [hmin]
    exact hleft

/-- **A branch collides with a tower** on its way up from a node: for one of its neighbours it hashes
another pair than the one of the tower that stands there, and the two have one parent. -/
def Collides (b : Branch) (node : Hash) (tower : List (List Hash)) : Prop :=
  ∃ j s p, b.siblings[j]? = some s ∧
    pair? tower j (place (b.siblings.drop (j + 1)) (tower.drop (j + 1))) = some p ∧
    Collision (joined (climb ⟨b.siblings.take j⟩ node) s) p

/-- A collision further up is one of the whole branch. -/
theorem Collides.cons {s : Sibling} {above : List Sibling} {node : Hash} {level : List Hash}
    {tower : List (List Hash)} (h : Collides ⟨above⟩ (join node s) tower) :
    Collides ⟨s :: above⟩ node (level :: tower) := by
  obtain ⟨j, s', p, hs, hp, hcollision⟩ := h
  refine ⟨j + 1, s', p, hs, ?_, hcollision⟩
  rw [pair?_succ]
  exact hp

/-! ## Down from the root -/

/-- **A branch as high as a tree that leads to its root** starts from the node that stands in the place
where the sides lead down to, or collides with the tree. -/
theorem stands_or_collides {level : List Hash} {siblings : List Sibling} {node root : Hash}
    (hheight : (levels level).length = siblings.length + 1) (hroot : root? level = some root)
    (hclimb : climb ⟨siblings⟩ node = root) :
    level[place siblings (levels level)]? = some node ∨ Collides ⟨siblings⟩ node (levels level) := by
  induction siblings generalizing level node with
  | nil =>
    have hlone : ¬ 1 < level.length := fun hmany =>
      absurd (one_lt_length_levels_iff.2 hmany) (by rw [hheight]; decide)
    match level, hheight, hroot, hlone with
    | [], hheight, _, _ => simp at hheight
    | [top], _, hroot, _ =>
      rw [root?_singleton, ← hclimb, climb_nil] at hroot
      exact .inl hroot
    | _ :: _ :: _, _, _, hlone => simp at hlone
  | cons s above ih =>
    -- a neighbour is joined below the root, so the level has more than one node
    have hmany : 1 < level.length := by
      rw [← one_lt_length_levels_iff, hheight, List.length_cons]
      omega
    have hheight' : (levels (nextLevel level)).length = above.length + 1 := by
      rw [levels_of_one_lt hmany] at hheight
      simpa using hheight
    have hroot' : root? (nextLevel level) = some root := by rw [root?_nextLevel hmany, hroot]
    rw [levels_of_one_lt hmany]
    rcases ih hheight' hroot' hclimb with hstands | hcollides
    · -- the parent stands in the tree; its pair there is the one hashed, or they collide
      rw [getElem?_nextLevel] at hstands
      obtain ⟨p, hp, hparent⟩ := Option.map_eq_some_iff.1 hstands
      rw [join_eq_combine] at hparent
      rcases eq_or_collision hparent.symm with heq | hcollision
      · rw [← heq] at hp
        exact .inl (getElem?_of_children? hp)
      · refine .inr ⟨0, s, p, rfl, ?_, hcollision⟩
        rw [← levels_of_one_lt hmany, pair?_zero hmany, levels_of_one_lt hmany]
        exact hp
    · exact .inr hcollides.cons

/-- The levels that a branch spans: as many as it has neighbours, and that of the root. -/
def span (b : Branch) (leaves : List Hash) : List (List Hash) :=
  (levels leaves).drop ((levels leaves).length - (b.siblings.length + 1))

/-- A branch that is not higher than a tree starts from a node of the level from which it spans the
tree up to the root, or collides with it. -/
theorem mem_or_collides {leaves : List Hash} {b : Branch} {node root : Hash}
    (hroot : root? leaves = some root) (hheight : b.siblings.length < (levels leaves).length)
    (hverifies : b.verifies node root = true) :
    (∃ level, (levels leaves)[(levels leaves).length - (b.siblings.length + 1)]? = some level ∧
      level[place b.siblings (b.span leaves)]? = some node) ∨ b.Collides node (b.span leaves) := by
  have hlt : (levels leaves).length - (b.siblings.length + 1) < (levels leaves).length := by omega
  have hlevel := List.getElem?_eq_getElem hlt
  obtain ⟨hlevels, hroot'⟩ := levels_of_getElem? hlevel
  have hheight' : (levels (levels leaves)[(levels leaves).length - (b.siblings.length + 1)]).length =
      b.siblings.length + 1 := by
    rw [hlevels, List.length_drop]
    omega
  have hcases := stands_or_collides hheight' (hroot'.trans hroot) (verifies_iff _ _ _ |>.1 hverifies)
  rw [hlevels] at hcases
  rcases hcases with hstands | hcollides
  · exact .inl ⟨_, hlevel, hstands⟩
  · exact .inr hcollides

/-! ## The branch of a leaf -/

/-- **The branch of a node is as high as the tree, and its sides lead down to the node.** -/
theorem length_and_place_of_collect {tree : Array Hash} {offset size position : Nat}
    {siblings : List Sibling} (h : collect tree offset size position = some siblings)
    {level : List Hash} (hsize : level.length = size) (hposition : position < size) :
    (levels level).length = siblings.length + 1 ∧ place siblings (levels level) = position := by
  induction siblings generalizing offset size position level with
  | nil =>
    rw [collect] at h
    split at h
    · split at h
      · cases h
      · split at h <;> cases h
    · obtain ⟨top, rfl⟩ := List.length_eq_one_iff.1 (show level.length = 1 by omega)
      rw [levels_singleton, place_nil]
      rw [List.length_singleton] at hsize
      exact ⟨rfl, by omega⟩
  | cons s above ih =>
    rw [collect] at h
    split at h
    · rename_i hmany
      split at h
      · cases h
      · split at h
        · cases h
        · rename_i rest hrest
          injection h with h
          injection h with hs habove
          subst hs habove
          have hsize' : (nextLevel level).length = (size + 1) / 2 := by
            rw [length_nextLevel, hsize]
          obtain ⟨hheight, hplace⟩ := ih hrest hsize' (by omega)
          rw [levels_of_one_lt (by omega), place_cons, hplace, hsize]
          refine ⟨by rw [List.length_cons, hheight, List.length_cons], ?_⟩
          -- the side of the neighbour is the last bit of the position
          have hside : (decide (position % 2 = 1)).toNat = position % 2 := by
            rcases Nat.mod_two_eq_zero_or_one position with hbit | hbit <;> simp [hbit]
          rw [hside]
          omega
    · cases h

/-- **What a branch proves.** If a branch that is not higher than a tree leads from a node to its root,
the node is one of the level from which the branch spans the tree up to the root, a leaf if it spans
all of it; or the branch collides with the tree. The branch of a leaf leads from no other node than
this leaf, unless it collides. -/
theorem verifies_sound (leaves : List Hash) (root : Hash) (hroot : root? leaves = some root) :
    (∀ (b : Branch) (node : Hash), b.siblings.length < (levels leaves).length →
      b.verifies node root = true →
        (∃ level, (levels leaves)[(levels leaves).length - (b.siblings.length + 1)]? = some level ∧
          node ∈ level) ∨ b.Collides node (b.span leaves)) ∧
    (∀ (b : Branch) (node : Hash), b.siblings.length + 1 = (levels leaves).length →
      b.verifies node root = true → node ∈ leaves ∨ b.Collides node (levels leaves)) ∧
    (∀ (index : Nat) (b : Branch) (node : Hash), ofLeaf? leaves index = some b →
      b.verifies node root = true →
        leaves[index]? = some node ∨ b.Collides node (levels leaves)) := by
  refine ⟨fun b node hheight hverifies => ?_, fun b node hheight hverifies => ?_,
    fun index b node hbranch hverifies => ?_⟩
  · rcases mem_or_collides hroot hheight hverifies with ⟨level, hlevel, hstands⟩ | hcollides
    · exact .inl ⟨level, hlevel, List.mem_of_getElem? hstands⟩
    · exact .inr hcollides
  · rcases stands_or_collides hheight.symm hroot ((verifies_iff _ _ _).1 hverifies) with
      hstands | hcollides
    · exact .inl (List.mem_of_getElem? hstands)
    · exact .inr hcollides
  · unfold ofLeaf? at hbranch
    split at hbranch
    · rename_i hindex
      obtain ⟨siblings, hcollect, rfl⟩ := Option.map_eq_some_iff.1 hbranch
      obtain ⟨hheight, hplace⟩ := length_and_place_of_collect hcollect rfl hindex
      have hcases := stands_or_collides hheight hroot ((verifies_iff _ _ _).1 hverifies)
      rw [hplace] at hcases
      exact hcases
    · cases hbranch

/-- Three leaves, so that the last is joined with itself: a branch from the node above it, its own
branch, and the same with the leaf to its own left. -/
theorem verifies_sound_lone_leaf :
    let x : Hash := ⟨List.replicate 32 1, rfl⟩
    let y : Hash := ⟨List.replicate 32 2, rfl⟩
    let z : Hash := ⟨List.replicate 32 3, rfl⟩
    let root := combine (combine x y) (combine z z)
    let upper : Branch := ⟨[⟨combine x y, true⟩]⟩
    let turned : Branch := ⟨[⟨z, true⟩, ⟨combine x y, true⟩]⟩
    let own : Branch := ⟨[⟨z, false⟩, ⟨combine x y, true⟩]⟩
    root? [x, y, z] = some root ∧
    (upper.siblings.length < (levels [x, y, z]).length ∧ upper.verifies (combine z z) root = true ∧
      ((∃ level, (levels [x, y, z])[(levels [x, y, z]).length - 2]? = some level ∧
        combine z z ∈ level) ∨ upper.Collides (combine z z) (upper.span [x, y, z]))) ∧
    (turned.siblings.length + 1 = (levels [x, y, z]).length ∧ turned.verifies z root = true ∧
      (z ∈ [x, y, z] ∨ turned.Collides z (levels [x, y, z]))) ∧
    (ofLeaf? [x, y, z] 2 = some own ∧ own.verifies z root = true ∧
      ([x, y, z][2]? = some z ∨ own.Collides z (levels [x, y, z]))) := by
  intro x y z root upper turned own
  have hroot : root? [x, y, z] = some root := by simp [root?, root]
  have hlevels : (levels [x, y, z]).length = 3 := by simp [levels]
  have hupper : upper.siblings.length < (levels [x, y, z]).length := by rw [hlevels]; decide
  have hturned : turned.siblings.length + 1 = (levels [x, y, z]).length := hlevels.symm
  have hown : ofLeaf? [x, y, z] 2 = some own := by
    simp [ofLeaf?, collect, flatTree, grow, neighbour, parents, own]
  have hverifies : upper.verifies (combine z z) root = true ∧ turned.verifies z root = true ∧
      own.verifies z root = true := by
    refine ⟨?_, ?_, ?_⟩ <;> exact (verifies_iff _ _ _).2 rfl
  obtain ⟨hnode, hleaf, hindex⟩ := verifies_sound [x, y, z] root hroot
  exact ⟨hroot, ⟨hupper, hverifies.1, hnode upper _ hupper hverifies.1⟩,
    ⟨hturned, hverifies.2.1, hleaf turned z hturned hverifies.2.1⟩,
    ⟨hown, hverifies.2.2, hindex 2 own z hown hverifies.2.2⟩⟩

end AnchoredLedger.Merkle.Branch
