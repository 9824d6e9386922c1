import AnchoredLedger.Merkle.Tree
import AnchoredLedger.Proofs.Collision

/-! # The levels of a Merkle tree

Which nodes of a level are joined into which node above, level by level up to the root, and what can
be said of two trees with one root.

* **`Merkle.children?`** — the pair below a node; `getElem?_nextLevel` says that the node is what the
  pair combines to.
* **`Merkle.pair?`** — the same in a tower of levels such as `levels leaves`.
* **`Merkle.Collision`** — two pairs of nodes with one parent.
* **`Merkle.Collide`** — two trees with such pairs at one place; `eq_or_collide_of_root?_eq` says that
  nothing else gives different lists of one length one root. -/

namespace AnchoredLedger.Merkle

/-! ## Pairs with one parent -/

/-- The octets that are hashed for a pair of nodes. -/
def hashed (p : Hash × Hash) : Octets := p.1.toWire ++ p.2.toWire

/-- **A collision of two pairs of nodes**: the pairs differ and have one parent, because the octets
that are hashed for them have one double digest. -/
structure Collision (p q : Hash × Hash) : Prop where
  /-- The pairs differ. -/
  ne : p ≠ q
  /-- They have one parent. -/
  parent : combine p.1 p.2 = combine q.1 q.2
  /-- What is hashed for them are two octet strings with one double digest. -/
  octets : Digest.Collision (hashed p) (hashed q)

theorem hashed_inj {p q : Hash × Hash} (h : hashed p = hashed q) : p = q := by
  have hwires := List.append_inj h (by simp)
  exact Prod.ext (FixedOctets.toWire_inj hwires.1) (FixedOctets.toWire_inj hwires.2)

/-- Pairs with one parent are the same, or a collision. -/
theorem eq_or_collision {p q : Hash × Hash} (h : combine p.1 p.2 = combine q.1 q.2) :
    p = q ∨ Collision p q := by
  have hhash : Hash.ofTwice (hashed p) = Hash.ofTwice (hashed q) := h
  rcases Hash.eq_or_collision hhash with heq | hcollision
  · exact .inl (hashed_inj heq)
  · refine .inr ⟨?_, h, hcollision⟩
    rintro rfl
    exact hcollision.ne rfl

/-! ## A level and the one above -/

/-- **The pair below node `i` of the level above**: nodes `2 * i` and `2 * i + 1`, or node `2 * i`
twice where it is the last. -/
def children? (level : List Hash) (i : Nat) : Option (Hash × Hash) :=
  match level[2 * i]?, level[min (2 * i + 1) (level.length - 1)]? with
  | some l, some r => some (l, r)
  | _, _ => none

theorem children?_eq_some_iff {level : List Hash} {i : Nat} {p : Hash × Hash} :
    children? level i = some p ↔
      level[2 * i]? = some p.1 ∧ level[min (2 * i + 1) (level.length - 1)]? = some p.2 := by
  unfold children?
  cases level[2 * i]? <;> cases level[min (2 * i + 1) (level.length - 1)]? <;> simp [Prod.ext_iff]

@[simp] theorem children?_zero (l r : Hash) (rest : List Hash) :
    children? (l :: r :: rest) 0 = some (l, r) := by
  simp [children?]

@[simp] theorem children?_singleton (l : Hash) : children? [l] 0 = some (l, l) := rfl

/-- Behind the first two nodes the pairs are those of the rest. -/
@[simp] theorem children?_succ (l r : Hash) (rest : List Hash) (i : Nat) :
    children? (l :: r :: rest) (i + 1) = children? rest i := by
  have hleft : (l :: r :: rest)[2 * (i + 1)]? = rest[2 * i]? := rfl
  unfold children?
  rw [hleft]
  rcases Nat.lt_or_ge (2 * i) rest.length with hlt | hge
  · have hindex : min (2 * (i + 1) + 1) ((l :: r :: rest).length - 1) =
        min (2 * i + 1) (rest.length - 1) + 1 + 1 := by
      simp only [List.length_cons]
      omega
    rw [hindex, List.getElem?_cons_succ, List.getElem?_cons_succ]
  · rw [List.getElem?_eq_none hge]

/-- **A node is what the pair below it combines to.** -/
theorem getElem?_nextLevel (level : List Hash) (i : Nat) :
    (nextLevel level)[i]? = (children? level i).map fun p => combine p.1 p.2 := by
  induction level using nextLevel.induct generalizing i with
  | case1 l r rest ih =>
    cases i with
    | zero => simp
    | succ i => rw [nextLevel_cons_cons, List.getElem?_cons_succ, ih, children?_succ]
  | case2 l =>
    cases i with
    | zero => rfl
    | succ i => rfl
  | case3 => rfl

/-- Levels of one length with one level above are equal, or two of their pairs collide. -/
theorem eq_or_collision_of_nextLevel_eq {xs ys : List Hash} (hlen : xs.length = ys.length)
    (habove : nextLevel xs = nextLevel ys) :
    xs = ys ∨ ∃ i p q, children? xs i = some p ∧ children? ys i = some q ∧ Collision p q := by
  induction xs using nextLevel.induct generalizing ys with
  | case1 l r rest ih =>
    obtain ⟨l', r', rest', rfl⟩ : ∃ l' r' rest', ys = l' :: r' :: rest' := by
      match ys, hlen with
      | l' :: r' :: rest', _ => exact ⟨l', r', rest', rfl⟩
    have hrest : rest.length = rest'.length := by simpa using hlen
    rw [nextLevel_cons_cons, nextLevel_cons_cons] at habove
    injection habove with hparent hothers
    rcases eq_or_collision (p := (l, r)) (q := (l', r')) hparent with hpair | hcollision
    · obtain ⟨rfl, rfl⟩ := Prod.mk.inj hpair
      rcases ih hrest hothers with rfl | ⟨i, p, q, hp, hq, hcollision⟩
      · exact .inl rfl
      · exact .inr ⟨i + 1, p, q, by rw [children?_succ, hp], by rw [children?_succ, hq], hcollision⟩
    · exact .inr ⟨0, (l, r), (l', r'), children?_zero l r rest, children?_zero l' r' rest', hcollision⟩
  | case2 l =>
    obtain ⟨l', rfl⟩ := List.length_eq_one_iff.1 hlen.symm
    rw [nextLevel_singleton, nextLevel_singleton] at habove
    injection habove with hparent
    -- a lone node is joined with itself, so its parent says as much about it as that of a pair
    rcases eq_or_collision (p := (l, l)) (q := (l', l')) hparent with hpair | hcollision
    · obtain ⟨rfl, -⟩ := Prod.mk.inj hpair
      exact .inl rfl
    · exact .inr ⟨0, (l, l), (l', l'), children?_singleton l, children?_singleton l', hcollision⟩
  | case3 => exact .inl (List.eq_nil_of_length_eq_zero hlen.symm).symm

/-! ## The tower of levels -/

theorem root?_singleton (top : Hash) : root? [top] = some top := by rw [root?]

/-- The level above has the same root. -/
theorem root?_nextLevel {level : List Hash} (h : 1 < level.length) :
    root? (nextLevel level) = root? level := by
  match level, h with
  | l :: r :: rest, _ => rw [root?.eq_def (l :: r :: rest)]

@[simp] theorem levels_nil : levels [] = [] := by
  rw [levels, if_neg (by decide)]
  rfl

@[simp] theorem levels_singleton (top : Hash) : levels [top] = [[top]] := by
  rw [levels, if_neg (by simp)]
  rfl

/-- The levels of more than one node: these nodes, and the levels of those above. -/
theorem levels_of_one_lt {level : List Hash} (h : 1 < level.length) :
    levels level = level :: levels (nextLevel level) := by
  rw [levels, if_pos h]

/-- A tower over some nodes starts with them. -/
theorem exists_levels_eq_cons {level : List Hash} (h : level ≠ []) :
    ∃ above, levels level = level :: above := by
  match level, h with
  | [top], _ => exact ⟨[], levels_singleton top⟩
  | l :: r :: rest, _ => exact ⟨_, levels_of_one_lt (by simp)⟩

theorem nextLevel_ne_nil {level : List Hash} (h : level ≠ []) : nextLevel level ≠ [] := by
  match level, h with
  | [_], _ => simp
  | _ :: _ :: _, _ => simp

/-- There are levels above the lowest one as long as it has more than one node. -/
theorem one_lt_length_levels_iff {level : List Hash} :
    1 < (levels level).length ↔ 1 < level.length := by
  match level with
  | [] => simp
  | [_] => simp
  | l :: r :: rest =>
    have hmany : 1 < (l :: r :: rest).length := by simp
    obtain ⟨above, habove⟩ := exists_levels_eq_cons (nextLevel_ne_nil (List.cons_ne_nil l (r :: rest)))
    rw [levels_of_one_lt hmany, habove]
    simp

/-- Nodes have a root. -/
theorem exists_root?_eq_some {level : List Hash} (h : level ≠ []) : ∃ root, root? level = some root := by
  induction level using root?.induct with
  | case1 => exact absurd rfl h
  | case2 top => exact ⟨top, root?_singleton top⟩
  | case3 l r rest ih =>
    obtain ⟨root, hroot⟩ := ih (nextLevel_ne_nil h)
    exact ⟨root, (root?_nextLevel (by simp)).symm.trans hroot⟩

/-- **A level of a tower is the foot of what stands from it up**, which has the same root. -/
theorem levels_of_getElem? {leaves level : List Hash} {k : Nat}
    (h : (levels leaves)[k]? = some level) :
    levels level = (levels leaves).drop k ∧ root? level = root? leaves := by
  induction k generalizing leaves with
  | zero =>
    cases leaves with
    | nil => simp at h
    | cons l rest =>
      obtain ⟨above, habove⟩ := exists_levels_eq_cons (List.cons_ne_nil l rest)
      rw [habove] at h
      obtain rfl : l :: rest = level := by simpa using h
      exact ⟨rfl, rfl⟩
  | succ k ih =>
    match leaves, h with
    | [], h => simp at h
    | [_], h => simp at h
    | l :: r :: rest, h =>
      have hlen : 1 < (l :: r :: rest).length := by simp
      rw [levels_of_one_lt hlen, List.getElem?_cons_succ] at h
      obtain ⟨hlevels, hroot⟩ := ih h
      rw [levels_of_one_lt hlen, List.drop_succ_cons]
      exact ⟨hlevels, hroot.trans (root?_nextLevel hlen)⟩

/-- **The pair below node `i` of level `k + 1`** of a tower. -/
def pair? (tower : List (List Hash)) (k i : Nat) : Option (Hash × Hash) :=
  if k + 1 < tower.length then tower[k]?.bind fun level => children? level i else none

/-- One level further up. -/
@[simp] theorem pair?_succ (level : List Hash) (tower : List (List Hash)) (k i : Nat) :
    pair? (level :: tower) (k + 1) i = pair? tower k i := by
  simp [pair?]

/-- At the foot of a tower the pairs are those of the leaves. -/
theorem pair?_zero {level : List Hash} (h : 1 < level.length) (i : Nat) :
    pair? (levels level) 0 i = children? level i := by
  have hne : nextLevel level ≠ [] := nextLevel_ne_nil (List.ne_nil_of_length_pos (by omega))
  obtain ⟨above, habove⟩ := exists_levels_eq_cons hne
  rw [levels_of_one_lt h, habove]
  simp [pair?]

/-! ## Two trees with one root -/

/-- **Two trees collide**: at one place of one level they have different pairs with one parent. -/
def Collide (xs ys : List Hash) : Prop :=
  ∃ k i p q, pair? (levels xs) k i = some p ∧ pair? (levels ys) k i = some q ∧ Collision p q

/-- **Lists of one length with one root are equal, or their trees collide.** -/
theorem eq_or_collide_of_root?_eq {xs ys : List Hash} (hlen : xs.length = ys.length)
    (hroot : root? xs = root? ys) : xs = ys ∨ Collide xs ys := by
  induction hn : xs.length using Nat.strongRecOn generalizing xs ys with
  | ind n ih =>
    rcases Nat.lt_or_ge 1 xs.length with hmany | hfew
    · have hmany' : 1 < ys.length := hlen ▸ hmany
      have hshorter : (nextLevel xs).length < n := by
        rw [length_nextLevel]
        omega
      have hlen' : (nextLevel xs).length = (nextLevel ys).length := by
        rw [length_nextLevel, length_nextLevel, hlen]
      have hroot' : root? (nextLevel xs) = root? (nextLevel ys) := by
        rw [root?_nextLevel hmany, root?_nextLevel hmany', hroot]
      rcases ih _ hshorter hlen' hroot' rfl with habove | ⟨k, i, p, q, hp, hq, hcollision⟩
      · -- the levels above are equal, so what differs below has the same parents
        rcases eq_or_collision_of_nextLevel_eq hlen habove with heq | ⟨i, p, q, hp, hq, hcollision⟩
        · exact .inl heq
        · refine .inr ⟨0, i, p, q, ?_, ?_, hcollision⟩
          · rw [pair?_zero hmany, hp]
          · rw [pair?_zero hmany', hq]
      · refine .inr ⟨k + 1, i, p, q, ?_, ?_, hcollision⟩
        · rw [levels_of_one_lt hmany, pair?_succ, hp]
        · rw [levels_of_one_lt hmany', pair?_succ, hq]
    · match xs, ys, hlen, hfew with
      | [], [], _, _ => exact .inl rfl
      | [x], [y], _, _ =>
        rw [root?_singleton, root?_singleton] at hroot
        obtain rfl := Option.some.inj hroot
        exact .inl rfl

end AnchoredLedger.Merkle
