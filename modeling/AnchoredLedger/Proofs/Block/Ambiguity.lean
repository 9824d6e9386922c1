import AnchoredLedger.Proofs.Block.Verdicts

/-! # Lists with one root

A lone last node is joined with itself, and so it has the parent that it would have with a copy of itself
behind it. This holds at every height of a tree: where a level is odd, the leaves under its last node may
stand twice and the root is the same. So a block does not say by its header whether they do.

* **`Merkle.repeatTail`** — a list whose last nodes stand twice.
* **`Merkle.nextLevel_append`** — a level is made part by part, as long as no pair is cut.
* **`Merkle.root?_append_append`** — the induction on the height at which the level is odd.
* **`Verdict.ofMerkleRoot_congr_of_root?`** — the check of the root asks for the root of the list only.
* **`Block.repeated_tail_unnoticed`** — identity and verdict of blocks with such lists. -/

namespace AnchoredLedger

namespace Merkle

/-- **The list whose last nodes stand twice**: behind them their copies. -/
def repeatTail (count : Nat) (leaves : List Hash) : List Hash :=
  leaves ++ leaves.drop (leaves.length - count)

/-- Of a list that is not shorter, as many nodes are repeated as are asked for. -/
theorem length_repeatTail {count : Nat} {leaves : List Hash} (h : count ≤ leaves.length) :
    (repeatTail count leaves).length = leaves.length + count := by
  rw [repeatTail, List.length_append, List.length_drop]
  omega

/-! ## One root -/

/-- **A level is made part by part**, if the first part ends with a pair. -/
theorem nextLevel_append {front : List Hash} (heven : front.length % 2 = 0) (tail : List Hash) :
    nextLevel (front ++ tail) = nextLevel front ++ nextLevel tail := by
  induction front using nextLevel.induct with
  | case1 l r rest ih =>
    have heven' : rest.length % 2 = 0 := by
      simp only [List.length_cons] at heven
      omega
    rw [List.cons_append, List.cons_append, nextLevel_cons_cons, nextLevel_cons_cons, ih heven',
      List.cons_append]
  | case2 l => simp at heven
  | case3 => rfl

/-- **The last nodes may stand twice**, if they are the leaves under the last node of a level that is
odd and has more than one node. -/
theorem root?_append_append {k j : Nat} {front tail : List Hash} (htail : tail.length = 2 ^ k)
    (hfront : front.length = 2 ^ k * (2 * j)) (hj : 0 < j) :
    root? (front ++ (tail ++ tail)) = root? (front ++ tail) := by
  induction k generalizing front tail with
  | zero =>
    -- the level of the leaves is the odd one: its last node is joined with itself or with its copy
    obtain ⟨x, rfl⟩ := List.length_eq_one_iff.1 htail
    have heven : front.length % 2 = 0 := by
      rw [hfront, Nat.pow_zero]
      omega
    have hlong : 1 < front.length := by
      rw [hfront, Nat.pow_zero]
      omega
    have htwice : 1 < (front ++ ([x] ++ [x])).length := by
      rw [List.length_append]
      omega
    have honce : 1 < (front ++ [x]).length := by
      rw [List.length_append]
      omega
    rw [← root?_nextLevel htwice, ← root?_nextLevel honce, nextLevel_append heven,
      nextLevel_append heven]
    rfl
  | succ k ih =>
    -- no pair is cut by the parts, so the level above has the same parts, half as long
    have hpos : 0 < 2 ^ k := Nat.two_pow_pos k
    have hdouble : front.length = 2 * (2 ^ k * (2 * j)) := by
      rw [hfront, Nat.pow_succ', Nat.mul_assoc]
    have hdouble' : tail.length = 2 * 2 ^ k := by
      rw [htail, Nat.pow_succ']
    have htwice : 1 < (front ++ (tail ++ tail)).length := by
      simp only [List.length_append]
      omega
    have honce : 1 < (front ++ tail).length := by
      rw [List.length_append]
      omega
    rw [← root?_nextLevel htwice, ← root?_nextLevel honce, nextLevel_append (by omega),
      nextLevel_append (by omega), nextLevel_append (by omega)]
    refine ih ?_ ?_
    · rw [length_nextLevel]
      omega
    · rw [length_nextLevel]
      omega

/-- **A list and the list whose tail stands twice have one root**, if the length of the tail is the
power of two in the length of the list and the list is not all tail. -/
theorem root?_repeatTail {leaves : List Hash} {k m : Nat} (hlen : leaves.length = 2 ^ k * m)
    (hodd : m % 2 = 1) (hmany : 1 < m) : root? (repeatTail (2 ^ k) leaves) = root? leaves := by
  obtain ⟨j, rfl⟩ : ∃ j, m = 2 * j + 1 := ⟨m / 2, by omega⟩
  have hfront : leaves.length - 2 ^ k = 2 ^ k * (2 * j) := by
    rw [hlen, Nat.mul_succ, Nat.add_sub_cancel]
  have hsplit := List.take_append_drop (2 ^ k * (2 * j)) leaves
  have htail : (leaves.drop (2 ^ k * (2 * j))).length = 2 ^ k := by
    rw [List.length_drop, hlen, Nat.mul_succ, Nat.add_sub_cancel_left]
  have htake : (leaves.take (2 ^ k * (2 * j))).length = 2 ^ k * (2 * j) :=
    List.length_take_of_le (by rw [← hfront]; exact Nat.sub_le _ _)
  calc root? (repeatTail (2 ^ k) leaves)
      = root? (leaves.take (2 ^ k * (2 * j)) ++
          (leaves.drop (2 ^ k * (2 * j)) ++ leaves.drop (2 ^ k * (2 * j)))) := by
        rw [repeatTail, hfront, ← List.append_assoc, hsplit]
    _ = root? (leaves.take (2 ^ k * (2 * j)) ++ leaves.drop (2 ^ k * (2 * j))) :=
        root?_append_append htail htake (by omega)
    _ = root? leaves := by rw [hsplit]

end Merkle

/-! ## One verdict -/

/-- The check of the root asks for the root of the list, not for the list. -/
theorem Verdict.ofMerkleRoot_congr_of_root? {b c : Block} {xs ys : List Hash}
    (hb : b.transactions = some xs) (hc : c.transactions = some ys)
    (hroots : Merkle.root? ys = Merkle.root? xs) (hroot : c.merkleRoot = b.merkleRoot) :
    ofMerkleRoot c = ofMerkleRoot b := by
  have hcalculated : c.calculateMerkleRoot = b.calculateMerkleRoot := by
    rw [Block.calculateMerkleRoot_eq_getD, Block.calculateMerkleRoot_eq_getD, hb, hc,
      Option.getD_some, Option.getD_some, hroots]
  unfold ofMerkleRoot
  rw [hb, hc, hcalculated, hroot]

namespace Block

/-- **Blocks do not show whether the tail of their list stands twice.** Let the length of a list be a
power of two times an odd number above one, and let as many of its last hashes as the power says stand
twice. This is another list with the same root. Reachable blocks with one header and these two lists
have one identity, and every verifier gives them the same verdict. And blocks that are made with these
lists and the same fields have one header, whether their root is given or worked out. -/
theorem repeated_tail_unnoticed (leaves : List Hash) (k m : Nat) (hlen : leaves.length = 2 ^ k * m)
    (hodd : m % 2 = 1) (hmany : 1 < m) :
    let twice := Merkle.repeatTail (2 ^ k) leaves
    (twice.length = leaves.length + 2 ^ k ∧ Merkle.root? twice = Merkle.root? leaves) ∧
    (∀ b c : Block, b.Reachable → c.Reachable → b.transactions = some leaves →
      c.transactions = some twice → b.header = c.header →
        b.hash = c.hash ∧ ∀ (v : Verifier) (height : Option UInt64) (flags : UInt32),
          v.verify b height flags = v.verify c height flags) ∧
    ∀ version planKey prevBlock root? prevAnchor time,
      (new version planKey prevBlock root? prevAnchor time leaves).header =
        (new version planKey prevBlock root? prevAnchor time twice).header := by
  intro twice
  have hroots : Merkle.root? twice = Merkle.root? leaves := Merkle.root?_repeatTail hlen hodd hmany
  refine ⟨⟨?_, hroots⟩, ?_, ?_⟩
  · refine Merkle.length_repeatTail ?_
    rw [hlen]
    exact Nat.le_mul_of_pos_right _ (by omega)
  · intro b c hb hc hleaves htwice hheader
    refine ⟨?_, fun v height flags => ?_⟩
    · rw [hb.coherent.hash_eq, hc.coherent.hash_eq, hheader]
    · have htime : b.time = c.time := congrArg Header.time hheader
      have hroot : b.merkleRoot = c.merkleRoot := congrArg Header.merkleRoot hheader
      rw [v.verify_eq_andThen, v.verify_eq_andThen, v.verifyHeader_congr htime,
        Verdict.ofMerkleRoot_congr_of_root? htwice hleaves hroots.symm hroot]
  · intro version planKey prevBlock root? prevAnchor time
    cases root? with
    | some root => rfl
    | none =>
      simp only [new, header, merkleRoot, calculateMerkleRoot, Option.getD_none]
      rw [hroots]

/-- Six hashes, and the same with the last two of them twice: the level above is odd, not the lowest. -/
theorem repeated_tail_unnoticed_pair :
    let x : Hash := ⟨List.replicate 32 1, rfl⟩
    let y : Hash := ⟨List.replicate 32 2, rfl⟩
    let z : Hash := ⟨List.replicate 32 3, rfl⟩
    let b := new 1 .zero .zero none .zero 0 [x, x, y, y, z, x]
    let c := new 1 .zero .zero none .zero 0 [x, x, y, y, z, x, z, x]
    [x, x, y, y, z, x].length = 2 ^ 1 * 3 ∧ 3 % 2 = 1 ∧ 1 < 3 ∧ b.Reachable ∧ c.Reachable ∧
      b.header = c.header ∧ b.hash = c.hash ∧ ∀ v : Verifier, v.verify b none 0 = v.verify c none 0 := by
  intro x y z b c
  have hb : b.Reachable := .constructed (.new 1 .zero .zero none .zero 0 _)
  have hc : c.Reachable := .constructed (.new 1 .zero .zero none .zero 0 _)
  obtain ⟨-, hblocks, hmade⟩ :=
    repeated_tail_unnoticed [x, x, y, y, z, x] 1 3 rfl (by decide) (by decide)
  have hheader : b.header = c.header := hmade 1 .zero .zero none .zero 0
  obtain ⟨hhash, hverdict⟩ := hblocks b c hb hc rfl rfl hheader
  exact ⟨rfl, by decide, by decide, hb, hc, hheader, hhash, fun v => hverdict v none 0⟩

end Block

end AnchoredLedger
