import AnchoredLedger.Proofs.Block.Verdicts

/-! # What the identity of a block commits to

The identity of a block is a hash of its header, and the header has the root of the tree over the
transaction hashes. So blocks with one identity have one header, and blocks with one header have one
list, up to collisions of the double digest, which are there to be shown. For the lists this holds only
at one length: the last nodes of a level may be joined with themselves or with equal neighbours.

* **`Coherent.header_eq_or_collision`** — from the identity to the header.
* **`eq_or_collide_of_calculateMerkleRoot_eq`** — from the root to the list.
* **`Block.hash_commits`** — both for reachable blocks. -/

namespace AnchoredLedger.Block

variable {a b : Block}

/-- Blocks with one identity have one header, or their header octets collide. -/
theorem Coherent.header_eq_or_collision (ha : a.Coherent) (hb : b.Coherent)
    (h : a.hash = b.hash) : a.header = b.header ∨ Digest.Collision a.headerOctets b.headerOctets := by
  have hhash : Hash.ofTwice a.header.encode = Hash.ofTwice b.header.encode := by
    rw [ha.hash_eq, hb.hash_eq] at h
    exact h
  rw [ha.headerOctets_eq, hb.headerOctets_eq]
  rcases Hash.eq_or_collision hhash with heq | hcollision
  · exact .inl (Header.encode_inj heq)
  · exact .inr hcollision

/-- Lists of one length with one root are equal, or their trees collide. -/
theorem eq_or_collide_of_calculateMerkleRoot_eq {xs ys : List Hash} (ha : a.transactions = some xs)
    (hb : b.transactions = some ys) (hlen : xs.length = ys.length)
    (hroot : a.calculateMerkleRoot = b.calculateMerkleRoot) : xs = ys ∨ Merkle.Collide xs ys := by
  by_cases hxs : xs = []
  · -- lists without hashes have no tree, but they are equal
    subst hxs
    exact .inl (List.eq_nil_of_length_eq_zero hlen.symm).symm
  · have hys : ys ≠ [] := by
      rintro rfl
      exact hxs (List.eq_nil_of_length_eq_zero hlen)
    refine Merkle.eq_or_collide_of_root?_eq hlen ?_
    rw [root?_eq_calculateMerkleRoot ha hxs, root?_eq_calculateMerkleRoot hb hys, hroot]

/-- **The identity of a block commits to its header, and the header to the list.** Reachable blocks
with one identity have one header, or their header octets are two octet strings with one double digest.
Reachable blocks with one header and lists of one length that pass the check of the root have one list,
or at one place of one level of the two trees there are different pairs with one parent. -/
theorem hash_commits (a b : Block) (ha : a.Reachable) (hb : b.Reachable) :
    (a.hash = b.hash → a.header = b.header ∨ Digest.Collision a.headerOctets b.headerOctets) ∧
    ∀ xs ys, a.header = b.header → a.transactions = some xs → b.transactions = some ys →
      xs.length = ys.length → Verdict.ofMerkleRoot a = .accepted →
        Verdict.ofMerkleRoot b = .accepted → xs = ys ∨ Merkle.Collide xs ys := by
  refine ⟨ha.coherent.header_eq_or_collision hb.coherent, ?_⟩
  intro xs ys hheader hxs hys hlen haccepted haccepted'
  have hroot : a.calculateMerkleRoot = a.merkleRoot :=
    (Verdict.ofMerkleRoot_eq_accepted_iff.1 haccepted).resolve_left (by simp [hxs])
  have hroot' : b.calculateMerkleRoot = b.merkleRoot :=
    (Verdict.ofMerkleRoot_eq_accepted_iff.1 haccepted').resolve_left (by simp [hys])
  refine eq_or_collide_of_calculateMerkleRoot_eq hxs hys hlen ?_
  calc a.calculateMerkleRoot = a.header.merkleRoot := hroot
    _ = b.header.merkleRoot := by rw [hheader]
    _ = b.calculateMerkleRoot := hroot'.symm

/-- A block whose root was never asked for, and the same block with its root asked for and signed. -/
theorem hash_commits_signed_copy :
    let x : Hash := ⟨List.replicate 32 1, rfl⟩
    let y : Hash := ⟨List.replicate 32 2, rfl⟩
    let a := new 1 .zero .zero none .zero 0 [x, y, x]
    let b := a.run [.consult .merkleRoot, .setSignatures (some [7])]
    a.Reachable ∧ b.Reachable ∧ a.hash = b.hash ∧
      (a.header = b.header ∨ Digest.Collision a.headerOctets b.headerOctets) ∧
      a.header = b.header ∧ Verdict.ofMerkleRoot a = .accepted ∧ Verdict.ofMerkleRoot b = .accepted ∧
      ∃ xs ys, a.transactions = some xs ∧ b.transactions = some ys ∧ xs.length = ys.length ∧
        (xs = ys ∨ Merkle.Collide xs ys) := by
  intro x y a b
  have ha : a.Reachable := .constructed (.new 1 .zero .zero none .zero 0 [x, y, x])
  have hb : b.Reachable := ha.run _
  -- said of any list, so that no root has to be evaluated
  have hcopy : ∀ hashes, let c := new 1 .zero .zero none .zero 0 hashes
      let d := c.run [.consult .merkleRoot, .setSignatures (some [7])]
      c.header = d.header ∧ c.calculateMerkleRoot = c.merkleRoot ∧
        d.calculateMerkleRoot = d.merkleRoot := fun hashes => ⟨rfl, rfl, rfl⟩
  obtain ⟨hheader, hroot, hroot'⟩ := hcopy [x, y, x]
  have hhash : a.hash = b.hash := by rw [ha.coherent.hash_eq, hb.coherent.hash_eq, hheader]
  have haccepted : Verdict.ofMerkleRoot a = .accepted :=
    Verdict.ofMerkleRoot_eq_accepted_iff.2 (.inr hroot)
  have haccepted' : Verdict.ofMerkleRoot b = .accepted :=
    Verdict.ofMerkleRoot_eq_accepted_iff.2 (.inr hroot')
  obtain ⟨hcommits, hlists⟩ := hash_commits a b ha hb
  exact ⟨ha, hb, hhash, hcommits hhash, hheader, haccepted, haccepted', [x, y, x], [x, y, x], rfl, rfl,
    rfl, hlists _ _ hheader rfl rfl rfl haccepted haccepted'⟩

end AnchoredLedger.Block
