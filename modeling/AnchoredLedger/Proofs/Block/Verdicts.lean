import AnchoredLedger.Proofs.Block.RoundTrip
import AnchoredLedger.Proofs.Merkle.Levels
import AnchoredLedger.Verification

/-! # Verdicts across the wire

The checks of a block look at its time, its list and its root. Reading its wire form gives them back
but for one thing: where a signature stands without a list, an empty list is read. A block without a
list has no root to check; one with an empty list has, and that of no transactions is zero.

* **`Block.GainsList`** — the blocks whose wire form has a list that speaks against their root.
* **`Verdict.ofMerkleRoot_written`**, **`Verifier.verify_written`** — the verdict on what is read, in
  terms of the block that was written.
* **`Block.verify_parse_encode`** — which verdicts of reachable blocks survive the wire. -/

namespace AnchoredLedger

/-! ## The root of the list -/

namespace Block

variable {b c : Block}

/-- The root that is worked out depends on the list alone. -/
theorem calculateMerkleRoot_congr (h : c.transactions = b.transactions) :
    c.calculateMerkleRoot = b.calculateMerkleRoot := by
  unfold calculateMerkleRoot
  rw [h]

/-- The root that is worked out is that of the listed hashes, and zero where there are none. -/
theorem calculateMerkleRoot_eq_getD (b : Block) :
    b.calculateMerkleRoot = (Merkle.root? (b.transactions.getD [])).getD .zero := by
  unfold calculateMerkleRoot
  cases b.transactions with
  | none =>
    rw [Option.getD_none, Merkle.root?]
    rfl
  | some hashes => rfl

/-- The root that is worked out is zero where there are no hashes. -/
theorem calculateMerkleRoot_eq_zero (h : b.transactions.getD [] = []) :
    b.calculateMerkleRoot = .zero := by
  rw [calculateMerkleRoot_eq_getD, h, Merkle.root?, Option.getD_none]

/-- The root that is worked out is that of the tree over the list. -/
theorem root?_eq_calculateMerkleRoot {hashes : List Hash} (h : b.transactions = some hashes)
    (hne : hashes ≠ []) : Merkle.root? hashes = some b.calculateMerkleRoot := by
  obtain ⟨root, hroot⟩ := Merkle.exists_root?_eq_some hne
  unfold calculateMerkleRoot
  rw [h]
  show Merkle.root? hashes = some ((Merkle.root? hashes).getD .zero)
  rw [hroot, Option.getD_some]

end Block

/-! ## What the checks look at -/

@[simp] theorem Verdict.andThen_accepted (verdict : Verdict) :
    verdict.andThen .accepted = verdict := by
  cases verdict <;> rfl

/-- Nothing is checked of the transactions themselves. -/
theorem Verifier.verify_eq_andThen (v : Verifier) (b : Block) (height : Option UInt64)
    (flags : UInt32) :
    v.verify b height flags = (v.verifyHeader b).andThen (.ofMerkleRoot b) :=
  Verdict.andThen_accepted _

theorem Verifier.verifyHeader_congr (v : Verifier) {b c : Block} (h : c.time = b.time) :
    v.verifyHeader c = v.verifyHeader b := by
  unfold verifyHeader
  rw [h]

/-- The check of the root looks at the list and the root in force. -/
theorem Verdict.ofMerkleRoot_congr {b c : Block} (htransactions : c.transactions = b.transactions)
    (hroot : c.merkleRoot = b.merkleRoot) : ofMerkleRoot c = ofMerkleRoot b := by
  unfold ofMerkleRoot
  rw [htransactions, hroot, Block.calculateMerkleRoot_congr htransactions]

theorem Verdict.ofMerkleRoot_of_absent {b : Block} (h : b.transactions = none) :
    ofMerkleRoot b = .accepted := by
  unfold ofMerkleRoot
  rw [h]

/-- The check of the root passes where there is no list, or where the list has the root in force. -/
theorem Verdict.ofMerkleRoot_eq_accepted_iff {b : Block} :
    ofMerkleRoot b = .accepted ↔ b.transactions = none ∨ b.calculateMerkleRoot = b.merkleRoot := by
  cases htransactions : b.transactions with
  | none => simp [ofMerkleRoot_of_absent htransactions]
  | some hashes =>
    unfold ofMerkleRoot
    rw [htransactions]
    by_cases hroot : b.calculateMerkleRoot = b.merkleRoot
    · simp [hroot]
    · simp [hroot]

/-- The root of an empty list is zero. -/
theorem Verdict.ofMerkleRoot_of_empty {b : Block} (h : b.transactions = some []) :
    ofMerkleRoot b =
      if b.merkleRoot = .zero then .accepted
      else .refused (.merkleRootMismatch .zero b.merkleRoot) := by
  have hcalculated : b.calculateMerkleRoot = .zero :=
    Block.calculateMerkleRoot_eq_zero (by rw [h, Option.getD_some])
  unfold ofMerkleRoot
  rw [h, hcalculated]
  by_cases hzero : b.merkleRoot = .zero
  · rw [if_pos hzero, if_pos hzero.symm]
  · rw [if_neg hzero, if_neg (Ne.symm hzero)]

/-! ## The verdict on what is read -/

/-- **The blocks whose wire form has a list that speaks against their root**: they have a signature, no
list, and a root other than that of an empty list. -/
def Block.GainsList (b : Block) : Prop :=
  b.transactions = none ∧ b.signatures.isSome = true ∧ b.merkleRoot ≠ .zero

instance (b : Block) : Decidable b.GainsList :=
  inferInstanceAs (Decidable (b.transactions = none ∧ b.signatures.isSome = true ∧ _))

/-- **The check of the root across the wire.** -/
theorem Verdict.ofMerkleRoot_written (b : Block) (octets : Octets) (retain : Bool) :
    ofMerkleRoot (.ofSections b.written octets retain) =
      if b.GainsList then .refused (.merkleRootMismatch .zero b.merkleRoot)
      else ofMerkleRoot b := by
  have hroot : (Block.ofSections b.written octets retain).merkleRoot = b.merkleRoot := rfl
  have hwritten : (Block.ofSections b.written octets retain).transactions =
      Block.writtenTransactions b.transactions b.signatures := rfl
  by_cases hlist : b.transactions = none ∧ b.signatures.isSome = true
  · -- the list is absent here and empty there
    obtain ⟨signature, hsignature⟩ := Option.isSome_iff_exists.1 hlist.2
    rw [hlist.1, hsignature] at hwritten
    rw [ofMerkleRoot_of_empty hwritten, hroot, ofMerkleRoot_of_absent hlist.1]
    by_cases hzero : b.merkleRoot = .zero
    · have hkeeps : ¬ b.GainsList := fun h => h.2.2 hzero
      rw [if_pos hzero, if_neg hkeeps]
    · have hgains : b.GainsList := ⟨hlist.1, hlist.2, hzero⟩
      rw [if_neg hzero, if_pos hgains]
  · have hkeeps : ¬ b.GainsList := fun h => hlist ⟨h.1, h.2.1⟩
    rw [if_neg hkeeps]
    refine ofMerkleRoot_congr (hwritten.trans ?_) hroot
    cases htransactions : b.transactions with
    | some hashes => cases b.signatures <;> rfl
    | none =>
      have hunsigned : b.signatures = none := by simpa [htransactions] using hlist
      rw [hunsigned]
      rfl

/-- **The verdict across the wire.** -/
theorem Verifier.verify_written (v : Verifier) (b : Block) (octets : Octets) (retain : Bool)
    (height : Option UInt64) (flags : UInt32) :
    v.verify (.ofSections b.written octets retain) height flags =
      if b.GainsList then
        (v.verifyHeader b).andThen (.refused (.merkleRootMismatch .zero b.merkleRoot))
      else v.verify b height flags := by
  have htime : v.verifyHeader (.ofSections b.written octets retain) = v.verifyHeader b :=
    v.verifyHeader_congr rfl
  rw [v.verify_eq_andThen, v.verify_eq_andThen, htime, Verdict.ofMerkleRoot_written]
  split <;> rfl

/-- Of a block without a list only the time is checked. -/
theorem Verifier.verify_of_absent (v : Verifier) {b : Block} (h : b.transactions = none)
    (height : Option UInt64) (flags : UInt32) : v.verify b height flags = v.verifyHeader b := by
  rw [v.verify_eq_andThen, Verdict.ofMerkleRoot_of_absent h, Verdict.andThen_accepted]

namespace Block

/-- **Which verdicts survive the wire.** The wire form of a reachable block within the limit is read
as a block that gets the same verdict from every verifier, unless an absent list became an empty one
that speaks against the root. Then the time alone decides about the block that was written, and of
the block that was read the root is refused wherever the time is not. -/
theorem verify_parse_encode (b : Block) (hreachable : b.Reachable) (hsig : b.Storable)
    (network : Network) (retain : Bool)
    (hfits : Header.size + 32 * b.transactionCount ≤ network.maxBlockSize.toNat) :
    ∃ p, parse network retain b.encode 0 = .ok p ∧
      ∀ (v : Verifier) (height : Option UInt64) (flags : UInt32),
        (¬ b.GainsList → v.verify p height flags = v.verify b height flags) ∧
        (b.GainsList → v.verify b height flags = v.verifyHeader b ∧
          v.verify p height flags =
            (v.verifyHeader b).andThen (.refused (.merkleRootMismatch .zero b.merkleRoot))) := by
  refine ⟨_, hreachable.coherent.parse_encode_self hsig hfits retain, fun v height flags => ?_⟩
  rw [v.verify_written]
  constructor
  · intro hkeeps
    rw [if_neg hkeeps]
  · intro hgains
    rw [if_pos hgains]
    exact ⟨v.verify_of_absent hgains.1 height flags, rfl⟩

/-- A block that got two transactions and a signature and was read from its wire form: its verdicts are those
of what is read once more. And the header that is taken from it and then signed, whose verdicts are not. -/
theorem verify_parse_encode_signed :
    let leaf (n : UInt8) : Hash := ⟨List.replicate 32 n, List.length_replicate⟩
    let b := (new 1 .zero .zero none .zero 0 []).run [.addTransactionHash (leaf 1),
      .addTransactionHash (leaf 2), .setSignatures (some [7, 9]), .reparse .main true]
    let c := b.run [.cloneAsHeader, .setSignatures (some [7])]
    (b.Reachable ∧ b.Storable ∧
      Header.size + 32 * b.transactionCount ≤ Network.main.maxBlockSize.toNat ∧
      b.transactions = some [leaf 1, leaf 2] ∧ b.signatures = some [7, 9] ∧
      ∃ p, parse .main true b.encode 0 = .ok p ∧
        ∀ v : Verifier, v.verify p none 0 = v.verify b none 0) ∧
    (c.Reachable ∧ c.Storable ∧
      Header.size + 32 * c.transactionCount ≤ Network.main.maxBlockSize.toNat ∧ c.GainsList ∧
      ∃ p, parse .main false c.encode 0 = .ok p ∧ ∀ v : Verifier, v.verify c none 0 = v.verifyHeader c ∧
        v.verify p none 0 =
          (v.verifyHeader c).andThen (.refused (.merkleRootMismatch .zero c.merkleRoot))) := by
  intro leaf b c
  have hlisted : b.transactions = some [leaf 1, leaf 2] := by decide +kernel
  have hsigned : b.signatures = some [7, 9] := by decide +kernel
  have hgains : c.GainsList := by decide +kernel
  have hreachable : b.Reachable := (Reachable.constructed (.new 1 .zero .zero none .zero 0 [])).run _
  have hstorable : b.Storable := by
    rintro signature hsome
    cases hsigned.symm.trans hsome
    decide
  have hstorable' : c.Storable := by
    rintro signature hsome
    cases hsome
    decide
  have hfits : Header.size + 32 * b.transactionCount ≤ Network.main.maxBlockSize.toNat := by decide +kernel
  have hfits' : Header.size + 32 * c.transactionCount ≤ Network.main.maxBlockSize.toNat := by decide +kernel
  obtain ⟨p, hparse, hverdict⟩ := verify_parse_encode b hreachable hstorable .main true hfits
  obtain ⟨p', hparse', hverdict'⟩ :=
    verify_parse_encode c (hreachable.run _) hstorable' .main false hfits'
  have hkeeps : ¬ b.GainsList := by
    rintro ⟨habsent, -⟩
    cases hlisted.symm.trans habsent
  exact ⟨⟨hreachable, hstorable, hfits, hlisted, hsigned, p, hparse, fun v => (hverdict v none 0).1 hkeeps⟩,
    hreachable.run _, hstorable', hfits', hgains, p', hparse', fun v => (hverdict' v none 0).2 hgains⟩

/-- **A verdict that does not survive the wire**: a header taken from a block and then signed is
accepted; read from its wire form it is refused, because its root is not that of an empty list. -/
theorem verdict_lost_by_signed_header :
    let root : Hash := ⟨List.replicate 32 1, rfl⟩
    let b := (new 1 .zero .zero (some root) .zero 0 []).run [.cloneAsHeader, .setSignatures (some [7])]
    let v : Verifier := { now := 0 }
    b.Reachable ∧ b.Storable ∧
      Header.size + 32 * b.transactionCount ≤ Network.main.maxBlockSize.toNat ∧
      Overflow.addInt64 v.now v.drift = .ok 172800 ∧ v.verify b none 0 = .accepted ∧
      ∃ p, parse .main true b.encode 0 = .ok p ∧
        v.verify p none 0 = .refused (.merkleRootMismatch .zero root) := by
  intro root b v
  have hreachable : b.Reachable :=
    (Reachable.constructed (.new 1 .zero .zero (some root) .zero 0 [])).run _
  have hsig : b.Storable := by
    rintro signature hsome
    cases hsome
    decide
  have hfits : Header.size + 32 * b.transactionCount ≤ Network.main.maxBlockSize.toNat := by decide
  have hgains : b.GainsList := ⟨rfl, rfl, by decide⟩
  have hlimit : Overflow.addInt64 v.now v.drift = .ok 172800 := by
    unfold Overflow.addInt64
    rw [if_pos (by decide), show v.now + v.drift = 172800 by decide]
  have htime : v.verifyHeader b = .accepted := by decide
  refine ⟨hreachable, hsig, hfits, hlimit, (v.verify_of_absent rfl none 0).trans htime, _,
    hreachable.coherent.parse_encode_self hsig hfits true, ?_⟩
  rw [v.verify_written, if_pos hgains, htime]
  rfl

end Block

end AnchoredLedger
