import AnchoredLedger.Proofs.Clock
import AnchoredLedger.Proofs.Command.Request
import AnchoredLedger.Proofs.Hex

/-! # What is built can be verified

The text that is printed for a request stands for the wire form of the block, which is read as a block that
says the same. Its root was worked out from its list, so nothing but its time can speak against it. That
holds also where a signature puts an empty list in front of itself: without a list the root is zero, and so
it is with an empty one.

* **`block_of_build`** — the block of a request, and what is printed for it.
* **`exists_of_parse_written`** — what is read from the printed octets.
* **`verify_of_accepted`**, **`accepted_of_time_le`** — when verifying gives its consent.
* **`build_verifies`** — from the request to the consent. -/

namespace AnchoredLedger.Command

variable {r : BuildRequest} {b p : Block} {now : UInt32}

/-! ## What is printed -/

/-- The text that is printed is the wire form of the block of the request. -/
theorem block_of_build (h : (build r now).result = .ok b) :
    r.block now = .ok b ∧ (build r now).printed = b.toHex ++ "\n" := by
  unfold build at h ⊢
  cases hblock : r.block now with
  | error e =>
    rw [hblock] at h
    cases h
  | ok c =>
    rw [hblock] at h
    cases h
    refine ⟨rfl, ?_⟩
    show String.join [b.toHex ++ "\n"] = b.toHex ++ "\n"
    rw [String.join_cons, String.join_nil, String.append_empty]

/-! ## What is read -/

/-- A block that is written and read says what it said, but that an absent list may be an empty one. -/
theorem exists_of_parse_written (hcoherent : b.Coherent) (hsig : b.Storable)
    (hfits : Header.size + 32 * b.transactionCount ≤ Network.main.maxBlockSize.toNat) :
    ∃ p, Block.ofOctets b.encode = .ok p ∧ p.header = b.header ∧ p.hash = b.hash ∧
      p.transactions.getD [] = b.transactions.getD [] ∧ p.signatures = b.signatures :=
  ⟨_, hcoherent.parse_encode_self hsig hfits true, rfl, hcoherent.hash_ofSections_encode true,
    Block.getD_writtenTransactions _ _, rfl⟩

/-! ## What verifying says -/

/-- Verifying gives its consent where all checks pass. -/
theorem verify_of_accepted {octets : Octets} {clock : Int64} {height : Option UInt64}
    (hparse : Block.ofOctets octets = .ok p)
    (haccepted : Verifier.verify { now := clock } p height 0 = .accepted) :
    (verify octets clock height).result = .ok true := by
  have hread : parseBlock octets = .ok p := mapError_eq_ok_iff.2 hparse
  unfold verify Outcome.bindResult
  simp only [hread, haccepted, Outcome.success]

/-- A block with the root of its list is accepted up to two days ahead of the clock. -/
theorem accepted_of_time_le (hroot : p.merkleRoot = p.calculateMerkleRoot) {clock : Int64}
    (hclock : clock.toInt + 172800 ≤ Int64.maxValue.toInt)
    (htime : (p.time.toNat : Int) ≤ clock.toInt + 172800) (height : Option UInt64) :
    Verifier.verify { now := clock } p height 0 = .accepted := by
  have hearly : Verifier.verifyHeader { now := clock } p = .accepted := by
    refine (Verifier.verifyHeader_eq_accepted_iff _ p).2 ⟨Verifier.hasLimit_of_now_iff.2 hclock, ?_⟩
    rwa [Verifier.limit_of_now]
  rw [Verifier.verify_eq_andThen, hearly, Verdict.ofMerkleRoot_eq_accepted_iff.2 (.inr hroot.symm)]
  rfl

/-! ## From the request to the consent -/

/-- **What is built for a request without a root can be verified.** The text that is printed stands for the
wire form of a block with the fields that were asked for, the root of its list and the identity of the
block that was built, and verifying consents to it by every clock that is at most two days behind its
time. If a signature was asked for, it is made with a pair that holds the public key of its secret; if it is
valid under that key, the block that is read matches the key. -/
theorem build_verifies (r : BuildRequest) (now time : UInt32) (b : Block) (hroot : r.merkleRoot = none)
    (htime : r.time = some time) (hbuild : (build r now).result = .ok b)
    (hfits : r.headerOnly = false →
      Header.size + 32 * r.transactions.length ≤ Network.main.maxBlockSize.toNat) :
    ∃ text octets p, (build r now).printed = text ++ "\n" ∧ Hex.decode text = .ok octets ∧
      Block.ofOctets octets = .ok p ∧ r.Describes p.header (p.transactions.getD []) ∧ p.time = time ∧
      p.merkleRoot = p.calculateMerkleRoot ∧ p.hash = b.hash ∧
      (∀ (clock : Int64) (height : Option UInt64), clock.toInt + 172800 ≤ Int64.maxValue.toInt →
        (time.toNat : Int) ≤ clock.toInt + 172800 → (verify octets clock height).result = .ok true) ∧
      ∀ secret, r.signKey = some secret → ∃ key, KeyPair.ofHex secret = .ok key ∧ key.IsMatched ∧
        ((∀ signature, key.sign b.hash.octets = .ok signature →
            Signature.verifies b.hash.octets signature key.publicOctets = true) →
          p.signatureMatches key.publicOctets = true) := by
  obtain ⟨hblock, hprinted⟩ := block_of_build hbuild
  obtain ⟨hcoherent, hdescribes, hsigns⟩ := BuildRequest.of_block_eq_ok hblock
  -- the list of the block is as long as the one that was given, or empty
  have hcount : Header.size + 32 * b.transactionCount ≤ Network.main.maxBlockSize.toNat := by
    rw [Block.transactionCount_eq_length_getD, ← hdescribes.transactions.length_eq]
    unfold BuildRequest.listed
    cases hheader : r.headerOnly with
    | true => exact (by decide : Header.size + 32 * 0 ≤ Network.main.maxBlockSize.toNat)
    | false => exact hfits hheader
  obtain ⟨p, hparse, hheader, hhash, hlist, hsignatures⟩ :=
    exists_of_parse_written hcoherent hsigns.storable hcount
  have hdescribed : r.Describes p.header (p.transactions.getD []) := by
    rw [hheader, hlist]
    exact hdescribes
  have hptime : p.time = time := hdescribed.time time htime
  have hproot : p.merkleRoot = p.calculateMerkleRoot := by
    have hshown := hdescribed.merkleRoot
    rw [hroot] at hshown
    rw [Block.calculateMerkleRoot_eq_getD]
    exact hshown
  refine ⟨b.toHex, b.encode, p, hprinted, Hex.decode_encode _, hparse, hdescribed, hptime, hproot, hhash,
    fun clock height hclock hearly => ?_, fun secret hsecret => ?_⟩
  · refine verify_of_accepted hparse (accepted_of_time_le hproot hclock ?_ height)
    rw [hptime]
    exact hearly
  · unfold BuildRequest.Signs at hsigns
    rw [hsecret] at hsigns
    obtain ⟨key, signature, hkey, hmade, hsigned⟩ := hsigns
    refine ⟨key, hkey, KeyPair.isMatched_of_ofHex hkey, fun hvalid => ?_⟩
    unfold Block.signatureMatches
    rw [hsignatures, hsigned, hhash]
    exact hvalid signature hmade

/-- A header with a plan key and a signature: the texts of the transactions are not looked at, an empty
list stands in front of the signature, and the clock is just two days behind. -/
theorem build_verifies_signed_header :
    let secret := "00000000000000000000000000000000000000000000000000000000000000b7"
    let planKey := "0279be667ef9dcbbac55a06295ce870b07029bfcdb2dce28d959f2815b16f81798"
    let r : BuildRequest :=
      { version := some 3, planKey := some planKey, time := some 1500000000, transactions := ["none"],
        headerOnly := true, signKey := some secret }
    ∃ b octets p key, (build r 0).result = .ok b ∧ KeyPair.ofHex secret = .ok key ∧
      Block.ofOctets octets = .ok p ∧ p.version = 3 ∧ p.prevBlock = .zero ∧ p.merkleRoot = .zero ∧
      p.hash = b.hash ∧ (verify octets 1499827200 none).result = .ok true ∧
      p.signatureMatches key.publicOctets = true := by
  intro secret planKey r
  have hevaluated : ((build r 0).result.toOption.any fun b =>
      (KeyPair.ofHex secret).toOption.any fun key => b.signatureMatches key.publicOctets) = true := by
    decide +kernel
  obtain ⟨b, hbuilt, hkeyed⟩ := (Option.any_eq_true _ _).1 hevaluated
  obtain ⟨key, hkey, hmatches⟩ := (Option.any_eq_true _ _).1 hkeyed
  have hbuild : (build r 0).result = .ok b := toOption_eq_some_iff.1 hbuilt
  have hsecret : KeyPair.ofHex secret = .ok key := toOption_eq_some_iff.1 hkey
  obtain ⟨-, -, hsigns⟩ := BuildRequest.of_block_eq_ok (block_of_build hbuild).1
  obtain ⟨text, octets, p, -, -, hparse, hdescribes, -, hroot, hhash, hverify, hsigned⟩ :=
    build_verifies r 0 1500000000 b rfl rfl hbuild (by decide)
  obtain ⟨key', hsecret', -, hmatched⟩ := hsigned secret rfl
  cases hsecret.symm.trans hsecret'
  have hempty : p.transactions.getD [] = [] := List.forall₂_nil_left_iff.1 hdescribes.transactions
  exact ⟨b, octets, p, key, hbuild, hsecret, hparse, hdescribes.version, hdescribes.prevBlock,
    hroot.trans (Block.calculateMerkleRoot_eq_zero hempty), hhash,
    hverify 1499827200 none (by decide) (by decide),
    hmatched fun _ hmade => hsigns.valid rfl hsecret hmatches hmade⟩

end AnchoredLedger.Command
