import AnchoredLedger.Proofs.Clock
import AnchoredLedger.Proofs.Command.Request

/-! # What verification decides

The time of a block is held against the sum of clock and drift, and the list against the root in force.
Where there is a word for that sum, each verdict is what the exact sum gives. Where there is none, no
block gets a verdict: clock and drift alone decide about that, and the clock of the command is any word.

* **`Verdict.ofMerkleRoot_cases`** — what the check of the root comes to.
* **`Verifier.verify_cases`** — what all checks of a block come to.
* **`Verifier.Decides`** — the verdict that exact sum, list and root call for.
* **`Command.verify_decides`** — verification is exact, and fails where there is no limit only. -/

namespace AnchoredLedger

/-! ## The checks -/

/-- What the check of the root comes to. -/
theorem Verdict.ofMerkleRoot_cases (b : Block) :
    ((b.transactions = none ∨ b.calculateMerkleRoot = b.merkleRoot) ∧ ofMerkleRoot b = .accepted) ∨
    (b.transactions.isSome = true ∧ b.calculateMerkleRoot ≠ b.merkleRoot ∧
      ofMerkleRoot b = .refused (.merkleRootMismatch b.calculateMerkleRoot b.merkleRoot)) := by
  cases hlist : b.transactions with
  | none => exact .inl ⟨.inl rfl, ofMerkleRoot_of_absent hlist⟩
  | some hashes =>
    by_cases hroot : b.calculateMerkleRoot = b.merkleRoot
    · exact .inl ⟨.inr hroot, ofMerkleRoot_eq_accepted_iff.2 (.inr hroot)⟩
    · refine .inr ⟨rfl, hroot, ?_⟩
      unfold ofMerkleRoot
      rw [hlist]
      exact if_neg hroot

namespace Verifier

variable {v : Verifier} {b : Block}

/-- **What the checks of a block come to.** -/
theorem verify_cases (v : Verifier) (b : Block) (height : Option UInt64) (flags : UInt32) :
    (¬ v.HasLimit ∧ v.verify b height flags = .overflow .addition) ∨
    (v.HasLimit ∧ v.limit < b.time.toNat ∧ ∃ time limit : Int64, time.toInt = b.time.toNat ∧
      limit.toInt = v.limit ∧ v.verify b height flags = .refused (.timestampTooFarInFuture time limit)) ∨
    (v.HasLimit ∧ b.time.toNat ≤ v.limit ∧
      b.transactions.isSome = true ∧ b.calculateMerkleRoot ≠ b.merkleRoot ∧
      v.verify b height flags = .refused (.merkleRootMismatch b.calculateMerkleRoot b.merkleRoot)) ∨
    (v.HasLimit ∧ b.time.toNat ≤ v.limit ∧
      (b.transactions = none ∨ b.calculateMerkleRoot = b.merkleRoot) ∧
      v.verify b height flags = .accepted) := by
  rw [v.verify_eq_andThen]
  rcases v.verifyHeader_cases b with ⟨hhas, hheader⟩ | ⟨hhas, hlate, time, limit, htime, hlimit, hheader⟩ |
    ⟨hhas, htime, hheader⟩
  · rw [hheader]
    exact .inl ⟨hhas, rfl⟩
  · rw [hheader]
    exact .inr (.inl ⟨hhas, hlate, time, limit, htime, hlimit, rfl⟩)
  · -- the time is in order, so that the root decides
    rw [hheader]
    rcases Verdict.ofMerkleRoot_cases b with ⟨hroot, hverdict⟩ | ⟨hlist, hroot, hverdict⟩
    · exact .inr (.inr (.inr ⟨hhas, htime, hroot, hverdict⟩))
    · exact .inr (.inr (.inl ⟨hhas, htime, hlist, hroot, hverdict⟩))

/-- **The verdict that exact sum, list and root call for**: the time comes first, and without a limit
there is none. -/
structure Decides (v : Verifier) (b : Block) (verdict : Verdict) : Prop where
  /-- There is no limit. -/
  overflow (e : Overflow) : verdict = .overflow e ↔ ¬ v.HasLimit
  /-- The time lies beyond the limit. -/
  late (time limit : Int64) : verdict = .refused (.timestampTooFarInFuture time limit) ↔
    time.toInt = b.time.toNat ∧ limit.toInt = v.limit ∧ v.limit < b.time.toNat
  /-- The time does not, but the list has another root. -/
  mismatch (calculated header : Hash) : verdict = .refused (.merkleRootMismatch calculated header) ↔
    v.HasLimit ∧ b.time.toNat ≤ v.limit ∧ b.transactions.isSome = true ∧
      calculated = b.calculateMerkleRoot ∧ header = b.merkleRoot ∧ calculated ≠ header
  /-- Neither is the case. -/
  accepted : verdict = .accepted ↔ v.HasLimit ∧ b.time.toNat ≤ v.limit ∧
    (b.transactions = none ∨ b.calculateMerkleRoot = b.merkleRoot)

/-- **The checks of a block give the verdict that is called for.** -/
theorem decides_verify (v : Verifier) (b : Block) (height : Option UInt64) (flags : UInt32) :
    v.Decides b (v.verify b height flags) := by
  rcases v.verify_cases b height flags with ⟨hhas, hverdict⟩ |
    ⟨hhas, hlate, time, limit, htime, hlimit, hverdict⟩ | ⟨hhas, htime, hlist, hroot, hverdict⟩ |
    ⟨hhas, htime, hroot, hverdict⟩
  · -- a word for the limit would be a limit
    have hnone : ∀ limit : Int64, limit.toInt ≠ v.limit := by
      intro limit hlimit
      exact hhas (hasLimit_iff.2 ⟨limit, Overflow.addInt64_eq_ok_iff.2 hlimit⟩)
    rw [hverdict]
    constructor <;> simp [hhas, hnone]
  · rw [hverdict]
    constructor
    · simp [hhas]
    · intro time' limit'
      rw [← htime, ← hlimit, Int64.toInt_inj, Int64.toInt_inj]
      simp only [Verdict.refused.injEq, Refusal.timestampTooFarInFuture.injEq, eq_comm (a := time),
        eq_comm (a := limit)]
      rw [hlimit, htime]
      simp [hlate]
    · intro calculated header
      simp [Int.not_le.2 hlate]
    · simp [Int.not_le.2 hlate]
  · rw [hverdict]
    have hsome : b.transactions ≠ none := Option.isSome_iff_ne_none.1 hlist
    constructor
    · simp [hhas]
    · simp [Int.not_lt.2 htime]
    · intro calculated header
      simp only [Verdict.refused.injEq, Refusal.merkleRootMismatch.injEq]
      constructor
      · rintro ⟨rfl, rfl⟩
        exact ⟨hhas, htime, hlist, rfl, rfl, hroot⟩
      · rintro ⟨-, -, -, rfl, rfl, -⟩
        exact ⟨rfl, rfl⟩
    · simp [hsome, hroot]
  · rw [hverdict]
    constructor
    · simp [hhas]
    · simp [Int.not_lt.2 htime]
    · intro calculated header
      refine iff_of_false (fun h => by cases h) ?_
      rintro ⟨-, -, hlist, rfl, rfl, hne⟩
      rcases hroot with habsent | hroot
      · rw [habsent] at hlist
        cases hlist
      · exact hne hroot
    · exact iff_of_true rfl ⟨hhas, htime, hroot⟩

end Verifier

/-! ## The command -/

namespace Command

variable {octets : Octets} {now : Int64} {height : Option UInt64}

/-- What verifying results in where the octets are a block. -/
theorem result_verify_of_ok {b : Block} (h : Block.ofOctets octets = .ok b) :
    (verify octets now height).result =
      match Verifier.verify { now } b height 0 with
      | .accepted => .ok true
      | .refused _ => .ok false
      | .overflow cause => .error (.overflow cause) := by
  unfold verify parseBlock
  rw [h]
  simp only [Except.mapError, Outcome.bindResult]
  cases Verifier.verify { now } b height 0 <;> rfl

/-- What verifying can result in. -/
theorem result_verify_cases (octets : Octets) (now : Int64) (height : Option UInt64) :
    (∃ e, Block.ofOctets octets = .error e ∧ (verify octets now height).result = .error (.wire e)) ∨
    ∃ b, Block.ofOctets octets = .ok b ∧
      ((¬ ({ now } : Verifier).HasLimit ∧
          (verify octets now height).result = .error (.overflow .addition)) ∨
        (({ now } : Verifier).HasLimit ∧ ∃ passes, (verify octets now height).result = .ok passes ∧
          (passes = true ↔ ({ now } : Verifier).verify b height 0 = .accepted))) := by
  cases hparse : Block.ofOctets octets with
  | error e =>
    refine .inl ⟨e, rfl, ?_⟩
    unfold verify parseBlock
    rw [hparse]
    rfl
  | ok b =>
    refine .inr ⟨b, rfl, ?_⟩
    have hdecides := Verifier.decides_verify { now } b height 0
    have hresult := @result_verify_of_ok octets now height b hparse
    cases hverdict : Verifier.verify { now } b height 0 with
    | accepted =>
      rw [hverdict] at hresult
      exact .inr ⟨(hdecides.accepted.1 hverdict).1, true, hresult, iff_of_true rfl rfl⟩
    | refused cause =>
      rw [hverdict] at hresult hdecides
      have hhas : ({ now } : Verifier).HasLimit := by
        by_contra hnone
        cases (hdecides.overflow .addition).2 hnone
      exact .inr ⟨hhas, false, hresult, by simp⟩
    | overflow cause =>
      rw [hverdict] at hresult
      cases cause
      exact .inl ⟨(hdecides.overflow .addition).1 hverdict, hresult⟩

/-- **Verification is exact, and fails for want of a limit only.** Every check gives the verdict that the
exact sum of clock and drift calls for. The command refuses octets that are no block; of a block it tells
whether its time is within two days of the clock and its list has its root, whatever the height, unless
the clock itself is within two days of the last one. -/
theorem verify_decides (v : Verifier) (block : Block) (octets : Octets) (now : Int64)
    (height : Option UInt64) (flags : UInt32) :
    v.Decides block (v.verify block height flags) ∧
    (∀ e, (verify octets now height).result = .error e ↔
      (∃ cause, Block.ofOctets octets = .error cause ∧ e = .wire cause) ∨
      (∃ b, Block.ofOctets octets = .ok b) ∧ Int64.maxValue.toInt < now.toInt + 172800 ∧
        e = .overflow .addition) ∧
    ∀ passes, (verify octets now height).result = .ok passes ↔
      ∃ b, Block.ofOctets octets = .ok b ∧ now.toInt + 172800 ≤ Int64.maxValue.toInt ∧
        (passes = true ↔ b.time.toNat ≤ now.toInt + 172800 ∧
          (b.transactions = none ∨ b.calculateMerkleRoot = b.merkleRoot)) := by
  refine ⟨v.decides_verify block height flags, ?_⟩
  rcases result_verify_cases octets now height with ⟨cause, hparse, hresult⟩ |
    ⟨b, hparse, ⟨hnone, hresult⟩ | ⟨hhas, passes, hresult, hpasses⟩⟩
  · rw [hresult, hparse]
    constructor
    · intro e
      simp [eq_comm]
    · intro passes
      simp
  · have hlate := mt Verifier.hasLimit_of_now_iff.2 hnone
    rw [hresult, hparse]
    constructor
    · intro e
      simp [Int.not_le.1 hlate, eq_comm]
    · intro passes
      simp [hlate]
  · have hlimit := Verifier.hasLimit_of_now_iff.1 hhas
    rw [(Verifier.decides_verify { now } b height 0).accepted, Verifier.limit_of_now, and_iff_right hhas]
      at hpasses
    rw [hresult, hparse]
    constructor
    · intro e
      simp [Int.not_lt.2 hlimit]
    · intro passes'
      simp only [Except.ok.injEq, exists_eq_left', hlimit, true_and]
      rw [← hpasses, eq_comm, Bool.eq_iff_iff]

/-- **A verdict that the exact sum would give and that is not given**: of a bare header at the last
clock the time is in order and there is no list. -/
theorem verify_overflows_at_last_clock :
    let b := Block.withVersion 1 0
    let v : Verifier := { now := Int64.maxValue }
    b.Reachable ∧ b.time.toNat ≤ v.limit ∧ b.transactions = none ∧
      v.verify b none 0 = .overflow .addition ∧
      (verify b.encode v.now none).result = .error (.overflow .addition) := by
  intro b v
  have hreachable : b.Reachable := .constructed (.withVersion 1 0)
  have hnone : ¬ v.HasLimit := by decide
  have hverdict : v.verify b none 0 = .overflow .addition :=
    ((Verifier.decides_verify v b none 0).overflow _).2 hnone
  have hsig : b.Storable := by
    rintro signature hsome
    cases hsome
  have hparse : Block.ofOctets b.encode = .ok (.ofSections b.written b.encode true) :=
    hreachable.coherent.parse_encode_self hsig (by decide) true
  refine ⟨hreachable, by decide, rfl, hverdict, ?_⟩
  rw [result_verify_of_ok hparse, ((Verifier.decides_verify _ _ none 0).overflow .addition).2 hnone]

end Command

end AnchoredLedger
