import AnchoredLedger.Proofs.Block.Verdicts

/-! # The check of the time

The limit for the time of a block is a checked sum of machine words, and the comparison with it is one of
machine words as well. Both are exact.

* **`Overflow.addInt64_eq_ok_iff`**, **`addInt64_eq_error_iff`** — a checked sum is the exact sum, and is
  refused where there is no word for it.
* **`Verifier.limit`**, **`Verifier.HasLimit`** — the exact sum of clock and drift, and whether there is a
  word for it.
* **`Verifier.verifyHeader_cases`** — what the check of the time comes to; `verifyHeader_eq_accepted_iff` says
  which times are accepted. -/

namespace AnchoredLedger

namespace Overflow

variable {a b c : Int64}

/-- A sum within the range of the word does not wrap around. -/
theorem toInt_add_of_mem (hlow : Int64.minValue.toInt ≤ a.toInt + b.toInt)
    (hhigh : a.toInt + b.toInt ≤ Int64.maxValue.toInt) : (a + b).toInt = a.toInt + b.toInt := by
  rw [Int64.toInt_minValue] at hlow
  rw [Int64.toInt_maxValue] at hhigh
  rw [Int64.toInt_add]
  exact Int.bmod_eq_of_le (by omega) (by omega)

/-- **A checked sum is refused where there is no word for it.** -/
theorem addInt64_eq_error_iff {e : Overflow} : addInt64 a b = .error e ↔
    ¬ (Int64.minValue.toInt ≤ a.toInt + b.toInt ∧ a.toInt + b.toInt ≤ Int64.maxValue.toInt) := by
  cases e
  unfold addInt64
  split <;> simp_all

/-- **A checked sum is the word that stands for the exact sum.** -/
theorem addInt64_eq_ok_iff : addInt64 a b = .ok c ↔ c.toInt = a.toInt + b.toInt := by
  by_cases hrange :
      Int64.minValue.toInt ≤ a.toInt + b.toInt ∧ a.toInt + b.toInt ≤ Int64.maxValue.toInt
  · unfold addInt64
    rw [if_pos hrange, ← toInt_add_of_mem hrange.1 hrange.2, Int64.toInt_inj]
    constructor
    · intro h
      exact (Except.ok.inj h).symm
    · rintro rfl
      rfl
  · have hrefused : addInt64 a b = .error .addition := addInt64_eq_error_iff.2 hrange
    rw [hrefused]
    constructor
    · intro h
      cases h
    · -- a word for the sum would be within the range
      intro h
      rw [← h] at hrange
      exact (hrange ⟨c.minValue_le_toInt, c.toInt_le⟩).elim

end Overflow

/-- The time of a block as a signed word. -/
theorem toInt_ofNat_time (b : Block) : (Int64.ofNat b.time.toNat).toInt = b.time.toNat := by
  have htime := b.time.toNat_lt
  exact Int64.toInt_ofNat_of_lt (by omega)

namespace Verifier

variable {v : Verifier}

/-! ## The limit -/

/-- **The limit for a time**: the exact sum of clock and drift. -/
def limit (v : Verifier) : Int := v.now.toInt + v.drift.toInt

/-- **There is a word for the limit.** -/
def HasLimit (v : Verifier) : Prop :=
  Int64.minValue.toInt ≤ v.limit ∧ v.limit ≤ Int64.maxValue.toInt

instance (v : Verifier) : Decidable v.HasLimit :=
  inferInstanceAs (Decidable (_ ∧ _))

/-- The word is the sum of the words. -/
theorem hasLimit_iff : v.HasLimit ↔ ∃ limit, Overflow.addInt64 v.now v.drift = .ok limit := by
  constructor
  · intro h
    cases hsum : Overflow.addInt64 v.now v.drift with
    | ok limit => exact ⟨limit, rfl⟩
    | error e => exact absurd h (Overflow.addInt64_eq_error_iff.1 hsum)
  · rintro ⟨limit, hsum⟩
    have hlimit : limit.toInt = v.limit := Overflow.addInt64_eq_ok_iff.1 hsum
    rw [HasLimit, ← hlimit]
    exact ⟨limit.minValue_le_toInt, limit.toInt_le⟩

/-- Unless another drift is given, the limit is two days ahead of the clock. -/
theorem limit_of_now (now : Int64) : ({ now } : Verifier).limit = now.toInt + 172800 :=
  congrArg (now.toInt + ·) (show Int64.toInt 172800 = 172800 by decide)

/-- Then there is a limit unless the clock is within two days of the last one. -/
theorem hasLimit_of_now_iff {now : Int64} :
    ({ now } : Verifier).HasLimit ↔ now.toInt + 172800 ≤ Int64.maxValue.toInt := by
  have hlow := now.minValue_le_toInt
  unfold HasLimit
  rw [limit_of_now]
  omega

/-! ## The check -/

/-- **What the check of the time comes to.** -/
theorem verifyHeader_cases (v : Verifier) (b : Block) :
    (¬ v.HasLimit ∧ v.verifyHeader b = .overflow .addition) ∨
    (v.HasLimit ∧ v.limit < b.time.toNat ∧ ∃ time limit : Int64, time.toInt = b.time.toNat ∧
      limit.toInt = v.limit ∧ v.verifyHeader b = .refused (.timestampTooFarInFuture time limit)) ∨
    (v.HasLimit ∧ b.time.toNat ≤ v.limit ∧ v.verifyHeader b = .accepted) := by
  unfold verifyHeader
  by_cases hhas : v.HasLimit
  · obtain ⟨limit, hsum⟩ := hasLimit_iff.1 hhas
    have hlimit : limit.toInt = v.limit := Overflow.addInt64_eq_ok_iff.1 hsum
    have horder : limit < Int64.ofNat b.time.toNat ↔ v.limit < b.time.toNat := by
      rw [Int64.lt_iff_toInt_lt, toInt_ofNat_time, hlimit]
    rw [hsum]
    by_cases hlate : v.limit < b.time.toNat
    · exact .inr (.inl ⟨hhas, hlate, .ofNat b.time.toNat, limit, toInt_ofNat_time b, hlimit,
        if_pos (horder.2 hlate)⟩)
    · exact .inr (.inr ⟨hhas, Int.not_lt.1 hlate, if_neg (mt horder.1 hlate)⟩)
  · have hsum : Overflow.addInt64 v.now v.drift = .error .addition :=
      Overflow.addInt64_eq_error_iff.2 hhas
    rw [hsum]
    exact .inl ⟨hhas, rfl⟩

/-- **A time is accepted up to the limit**, if there is one. -/
theorem verifyHeader_eq_accepted_iff (v : Verifier) (b : Block) :
    v.verifyHeader b = .accepted ↔ v.HasLimit ∧ b.time.toNat ≤ v.limit := by
  rcases v.verifyHeader_cases b with ⟨hhas, hheader⟩ | ⟨hhas, hlate, _, _, -, -, hheader⟩ |
    ⟨hhas, htime, hheader⟩
  · rw [hheader]
    exact iff_of_false (fun h => by cases h) fun h => hhas h.1
  · rw [hheader]
    exact iff_of_false (fun h => by cases h) fun h => Int.not_le.2 hlate h.2
  · rw [hheader]
    exact iff_of_true rfl ⟨hhas, htime⟩

end Verifier

end AnchoredLedger
