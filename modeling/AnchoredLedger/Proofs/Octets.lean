import AnchoredLedger.Octets
import Mathlib

/-! # Numbers and their octets

Numbers written in a fixed number of octets and read back, and octets read and written again.

* **`Octets.toNatLE_ofNatLE`** — the round trip of a number keeps `n % 256 ^ w`;
  `ofNatLE_toNatLE` says that octets are recovered exactly.
* **`Octets.toNatBE_eq`** — the most significant octet first is the same from behind, so that
  `toNatBE_ofNatBE_of_lt` and `ofNatBE_toNatBE` are these round trips; `toNatBE_append` puts numbers together.
* **`Octets.eq_word32_iff`**, **`Octets.eq_word64_iff`** — octets and the words they stand for. -/

namespace AnchoredLedger.Octets

/-! ## Least significant octet first -/

/-- Writing a number in `w` octets and reading it back keeps it modulo `256 ^ w`. -/
theorem toNatLE_ofNatLE (w n : Nat) : toNatLE (ofNatLE w n) = n % 256 ^ w := by
  induction w generalizing n with
  | zero => simp [Nat.mod_one]
  | succ w ih =>
    have h : n % 2 ^ 8 = n % 256 := rfl
    rw [ofNatLE_succ, toNatLE_cons, ih, UInt8.toNat_ofNat', h, Nat.pow_succ', Nat.mod_mul]

/-- A number that fits into `w` octets survives the round trip. -/
theorem toNatLE_ofNatLE_of_lt {w n : Nat} (h : n < 256 ^ w) : toNatLE (ofNatLE w n) = n := by
  rw [toNatLE_ofNatLE, Nat.mod_eq_of_lt h]

/-- The number read from `w` octets is below `256 ^ w`. -/
theorem toNatLE_lt (bs : Octets) : toNatLE bs < 256 ^ bs.length := by
  induction bs with
  | nil => simp
  | cons b bs ih =>
    have hb : b.toNat < 256 := b.toNat_lt
    rw [toNatLE_cons, List.length_cons, Nat.pow_succ]
    omega

/-- Reading octets and writing the number in as many octets gives the octets back. -/
theorem ofNatLE_toNatLE (bs : Octets) : ofNatLE bs.length (toNatLE bs) = bs := by
  induction bs with
  | nil => rfl
  | cons b bs ih =>
    have hb : b.toNat < 256 := b.toNat_lt
    rw [List.length_cons, ofNatLE_succ, toNatLE_cons,
      show (b.toNat + 256 * toNatLE bs) / 256 = toNatLE bs by omega, ih]
    congr 1
    apply UInt8.toNat_inj.1
    rw [UInt8.toNat_ofNat']
    omega

/-- Octets behind others count as many octets further up. -/
theorem toNatLE_append (as bs : Octets) :
    toNatLE (as ++ bs) = toNatLE as + 256 ^ as.length * toNatLE bs := by
  induction as with
  | nil => simp
  | cons a as ih =>
    rw [List.cons_append, toNatLE_cons, ih, toNatLE_cons, List.length_cons, Nat.pow_succ]
    ring

/-! ## Most significant octet first -/

/-- The number is that of the octets from behind, least significant first. -/
theorem toNatBE_eq (bs : Octets) : toNatBE bs = toNatLE bs.reverse := by
  induction bs using List.reverseRecOn with
  | nil => rfl
  | append_singleton bs b ih =>
    have hlast : toNatBE (bs ++ [b]) = 256 * toNatBE bs + b.toNat := List.foldl_concat _ _ b bs
    rw [hlast, ih, List.reverse_append, List.reverse_singleton, List.singleton_append, toNatLE_cons,
      Nat.add_comm]

/-- Octets in front of others count as many octets further up. -/
theorem toNatBE_append (as bs : Octets) :
    toNatBE (as ++ bs) = toNatBE as * 256 ^ bs.length + toNatBE bs := by
  rw [toNatBE_eq, List.reverse_append, toNatLE_append, List.length_reverse, toNatBE_eq, toNatBE_eq,
    Nat.add_comm, Nat.mul_comm]

@[simp] theorem toNatBE_singleton (b : UInt8) : toNatBE [b] = b.toNat := by simp [toNatBE]

theorem toNatBE_cons (b : UInt8) (bs : Octets) :
    toNatBE (b :: bs) = b.toNat * 256 ^ bs.length + toNatBE bs := by
  rw [← List.singleton_append, toNatBE_append, toNatBE_singleton]

/-- The number read from `w` octets is below `256 ^ w`. -/
theorem toNatBE_lt (bs : Octets) : toNatBE bs < 256 ^ bs.length := by
  rw [toNatBE_eq, ← List.length_reverse]
  exact toNatLE_lt bs.reverse

/-- A number that fits into `w` octets survives the round trip. -/
theorem toNatBE_ofNatBE_of_lt {w n : Nat} (h : n < 256 ^ w) : toNatBE (ofNatBE w n) = n := by
  rw [toNatBE_eq, ofNatBE, List.reverse_reverse, toNatLE_ofNatLE_of_lt h]

/-- Reading octets and writing the number in as many octets gives the octets back. -/
theorem ofNatBE_toNatBE (bs : Octets) : ofNatBE bs.length (toNatBE bs) = bs := by
  rw [ofNatBE, toNatBE_eq, ← List.length_reverse, ofNatLE_toNatLE, List.reverse_reverse]

/-! ## Words -/

@[simp] theorem toWord32_word32 (w : UInt32) : toWord32 (word32 w) = w := by
  rw [toWord32, word32, toNatLE_ofNatLE_of_lt w.toNat_lt, UInt32.ofNat_toNat]

@[simp] theorem toWord64_word64 (w : UInt64) : toWord64 (word64 w) = w := by
  rw [toWord64, word64, toNatLE_ofNatLE_of_lt w.toNat_lt, UInt64.ofNat_toNat]

/-- Four octets are the octets of the word they stand for. -/
theorem eq_word32_iff {bs : Octets} {w : UInt32} :
    bs = word32 w ↔ bs.length = 4 ∧ w = toWord32 bs := by
  constructor
  · rintro rfl
    simp
  · rintro ⟨hlen, rfl⟩
    have hlt : toNatLE bs < 2 ^ 32 := by simpa [hlen] using toNatLE_lt bs
    rw [word32, toWord32, UInt32.toNat_ofNat_of_lt' hlt, ← hlen, ofNatLE_toNatLE]

/-- Eight octets are the octets of the word they stand for. -/
theorem eq_word64_iff {bs : Octets} {w : UInt64} :
    bs = word64 w ↔ bs.length = 8 ∧ w = toWord64 bs := by
  constructor
  · rintro rfl
    simp
  · rintro ⟨hlen, rfl⟩
    have hlt : toNatLE bs < 2 ^ 64 := by simpa [hlen] using toNatLE_lt bs
    rw [word64, toWord64, UInt64.toNat_ofNat_of_lt' hlt, ← hlen, ofNatLE_toNatLE]

end AnchoredLedger.Octets
