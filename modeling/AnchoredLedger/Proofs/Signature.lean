import AnchoredLedger.KeyPair

/-! # The length of signatures

The numbers of a signature are written with a fixed number of octets, from which zeros in front may be
dropped. So the DER form is never long, whatever the numbers are.

* **`Signature.length_toDer_le`** — the DER form has at most 72 octets.
* **`KeyPair.sign_congr`** — signing does not look at the public key.
* **`KeyPair.sign_eq_ok_iff`**, **`KeyPair.length_le_of_sign`** — what signing gives, and its length. -/

namespace AnchoredLedger

namespace Signature

/-- Dropping zeros does not make anything longer. -/
theorem length_dropPadding_le (bs : Octets) : (dropPadding bs).length ≤ bs.length := by
  fun_induction dropPadding bs with
  | case1 b c rest _ ih => exact Nat.le_succ_of_le ih
  | case2 => exact Nat.le_refl _
  | case3 => exact Nat.le_refl _

/-- An integer has its octets, at most 33, behind a mark and their number. -/
theorem length_integer_le (n : Nat) : (integer n).length ≤ 35 := by
  have hlen := length_dropPadding_le (0 :: Octets.ofNatBE 32 n)
  rw [List.length_cons, Octets.length_ofNatBE] at hlen
  show (dropPadding (0 :: Octets.ofNatBE 32 n)).length + 2 ≤ 35
  omega

/-- **The DER form of a signature has at most 72 octets.** -/
theorem length_toDer_le (sig : Signature) : sig.toDer.length ≤ 72 := by
  have hr := length_integer_le sig.r
  have hs := length_integer_le sig.s
  show (integer sig.r ++ integer sig.s).length + 2 ≤ 72
  rw [List.length_append]
  omega

end Signature

namespace KeyPair

/-- Signing, as an equation of functions: applied to a message, checking it would work out a signature. -/
theorem sign_eq : sign = fun k message =>
    match Signature.sign k.secret message with
    | none => .error .exhausted
    | some sig => .ok sig.toDer := rfl

/-- **Signing looks at the secret of a pair only.** -/
theorem sign_congr {k k' : KeyPair} (h : k'.secret = k.secret) : k'.sign = k.sign := by
  rw [sign_eq]
  dsimp only
  rw [h]

/-- **What signing gives** is the DER form of the signature under the secret. -/
theorem sign_eq_ok_iff {k : KeyPair} {message signature : Octets} :
    k.sign message = .ok signature ↔
      ∃ sig, Signature.sign k.secret message = some sig ∧ signature = sig.toDer := by
  rw [sign_eq]
  dsimp only
  generalize Signature.sign k.secret message = result
  cases result with
  | none => simp
  | some sig => simp [eq_comm]

/-- **What signing gives has at most 72 octets.** -/
theorem length_le_of_sign {k : KeyPair} {message signature : Octets}
    (h : k.sign message = .ok signature) : signature.length ≤ 72 := by
  obtain ⟨sig, -, rfl⟩ := sign_eq_ok_iff.1 h
  exact sig.length_toDer_le

end KeyPair

end AnchoredLedger
