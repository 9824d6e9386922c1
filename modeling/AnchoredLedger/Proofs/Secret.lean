import AnchoredLedger.Identity
import AnchoredLedger.Proofs.Octets

/-! # Secrets and their octets

A secret is a number, and its octets are as many as any secret needs. So they tell the number, and reading
them back only has to check that there are so many and that the number is one of a secret.

* **`Secret.ofOctets?_eq_some_iff`** — octets are read as a secret exactly if they are its own.
* **`Secret.toOctets_inj`** — secrets are told by their octets. -/

namespace AnchoredLedger

namespace Secret

/-- A secret fits into its octets. -/
theorem value_lt (s : Secret) : s.value < 256 ^ 32 := Nat.lt_trans s.lt (by decide)

theorem ofNat?_value (s : Secret) : ofNat? s.value = some s := dif_pos ⟨s.pos, s.lt⟩

/-- **Octets are read as the secret whose octets they are.** -/
theorem ofOctets?_eq_some_iff {bs : Octets} {s : Secret} :
    ofOctets? bs = some s ↔ bs = s.toOctets := by
  unfold ofOctets?
  constructor
  · intro h
    by_cases hlen : bs.length = 32
    · rw [if_pos hlen] at h
      have hvalue : Octets.toNatBE bs = s.value := by
        unfold ofNat? at h
        by_cases hrange : 0 < Octets.toNatBE bs ∧ Octets.toNatBE bs < Curve.order
        · rw [dif_pos hrange, Option.some.injEq] at h
          rw [← h]
        · rw [dif_neg hrange] at h
          cases h
      rw [toOctets, ← hvalue, ← hlen, Octets.ofNatBE_toNatBE]
    · rw [if_neg hlen] at h
      cases h
  · rintro rfl
    rw [if_pos s.length_toOctets, toOctets, Octets.toNatBE_ofNatBE_of_lt s.value_lt, ofNat?_value]

/-- Secrets with the same octets are equal. -/
theorem toOctets_inj {s t : Secret} : s.toOctets = t.toOctets ↔ s = t := by
  have hread : Function.IsPartialInv toOctets ofOctets? := fun _ _ =>
    ofOctets?_eq_some_iff.trans eq_comm
  exact hread.injective.eq_iff

end Secret

end AnchoredLedger
