import AnchoredLedger.Header

/-! # Collisions of the double digest

Equal hashes do not make equal octets. But octets that differ under one hash are two inputs of the
double digest with one output, and can be shown.

* **`Digest.Collision`** — two octet strings with one double digest.
* **`Hash.eq_or_collision`** — what equal hashes say about what was hashed. -/

namespace AnchoredLedger

/-- **Two octet strings with one double digest.** -/
structure Digest.Collision (x y : Octets) : Prop where
  /-- The octet strings differ. -/
  ne : x ≠ y
  /-- Their double digests are the same. -/
  digest : Digest.doubleSha256 x = Digest.doubleSha256 y

/-- Octets with one hash are the same, or a collision. -/
theorem Hash.eq_or_collision {x y : Octets} (h : Hash.ofTwice x = Hash.ofTwice y) :
    x = y ∨ Digest.Collision x y := by
  have hdigest : Digest.doubleSha256 x = Digest.doubleSha256 y :=
    List.reverse_inj.1 (congrArg FixedOctets.octets h)
  by_cases heq : x = y
  · exact .inl heq
  · exact .inr ⟨heq, hdigest⟩

end AnchoredLedger
