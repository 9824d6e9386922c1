import AnchoredLedger.Proofs.Base58
import AnchoredLedger.Proofs.Secret

/-! # What addresses tell

The text with a check is read back as version octet, payload and check, and the check always has four octets.
So a text tells what it was made of, and the version octet tells its kind. As a number, the version octet
stands in front of all others; where it is not zero, it bounds the number on both sides, and so decides how
many digits there are and what the first of them can be.

* **`Address.checked_inj`** — what a text was made of.
* **`Address.checked_loses_nothing`** — the texts of keys, scripts and secrets are told apart.
* **`Address.shape_of_checked`** — the length of a text and its first character, from the version octet.
* **`Address.shapes_on_main`** — what these are on the main network. -/

namespace AnchoredLedger.Address

variable {version version' : UInt8} {payload payload' : Octets}

/-! ## What a text was made of -/

/-- **A text tells version octet and payload.** -/
theorem checked_inj :
    checked version payload = checked version' payload' ↔ version = version' ∧ payload = payload' := by
  constructor
  · intro h
    have hoctets : checkedOctets version payload = checkedOctets version' payload' :=
      Base58.encode_inj.1 h
    -- both checks have four octets, so the bodies end at the same place
    have hcheck : ∀ body : Octets, ((Digest.doubleSha256 body).take 4).length = 4 := by simp
    have hbody := (List.append_inj' hoctets ((hcheck _).trans (hcheck _).symm)).1
    exact List.cons.inj hbody
  · rintro ⟨rfl, rfl⟩
    rfl

/-- Texts with different version octets are different. -/
theorem checked_ne_of_version (h : version ≠ version') :
    checked version payload ≠ checked version' payload' :=
  fun heq => h (checked_inj.1 heq).1

/-- **The exported secret tells the secret.** -/
theorem exportedSecret_inj {k k' : KeyPair} {network : Network} :
    k.exportedSecret network = k'.exportedSecret network ↔ k.secret = k'.secret := by
  unfold KeyPair.exportedSecret
  rw [checked_inj, List.append_left_inj, Secret.toOctets_inj, and_iff_right rfl]

/-- **Texts with a check lose nothing.** An octet string is written as its zeros, a `1` each, and the digits
of its number. The text of a payload, and no other, is read as version octet, payload and check, so it tells
version octet and payload. Where the version octets of keys, scripts and secrets are different, no text of
one kind is one of another, whatever the keys, scripts and secrets are; and exported secrets tell the
secrets. -/
theorem checked_loses_nothing :
    (∀ bs, (Base58.encode bs).toList = Base58.text (Base58.leadingZeros bs) (Octets.toNatBE bs)) ∧
    (∀ (version : UInt8) (payload : Octets) (s : String),
      Base58.decode? s =
          some (version :: payload ++ (Digest.doubleSha256 (version :: payload)).take 4) ↔
        s = checked version payload) ∧
    (∀ (version version' : UInt8) (payload payload' : Octets),
      checked version payload = checked version' payload' ↔ version = version' ∧ payload = payload') ∧
    (∀ network : Network,
      [network.addressHeader, network.scriptHeader, network.secretHeader].Nodup →
        ∀ (key script : Octets) (k : KeyPair),
          ofKey network key ≠ ofScript network script ∧
          ofKey network key ≠ k.exportedSecret network ∧
          ofScript network script ≠ k.exportedSecret network) ∧
    ∀ (network : Network) (k k' : KeyPair),
      k.exportedSecret network = k'.exportedSecret network ↔ k.secret = k'.secret := by
  refine ⟨Base58.toList_encode, fun _ _ _ => Base58.decode?_eq_some_iff, fun _ _ _ _ => checked_inj, ?_,
    fun _ _ _ => exportedSecret_inj⟩
  intro network hnodup key script k
  simp only [List.nodup_cons, List.mem_cons, List.not_mem_nil, or_false, not_or] at hnodup
  obtain ⟨⟨hscript, hsecret⟩, hother, -⟩ := hnodup
  exact ⟨checked_ne_of_version hscript, checked_ne_of_version hsecret, checked_ne_of_version hother⟩

/-- A network whose addresses start with a zero octet, and payloads that do so as well. -/
theorem checked_loses_nothing_zero_header :
    let network : Network := { Network.main with addressHeader := 0 }
    let one : KeyPair := .ofSecret ⟨1, by decide, by decide⟩
    let two : KeyPair := .ofSecret ⟨2, by decide, by decide⟩
    [network.addressHeader, network.scriptHeader, network.secretHeader].Nodup ∧
      ofKey network [] ≠ ofScript network [] ∧ ofKey network [] ≠ one.exportedSecret network ∧
      ofScript network [] ≠ one.exportedSecret network ∧ checked 0 [0, 7] ≠ checked 0 [7] ∧
      one.exportedSecret network ≠ two.exportedSecret network := by
  intro network one two
  have hnodup : [network.addressHeader, network.scriptHeader, network.secretHeader].Nodup := by decide
  obtain ⟨-, -, hinj, hkinds, hsecrets⟩ := checked_loses_nothing
  obtain ⟨hscript, hsecret, hother⟩ := hkinds network hnodup [] [] one
  refine ⟨hnodup, hscript, hsecret, hother, fun heq => ?_, fun heq => ?_⟩
  · exact absurd ((hinj 0 0 [0, 7] [7]).1 heq).2 (by decide)
  · exact absurd ((hsecrets network one two).1 heq) (by decide)

/-! ## The shape of a text -/

/-- The number of a payload with its check. -/
theorem toNatBE_checkedOctets (version : UInt8) (payload : Octets) :
    ∃ rest < 256 ^ (payload.length + 4), Octets.toNatBE (checkedOctets version payload) =
      version.toNat * 256 ^ (payload.length + 4) + rest := by
  let others := payload ++ (Digest.doubleSha256 (version :: payload)).take 4
  have hlen : others.length = payload.length + 4 := by simp [others]
  refine ⟨Octets.toNatBE others, hlen ▸ Octets.toNatBE_lt others, ?_⟩
  rw [← hlen, ← Octets.toNatBE_cons]
  rfl

/-- **The length of a text and its first character**, the latter up to the bounds that the version octet
gives. -/
theorem shape_of_checked (version : UInt8) (k low high : Nat) {m : Nat} (hlen : payload.length = m)
    (hpos : 0 < low) (hhigh : high < 58)
    (hfrom : low * 58 ^ k ≤ version.toNat * 256 ^ (m + 4))
    (hto : (version.toNat + 1) * 256 ^ (m + 4) ≤ (high + 1) * 58 ^ k) :
    (checked version payload).length = k + 1 ∧
      ∃ d, low ≤ d ∧ d ≤ high ∧ (checked version payload).toList.head? = some (Base58.digit d) := by
  subst hlen
  obtain ⟨rest, hrest, hnumber⟩ := toNatBE_checkedOctets version payload
  generalize hn : Octets.toNatBE (checkedOctets version payload) = n at hnumber
  have hpower : 0 < 58 ^ k := Nat.pow_pos (by decide)
  have hnlow : low * 58 ^ k ≤ n := by omega
  have hnhigh : n < (high + 1) * 58 ^ k := by
    refine Nat.lt_of_lt_of_le ?_ hto
    rw [Nat.succ_mul]
    omega
  -- a version octet of zero would leave no room for the lower bound
  have hversion : version ≠ 0 := by
    rintro rfl
    have hbelow := Nat.mul_pos hpos hpower
    simp only [UInt8.toNat_zero, Nat.zero_mul] at hfrom
    omega
  have hzeros : Base58.leadingZeros (checkedOctets version payload) = 0 := by
    simp [Base58.leadingZeros, checkedOctets, hversion]
  have hfirst : 58 ^ k ≤ n := Nat.le_trans (Nat.le_mul_of_pos_left _ hpos) hnlow
  have hlast : n < 58 ^ (k + 1) := by
    refine Nat.lt_of_lt_of_le hnhigh ?_
    rw [Nat.pow_succ']
    exact Nat.mul_le_mul_right _ hhigh
  obtain ⟨ds, hcount, hdigits⟩ := Numeral.exists_digits_eq (by decide) hfirst hlast
  have htext : (checked version payload).toList = Base58.digit (n / 58 ^ k) :: ds.map Base58.digit := by
    rw [checked, Base58.toList_encode, hzeros, hn, Base58.text, hdigits, List.map_cons]
  refine ⟨?_, n / 58 ^ k, (Nat.le_div_iff_mul_le hpower).2 hnlow,
    Nat.le_of_lt_succ ((Nat.div_lt_iff_lt_mul hpower).2 hnhigh), by rw [htext, List.head?_cons]⟩
  rw [← String.length_toList, htext, List.length_cons, List.length_map, hcount]

/-- **The shapes of texts on the main network.** The address of a key has 34 characters, the first of them
`H`; that of a script has 34 and starts with `Z`; an exported secret has 52 and starts with `K` or `L`. -/
theorem shapes_on_main :
    (∀ key : Octets, (ofKey .main key).length = 34 ∧ (ofKey .main key).toList.head? = some 'H') ∧
    (∀ script : Octets, (ofScript .main script).length = 34 ∧
      (ofScript .main script).toList.head? = some 'Z') ∧
    ∀ k : KeyPair, (k.exportedSecret .main).length = 52 ∧
      ((k.exportedSecret .main).toList.head? = some 'K' ∨
        (k.exportedSecret .main).toList.head? = some 'L') := by
  refine ⟨fun key => ?_, fun script => ?_, fun k => ?_⟩
  · obtain ⟨hlen, d, hlow, hhigh, hfirst⟩ := shape_of_checked 40 33 16 16 (Digest.length_hash160 key)
      (by decide) (by decide) (by decide) (by decide)
    obtain rfl : d = 16 := Nat.le_antisymm hhigh hlow
    exact ⟨hlen, hfirst⟩
  · obtain ⟨hlen, d, hlow, hhigh, hfirst⟩ := shape_of_checked 80 33 32 32
      (Digest.length_hash160 script) (by decide) (by decide) (by decide) (by decide)
    obtain rfl : d = 32 := Nat.le_antisymm hhigh hlow
    exact ⟨hlen, hfirst⟩
  · have hpayload : (k.secret.toOctets ++ [0x01]).length = 33 := by simp
    obtain ⟨hlen, d, hlow, hhigh, hfirst⟩ := shape_of_checked 128 51 18 19 hpayload
      (by decide) (by decide) (by decide) (by decide)
    refine ⟨hlen, ?_⟩
    obtain rfl | rfl : d = 18 ∨ d = 19 := by omega
    · exact .inl hfirst
    · exact .inr hfirst

end AnchoredLedger.Address
