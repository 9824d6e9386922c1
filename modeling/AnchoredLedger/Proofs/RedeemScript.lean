import AnchoredLedger.KeyPair

/-! # What a redeem script commits to

The keys of a script stand in the order of their octets, each behind its length. So the order in which they
are given makes no difference, and it is the only thing that makes none: whatever octets the keys are made
of, lengths and operations among them, the script tells how many signatures are needed and from which keys.

* **`RedeemScript.sortKeys_eq_iff`** — ordered keys are a normal form of keys in any order.
* **`RedeemScript.flatMap_pushKey_inj`** — keys behind their lengths are told apart.
* **`RedeemScript.Fits`** — numbers and lengths that do not leave their octets.
* **`RedeemScript.assemble_eq_iff`**, **`RedeemScript.multisig_commits`** — equal scripts. -/

namespace AnchoredLedger

namespace RedeemScript

variable {threshold threshold' : Nat} {keys keys' : List Octets} {needed needed' total total' : UInt8}

/-! ## The order of the keys -/

theorem perm_sortKeys (keys : List Octets) : (sortKeys keys).Perm keys := List.mergeSort_perm keys _

theorem pairwise_sortKeys (keys : List Octets) : (sortKeys keys).Pairwise fun a b => a ≤ b := by
  have hsorted : (sortKeys keys).Pairwise fun a b => decide (a ≤ b) = true := by
    refine List.pairwise_mergeSort (fun a b c hab hbc => ?_) (fun a b => ?_) keys
    · exact decide_eq_true (List.le_trans (of_decide_eq_true hab) (of_decide_eq_true hbc))
    · simpa using List.le_total a b
  exact hsorted.imp fun hab => of_decide_eq_true hab

/-- **Ordered keys are a normal form**: they are the same for the same keys in any order, each as often. -/
theorem sortKeys_eq_iff : sortKeys keys = sortKeys keys' ↔ keys.Perm keys' := by
  constructor
  · intro heq
    have hperm := (perm_sortKeys keys).symm
    rw [heq] at hperm
    exact hperm.trans (perm_sortKeys keys')
  · -- two ordered lists of the same keys can only be the same
    intro hperm
    exact List.Perm.eq_of_pairwise (fun _ _ _ _ => List.le_antisymm) (pairwise_sortKeys keys)
      (pairwise_sortKeys keys')
      ((perm_sortKeys keys).trans (hperm.trans (perm_sortKeys keys').symm))

/-! ## Keys one after another -/

/-- A key ends where its length says. -/
theorem pushKey_append_inj {key key' rest rest' : Octets} (hkey : key.length ≤ 255)
    (hkey' : key'.length ≤ 255) (heq : pushKey key ++ rest = pushKey key' ++ rest') :
    key = key' ∧ rest = rest' := by
  obtain ⟨hfront, hbehind⟩ := List.cons.inj heq
  have hlength : key.length = key'.length := by
    have hmod := congrArg UInt8.toNat hfront
    rw [UInt8.toNat_ofNat', UInt8.toNat_ofNat'] at hmod
    omega
  exact List.append_inj hbehind hlength

/-- **Keys behind their lengths are told apart.** -/
theorem flatMap_pushKey_inj (hkeys : ∀ key ∈ keys, key.length ≤ 255)
    (hkeys' : ∀ key ∈ keys', key.length ≤ 255) (heq : keys.flatMap pushKey = keys'.flatMap pushKey) :
    keys = keys' := by
  induction keys generalizing keys' with
  | nil =>
    cases keys' with
    | nil => rfl
    | cons key' others' => cases heq
  | cons key others ih =>
    cases keys' with
    | nil => cases heq
    | cons key' others' =>
      obtain ⟨hkey, hothers⟩ := List.forall_mem_cons.1 hkeys
      obtain ⟨hkey', hothers'⟩ := List.forall_mem_cons.1 hkeys'
      rw [List.flatMap_cons, List.flatMap_cons] at heq
      obtain ⟨rfl, hrest⟩ := pushKey_append_inj hkey hkey' heq
      rw [ih hothers hothers' hrest]

/-- **Scripts are equal if their numbers are, and their keys up to their order.** -/
theorem assemble_eq_iff (hkeys : ∀ key ∈ keys, key.length ≤ 255)
    (hkeys' : ∀ key ∈ keys', key.length ≤ 255) :
    assemble needed total keys = assemble needed' total' keys' ↔
      needed = needed' ∧ total = total' ∧ keys.Perm keys' := by
  constructor
  · intro heq
    obtain ⟨hneeded, hbehind⟩ := List.cons.inj heq
    -- the last two octets are the count and the operation, whatever the keys are
    obtain ⟨hpushed, hend⟩ := List.append_inj' hbehind rfl
    refine ⟨hneeded, (List.cons.inj hend).1, sortKeys_eq_iff.1 (flatMap_pushKey_inj ?_ ?_ hpushed)⟩
    · exact fun key hkey => hkeys key ((perm_sortKeys keys).mem_iff.1 hkey)
    · exact fun key hkey => hkeys' key ((perm_sortKeys keys').mem_iff.1 hkey)
  · rintro ⟨rfl, rfl, hperm⟩
    rw [assemble, sortKeys_eq_iff.2 hperm, assemble]

/-! ## The numbers -/

/-- **Numbers and lengths that do not leave their octets**: the operations for the numbers are the octets
from 80 on. -/
structure Fits (threshold : Nat) (keys : List Octets) : Prop where
  /-- There is an operation for the number of signatures. -/
  threshold_le : threshold ≤ 175
  /-- There is an operation for the number of keys. -/
  length_le : keys.length ≤ 175
  /-- There is an octet for the length of every key. -/
  keys_le : ∀ key ∈ keys, key.length ≤ 255

theorem smallNumber_eq_ok {n : Nat} (h : n ≤ 175) : smallNumber n = .ok (UInt8.ofNat (80 + n)) := by
  have hlow : (UInt8.ofNat n).toNat = n :=
    UInt8.toNat_ofNat_of_lt' (Nat.lt_of_le_of_lt h (by decide))
  have hroom : (0x50 : UInt8).toNat + (UInt8.ofNat n).toNat < UInt8.size := by
    rw [hlow]
    exact Nat.add_lt_of_lt_sub' (Nat.lt_of_le_of_lt h (by decide))
  unfold smallNumber Overflow.add8
  rw [if_pos hroom, UInt8.ofNat_add]
  rfl

/-- The operations of different numbers are different. -/
theorem ofNat_add_inj {m n : Nat} (hm : m ≤ 175) (hn : n ≤ 175) :
    UInt8.ofNat (80 + m) = UInt8.ofNat (80 + n) ↔ m = n := by
  rw [← UInt8.toNat_inj, UInt8.toNat_ofNat', UInt8.toNat_ofNat']
  omega

/-- **There is a script** where numbers and lengths fit. -/
theorem Fits.multisig_eq_ok (h : Fits threshold keys) :
    multisig threshold keys =
      .ok (assemble (UInt8.ofNat (80 + threshold)) (UInt8.ofNat (80 + keys.length)) keys) := by
  unfold multisig
  rw [smallNumber_eq_ok h.threshold_le, smallNumber_eq_ok h.length_le]

/-- **The order of the keys makes no difference**, also where there is no script. -/
theorem multisig_congr (hperm : keys.Perm keys') : multisig threshold keys = multisig threshold keys' := by
  unfold multisig assemble
  rw [hperm.length_eq, sortKeys_eq_iff.2 hperm]

/-- **Scripts tell thresholds and keys apart** where these fit. -/
theorem Fits.multisig_eq_iff (h : Fits threshold keys) (h' : Fits threshold' keys') :
    multisig threshold keys = multisig threshold' keys' ↔ threshold = threshold' ∧ keys.Perm keys' := by
  constructor
  · intro heq
    rw [h.multisig_eq_ok, h'.multisig_eq_ok, Except.ok.injEq, assemble_eq_iff h.keys_le h'.keys_le,
      ofNat_add_inj h.threshold_le h'.threshold_le] at heq
    exact ⟨heq.1, heq.2.2⟩
  · rintro ⟨rfl, hperm⟩
    exact multisig_congr hperm

/-! ## What two parties share -/

/-- The deposit script does not tell which of its keys is the own one. -/
theorem depositScript_comm (k k' : KeyPair) :
    k.depositScript k'.publicKey.toPlanKey = k'.depositScript k.publicKey.toPlanKey := by
  have hswap : multisig 1 [k.publicOctets, k'.publicOctets] =
      multisig 1 [k'.publicOctets, k.publicOctets] := multisig_congr (.swap _ _ [])
  have hscript := k.multisig_eq_depositScript k'.publicKey.toPlanKey
  have hscript' := k'.multisig_eq_depositScript k.publicKey.toPlanKey
  exact Except.ok.inj (hscript.symm.trans (hswap.trans hscript'))

/-- **A redeem script commits to its threshold and to its keys, but not to their order.** Keys in another
order give the same script, or the same overflow. Where numbers and lengths fit there is a script, and
equal scripts have the same threshold and the same keys up to their order. So two parties, each with the
key of the other as its plan key, receive deposits at one address, that of their common script. -/
theorem multisig_commits :
    (∀ (threshold : Nat) (keys keys' : List Octets), keys.Perm keys' →
      multisig threshold keys = multisig threshold keys') ∧
    (∀ (threshold threshold' : Nat) (keys keys' : List Octets), Fits threshold keys →
      Fits threshold' keys' → (∃ script, multisig threshold keys = .ok script) ∧
        (multisig threshold keys = multisig threshold' keys' ↔
          threshold = threshold' ∧ keys'.Perm keys)) ∧
    ∀ (k k' : KeyPair) (network : Network), ∃ script,
      multisig 1 [k.publicOctets, k'.publicOctets] = .ok script ∧
      KeyPair.depositAddress { k with planKey := some k'.publicKey.toPlanKey } network
        = .ok (Address.ofScript network script) ∧
      KeyPair.depositAddress { k' with planKey := some k.publicKey.toPlanKey } network
        = .ok (Address.ofScript network script) := by
  refine ⟨fun _ _ _ => multisig_congr, fun _ _ _ _ h h' => ⟨⟨_, h.multisig_eq_ok⟩, ?_⟩,
    fun k k' network => ?_⟩
  · rw [h.multisig_eq_iff h', List.perm_comm]
  · refine ⟨_, k.multisig_eq_depositScript k'.publicKey.toPlanKey, rfl, ?_⟩
    rw [depositScript_comm k k']
    rfl

/-- Three keys, two of them the same: in another order they have the same script, but not cut up in another
way, although in order their octets are the same. -/
theorem multisig_commits_keys_cut_otherwise :
    let keys : List Octets := [[0x52], [0x01, 0xae], [0x52]]
    let cut : List Octets := [[0x01, 0xae, 0x52], [0x52], []]
    Fits 2 keys ∧ Fits 2 cut ∧ multisig 2 keys = multisig 2 [[0x01, 0xae], [0x52], [0x52]] ∧
      (∃ script, multisig 2 keys = .ok script) ∧ multisig 2 keys ≠ multisig 2 cut := by
  intro keys cut
  have hkeys : Fits 2 keys := ⟨by decide, by decide, by decide⟩
  have hcut : Fits 2 cut := ⟨by decide, by decide, by decide⟩
  obtain ⟨horder, htold, -⟩ := multisig_commits
  obtain ⟨hscript, hequal⟩ := htold 2 2 keys cut hkeys hcut
  refine ⟨hkeys, hcut, horder 2 keys _ (by decide), hscript, fun heq => ?_⟩
  have hperm : cut.Perm keys := (hequal.1 heq).2
  exact absurd hperm (by decide)

end RedeemScript

end AnchoredLedger
