import AnchoredLedger.Proofs.Hex
import AnchoredLedger.Proofs.Secret

/-! # Which key an identity has

The chain of digests is followed until one of them is greater than one as a signed number. The octets show
whether it is, and every such number is a usable secret. There are only so many digests, and a chain that
has come back to one of them goes round from there on. So the number of steps that are followed is enough:
where nothing is found, there is nothing to be found.

* **`Octets.toIntBE`** — octets as a signed number; `one_lt_toIntBE_iff` says when it is greater than one.
* **`Identity.isAcceptable_iff`** — what the octets show.
* **`Identity.exists_lt_of_chain`** — how soon a chain comes to something that it comes to at all.
* **`Identity.firstAcceptable_eq_some_iff`**, **`Identity.firstAcceptable_cases`** — what is found.
* **`Identity.derive_cases`** — what deriving comes to; **`Identity.derive_decides`** says it of the texts. -/

namespace AnchoredLedger

/-! ## Signed numbers -/

namespace Octets

/-- **The signed number whose octets are given**, most significant first: where the highest bit is set, the
number is less than zero. -/
def toIntBE (bs : Octets) : Int :=
  if 2 * toNatBE bs < 256 ^ bs.length then toNatBE bs else toNatBE bs - (256 ^ bs.length : Nat)

theorem one_lt_toIntBE_iff {bs : Octets} :
    1 < toIntBE bs ↔ 1 < toNatBE bs ∧ 2 * toNatBE bs < 256 ^ bs.length := by
  have hlt := toNatBE_lt bs
  unfold toIntBE
  split <;> omega

/-- The sign is the highest bit of the first octet. -/
theorem headD_and_eq_zero_iff {bs : Octets} (hne : bs ≠ []) :
    (bs.headD 0 &&& 0x80 == 0) = true ↔ 2 * toNatBE bs < 256 ^ bs.length := by
  obtain ⟨b, rest, rfl⟩ := List.exists_cons_of_ne_nil hne
  have hsign : (b &&& 0x80 == 0) = true ↔ b.toNat < 128 :=
    Hex.forall_octet (P := fun b => (b &&& 0x80 == 0) = true ↔ b.toNat < 128) (by decide +kernel) b
  have hlt := toNatBE_lt rest
  rw [List.headD_cons, hsign, toNatBE_cons, List.length_cons, Nat.pow_succ]
  constructor
  · intro hb
    have hmul := Nat.mul_le_mul_right (256 ^ rest.length) (Nat.le_of_lt_succ hb)
    omega
  · -- the first octet alone is half of all there is
    intro hbound
    by_contra hb
    have hmul := Nat.mul_le_mul_right (256 ^ rest.length) (Nat.not_lt.1 hb)
    omega

/-- A number is zero if all its octets are. -/
theorem toNatBE_eq_zero_iff {bs : Octets} : toNatBE bs = 0 ↔ ∀ b ∈ bs, b = 0 := by
  induction bs with
  | nil => simp [toNatBE]
  | cons b bs ih =>
    have hpower : 256 ^ bs.length ≠ 0 := Nat.ne_of_gt (Nat.pow_pos (by decide))
    rw [toNatBE_cons, Nat.add_eq_zero_iff, Nat.mul_eq_zero, or_iff_left hpower, ih, List.forall_mem_cons,
      ← UInt8.toNat_inj]
    rfl

/-- A number is more than one if there is an octet in front of the last that is not zero, or the last is
more than one. -/
theorem one_lt_toNatBE_concat_iff {bs : Octets} {last : UInt8} :
    1 < toNatBE (bs ++ [last]) ↔ bs.any (· != 0) = true ∨ 1 < last := by
  have hfront : bs.any (· != 0) = true ↔ toNatBE bs ≠ 0 := by
    rw [ne_eq, toNatBE_eq_zero_iff]
    simp
  have hlast : (1 : UInt8) < last ↔ 1 < last.toNat := UInt8.lt_iff_toNat_lt
  rw [hfront, hlast, toNatBE_append, toNatBE_singleton, List.length_singleton, Nat.pow_one]
  have hlt := last.toNat_lt
  omega

end Octets

namespace Secret

/-- **A signed number greater than one is a usable secret.** -/
theorem exists_of_one_lt {bs : Octets} (hlen : bs.length = 32) (h : 1 < bs.toIntBE) :
    ∃ s : Secret, bs = s.toOctets ∧ 2 ≤ s.value ∧ s.value < 2 ^ 255 := by
  obtain ⟨hlow, hhigh⟩ := Octets.one_lt_toIntBE_iff.1 h
  rw [hlen] at hhigh
  have horder : 2 ^ 255 < Curve.order := by decide
  have hbound : Octets.toNatBE bs < 2 ^ 255 := by
    have hpower : 256 ^ 32 = 2 * 2 ^ 255 := by decide
    omega
  refine ⟨⟨Octets.toNatBE bs, by omega, by omega⟩, ?_, hlow, hbound⟩
  rw [toOctets, ← hlen, Octets.ofNatBE_toNatBE]

end Secret

namespace Identity

/-- **What the octets of a digest show**: whether it is greater than one as a signed number. -/
theorem isAcceptable_iff {digest : Octets} (hlen : digest.length = 32) :
    isAcceptable digest = true ↔ 1 < digest.toIntBE := by
  have hne : digest ≠ [] := List.ne_nil_of_length_pos (by omega)
  have hone : (digest.drop 31).length = 1 := by rw [List.length_drop, hlen]
  obtain ⟨last, hlast⟩ := List.length_eq_one_iff.1 hone
  have hsplit : digest.take 31 ++ [last] = digest := hlast ▸ List.take_append_drop 31 digest
  unfold isAcceptable
  rw [Octets.one_lt_toIntBE_iff, and_comm (a := 1 < _), Bool.and_eq_true, Bool.or_eq_true,
    Octets.headD_and_eq_zero_iff hne, hlast, List.headD_cons, decide_eq_true_iff,
    ← Octets.one_lt_toNatBE_concat_iff, hsplit]

/-! ## The chain -/

/-- **A chain that goes through so many states at most** comes soon to what it comes to at all: before it can
have come back to any of them. Each state is told by its code and decides which one is next. -/
theorem exists_lt_of_chain {α : Type} (c : Nat → α) (code : α → Nat) (size : Nat) {P : α → Prop}
    (hcode : ∀ i, code (c i) < size) (hinj : ∀ i j, code (c i) = code (c j) → c i = c j)
    (hnext : ∀ i j, c i = c j → c (i + 1) = c (j + 1)) (h : ∃ i, P (c i)) :
    ∃ i < size, P (c i) ∧ ∀ j < i, ¬ P (c j) := by
  classical
  have hbehind : ∀ i j, c i = c j → ∀ n, c (i + n) = c (j + n) := by
    intro i j heq n
    induction n with
    | zero => exact heq
    | succ n ih => exact hnext _ _ ih
  refine ⟨Nat.find h, ?_, Nat.find_spec h, fun j => Nat.find_min h⟩
  by_contra hlate
  -- otherwise there are two places with one state before
  have hmany : (Finset.range size).card < (Finset.range (size + 1)).card := by simp
  obtain ⟨i, hi, j, hj, hne, hsame⟩ := Finset.exists_ne_map_eq_of_card_lt_of_maps_to hmany
    (f := fun i => code (c i)) fun i _ => by simpa using hcode i
  obtain ⟨a, b, hab, hb, hstate⟩ : ∃ a b, a < b ∧ b ≤ size ∧ c a = c b := by
    have hi' : i ≤ size := Nat.le_of_lt_succ (by simpa using hi)
    have hj' : j ≤ size := Nat.le_of_lt_succ (by simpa using hj)
    rcases Nat.lt_or_gt_of_ne hne with hlt | hlt
    · exact ⟨i, j, hlt, hj', hinj i j hsame⟩
    · exact ⟨j, i, hlt, hi', (hinj i j hsame).symm⟩
  -- what is found behind the second of them is found as far behind the first
  have hlater := hbehind a b hstate (Nat.find h - b)
  rw [Nat.add_sub_cancel' (by omega)] at hlater
  refine Nat.find_min h (by omega : a + (Nat.find h - b) < Nat.find h) ?_
  rw [hlater]
  exact Nat.find_spec h

/-- **What is found** is the first acceptable digest within the steps. -/
theorem firstAcceptable_eq_some_iff {steps : Nat} {digest found : Octets} :
    firstAcceptable steps digest = some found ↔
      ∃ i < steps, found = Digest.sha256^[i] digest ∧ isAcceptable (Digest.sha256^[i] digest) = true ∧
        ∀ j < i, isAcceptable (Digest.sha256^[j] digest) = false := by
  induction steps generalizing digest with
  | zero => simp [firstAcceptable]
  | succ steps ih =>
    rw [firstAcceptable]
    by_cases hfirst : isAcceptable digest = true
    · rw [if_pos hfirst]
      constructor
      · intro h
        cases h
        exact ⟨0, Nat.succ_pos steps, rfl, hfirst, nofun⟩
      · -- nothing behind the start is the first
        rintro ⟨i, -, rfl, -, hnone⟩
        cases i with
        | zero => rfl
        | succ i => cases hfirst.symm.trans (hnone 0 (Nat.succ_pos i))
    · rw [if_neg hfirst, ih]
      constructor
      · rintro ⟨i, hi, rfl, hacceptable, hnone⟩
        refine ⟨i + 1, Nat.succ_lt_succ hi, rfl, hacceptable, fun j hj => ?_⟩
        cases j with
        | zero => exact eq_false_of_ne_true hfirst
        | succ j => exact hnone j (Nat.lt_of_succ_lt_succ hj)
      · rintro ⟨i, hi, rfl, hacceptable, hnone⟩
        cases i with
        | zero => exact absurd hacceptable hfirst
        | succ i =>
          exact ⟨i, Nat.lt_of_succ_lt_succ hi, rfl, hacceptable, fun j hj =>
            hnone (j + 1) (Nat.succ_lt_succ hj)⟩

variable {number salt planKey : String}

/-- **The chain of an identity**: the digest of number and salt in small letters, keyed by the text of the
plan key, is digested over and over. -/
def chain (number salt planKey : String) : Nat → Octets
  | 0 => Digest.sha256 (Digest.hmacSha256 (Text.octets planKey)
      (Text.octets (Text.lowercase (number ++ salt))))
  | i + 1 => Digest.sha256 (chain number salt planKey i)

/-- **The first number of the chain that is greater than one** stands at this place. -/
structure IsFirst (number salt planKey : String) (i : Nat) : Prop where
  /-- This one is. -/
  one_lt : 1 < (chain number salt planKey i).toIntBE
  /-- No one before it is. -/
  le_one : ∀ j < i, (chain number salt planKey j).toIntBE ≤ 1

/-- There is one such place at most. -/
theorem IsFirst.unique {i j : Nat} (hi : IsFirst number salt planKey i)
    (hj : IsFirst number salt planKey j) : i = j := by
  rcases Nat.lt_trichotomy i j with hlt | heq | hlt
  · exact absurd hi.one_lt (Int.not_lt.2 (hj.le_one i hlt))
  · exact heq
  · exact absurd hj.one_lt (Int.not_lt.2 (hi.le_one j hlt))

theorem length_chain (number salt planKey : String) (i : Nat) :
    (chain number salt planKey i).length = 32 := by
  cases i with
  | zero => exact Digest.length_sha256 _
  | succ i => exact Digest.length_sha256 _

/-- The chain goes on from its start by digests. -/
theorem chain_eq (number salt planKey : String) (i : Nat) :
    chain number salt planKey i = Digest.sha256^[i] (seed number salt planKey) := by
  induction i with
  | zero => rfl
  | succ i ih => rw [chain, ih, Function.iterate_succ_apply']

theorem isAcceptable_chain_iff {i : Nat} :
    isAcceptable (Digest.sha256^[i] (seed number salt planKey)) = true ↔
      1 < (chain number salt planKey i).toIntBE := by
  rw [← chain_eq, isAcceptable_iff (length_chain ..)]

/-- Places of the chain with one number have one digest. -/
theorem chain_inj {i j : Nat}
    (h : Octets.toNatBE (chain number salt planKey i) =
      Octets.toNatBE (chain number salt planKey j)) :
    chain number salt planKey i = chain number salt planKey j := by
  rw [← Octets.ofNatBE_toNatBE (chain number salt planKey i),
    ← Octets.ofNatBE_toNatBE (chain number salt planKey j), h, length_chain, length_chain]

/-- **The steps are enough** to come to all that the chain comes to. -/
theorem exists_isFirst (h : ∃ i, 1 < (chain number salt planKey i).toIntBE) :
    ∃ i < steps, IsFirst number salt planKey i := by
  have hcode : ∀ i, Octets.toNatBE (chain number salt planKey i) < 256 ^ 32 := fun i => by
    rw [← length_chain number salt planKey i]
    exact Octets.toNatBE_lt _
  obtain ⟨i, hi, hfound, hnone⟩ := exists_lt_of_chain (chain number salt planKey) Octets.toNatBE
    (256 ^ 32) (P := fun digest => 1 < digest.toIntBE) hcode (fun _ _ => chain_inj)
    (fun _ _ heq => congrArg Digest.sha256 heq) h
  have hsteps : 256 ^ 32 ≤ steps := by decide
  exact ⟨i, Nat.lt_of_lt_of_le hi hsteps, hfound, fun j hj => Int.not_lt.1 (hnone j hj)⟩

/-- **What the search comes to**: to the first number that is greater than one, or to nothing where there is
none. -/
theorem firstAcceptable_cases (number salt planKey : String) :
    ((∀ i, (chain number salt planKey i).toIntBE ≤ 1) ∧
      firstAcceptable steps (seed number salt planKey) = none) ∨
    ∃ i, IsFirst number salt planKey i ∧
      firstAcceptable steps (seed number salt planKey) = some (chain number salt planKey i) := by
  by_cases hsome : ∃ i, 1 < (chain number salt planKey i).toIntBE
  · obtain ⟨i, hi, hfirst⟩ := exists_isFirst hsome
    refine .inr ⟨i, hfirst, firstAcceptable_eq_some_iff.2 ⟨i, hi, chain_eq .., ?_, fun j hj => ?_⟩⟩
    · exact isAcceptable_chain_iff.2 hfirst.one_lt
    · exact eq_false_of_ne_true (mt isAcceptable_chain_iff.1 (Int.not_lt.2 (hfirst.le_one j hj)))
  · have hnone : ∀ i, (chain number salt planKey i).toIntBE ≤ 1 := fun i =>
      Int.not_lt.1 fun h => hsome ⟨i, h⟩
    refine .inl ⟨hnone, ?_⟩
    cases hsearch : firstAcceptable steps (seed number salt planKey) with
    | none => rfl
    | some found =>
      obtain ⟨i, -, -, hacceptable, -⟩ := firstAcceptable_eq_some_iff.1 hsearch
      exact absurd (isAcceptable_chain_iff.1 hacceptable) (Int.not_lt.2 (hnone i))

/-! ## Deriving -/

/-- **No part of the identity is empty.** -/
def IsComplete (number salt planKey : String) : Prop := number ≠ "" ∧ salt ≠ "" ∧ planKey ≠ ""

/-- **The key pair of a digest**: the digest is the secret, the public key is that of the secret, and the text
of the plan key stands for the plan key. -/
structure IsKeyOf (digest : Octets) (planKey : String) (k : KeyPair) : Prop where
  /-- The digest is the secret. -/
  secret : digest = k.secret.toOctets
  /-- The secret is greater than one. -/
  two_le : 2 ≤ k.secret.value
  /-- The secret is not negative as a signed number. -/
  lt : k.secret.value < 2 ^ 255
  /-- The public key is that of the secret. -/
  isMatched : k.IsMatched
  /-- The plan key is what the text stands for. -/
  planKey : ∃ key : PlanKey, k.planKey = some key ∧ Hex.decode planKey = .ok key.octets

/-- Once the secret is found, the text of the plan key decides. -/
theorem derive_of_found {digest : Octets} {s : Secret} (hcomplete : IsComplete number salt planKey)
    (hsearch : firstAcceptable steps (seed number salt planKey) = some digest)
    (hread : Secret.ofOctets? digest = some s) :
    derive number salt planKey =
      match FixedOctets.ofHex planKey with
      | .error cause => .error (.invalidPlanKey cause)
      | .ok key => .ok { KeyPair.ofSecret s with planKey := some key } := by
  obtain ⟨hnumber, hsalt, hplanKey⟩ := hcomplete
  have hparts : ¬ (number.isEmpty || salt.isEmpty || planKey.isEmpty) = true := by
    simp [hnumber, hsalt, hplanKey]
  cases hkey : (FixedOctets.ofHex planKey : Except WireError PlanKey) with
  | error cause => simp only [derive, if_neg hparts, hsearch, hread, hkey]
  | ok key => simp only [derive, if_neg hparts, hsearch, hread, hkey]

/-- **What deriving comes to.** -/
theorem derive_cases (number salt planKey : String) :
    (¬ IsComplete number salt planKey ∧ derive number salt planKey = .error .incompleteIdentity) ∨
    (IsComplete number salt planKey ∧ (∀ i, (chain number salt planKey i).toIntBE ≤ 1) ∧
      derive number salt planKey = .error .exhausted) ∨
    (IsComplete number salt planKey ∧ ∃ i, IsFirst number salt planKey i ∧
      ((¬ Hex.IsDigits 66 planKey ∧
          ∃ cause, derive number salt planKey = .error (.invalidPlanKey cause)) ∨
        (Hex.IsDigits 66 planKey ∧ ∃ k, derive number salt planKey = .ok k ∧
          IsKeyOf (chain number salt planKey i) planKey k))) := by
  by_cases hcomplete : IsComplete number salt planKey
  · right
    rcases firstAcceptable_cases number salt planKey with ⟨hnone, hsearch⟩ | ⟨i, hfirst, hsearch⟩
    · obtain ⟨hnumber, hsalt, hkey⟩ := hcomplete
      refine .inl ⟨⟨hnumber, hsalt, hkey⟩, hnone, ?_⟩
      unfold derive
      rw [if_neg (by simp [hnumber, hsalt, hkey]), hsearch]
    · obtain ⟨s, hoctets, hlow, hhigh⟩ := Secret.exists_of_one_lt (length_chain ..) hfirst.one_lt
      have hderive := derive_of_found hcomplete hsearch (Secret.ofOctets?_eq_some_iff.2 hoctets)
      have hdigits : Hex.IsDigits 66 planKey ↔ ∃ key : PlanKey, FixedOctets.ofHex planKey = .ok key :=
        (FixedOctets.exists_ofHex_iff (n := 33)).symm
      refine .inr ⟨hcomplete, i, hfirst, ?_⟩
      rw [hdigits, hderive]
      cases hkey : (FixedOctets.ofHex planKey : Except WireError PlanKey) with
      | error cause => exact .inl ⟨by simp, cause, rfl⟩
      | ok key =>
        exact .inr ⟨⟨key, rfl⟩, _, rfl, hoctets, hlow, hhigh, rfl, key, rfl,
          FixedOctets.ofHex_eq_ok_iff.1 hkey⟩
  · refine .inl ⟨hcomplete, if_pos ?_⟩
    simpa [IsComplete, Classical.or_iff_not_imp_left, Bool.or_eq_true] using hcomplete

/-- **Deriving is well defined.** An identity is refused as incomplete exactly if a part of it is empty, and
the search ends in nothing only where no number of the chain is greater than one. No secret that is found is
unusable. If the chain has such a number and no part is empty, the plan key is refused exactly if its text is
not one of 66 hexadecimal digits. Otherwise the secret is the first number of the chain that is greater than
one, as a signed number, so that it is at least two and less than half of all there are, and the plan key is
what its text stands for. -/
theorem derive_decides (number salt planKey : String) :
    (derive number salt planKey = .error .incompleteIdentity ↔
      number = "" ∨ salt = "" ∨ planKey = "") ∧
    (derive number salt planKey = .error .exhausted ↔
      IsComplete number salt planKey ∧ ∀ i, (chain number salt planKey i).toIntBE ≤ 1) ∧
    derive number salt planKey ≠ .error .unusableSecret ∧
    (IsComplete number salt planKey → (∃ i, 1 < (chain number salt planKey i).toIntBE) →
      ((∃ cause, derive number salt planKey = .error (.invalidPlanKey cause)) ↔
        ¬ Hex.IsDigits 66 planKey) ∧
      (Hex.IsDigits 66 planKey → ∃ k i, derive number salt planKey = .ok k ∧
        IsFirst number salt planKey i ∧ IsKeyOf (chain number salt planKey i) planKey k)) := by
  have hempty : (number = "" ∨ salt = "" ∨ planKey = "") ↔ ¬ IsComplete number salt planKey := by
    simp only [IsComplete]
    tauto
  rw [hempty]
  rcases derive_cases number salt planKey with ⟨hincomplete, hderive⟩ |
    ⟨hcomplete, hnone, hderive⟩ |
    ⟨hcomplete, i, hfirst, ⟨hdigits, cause, hderive⟩ | ⟨hdigits, k, hderive, hkey⟩⟩
  · rw [hderive]
    simp [hincomplete]
  · rw [hderive]
    refine ⟨by simp [hcomplete], iff_of_true rfl ⟨hcomplete, hnone⟩, by simp, ?_⟩
    rintro - ⟨i, hfound⟩
    exact absurd hfound (Int.not_lt.2 (hnone i))
  · -- the chain does come to such a number, so the search has not ended in nothing
    have hsome : ¬ ∀ i, (chain number salt planKey i).toIntBE ≤ 1 := fun hnone =>
      Int.not_lt.2 (hnone i) hfirst.one_lt
    rw [hderive]
    exact ⟨by simp [hcomplete], by simp [hsome], by simp, fun _ _ =>
      ⟨iff_of_true ⟨cause, rfl⟩ hdigits, fun h => absurd h hdigits⟩⟩
  · have hsome : ¬ ∀ i, (chain number salt planKey i).toIntBE ≤ 1 := fun hnone =>
      Int.not_lt.2 (hnone i) hfirst.one_lt
    rw [hderive]
    exact ⟨by simp [hcomplete], by simp [hsome], by simp, fun _ _ =>
      ⟨by simp [hdigits], fun _ => ⟨k, i, rfl, hfirst, hkey⟩⟩⟩

/-- An identity whose secret is the third number of its chain, since two before it are negative; and the same
with a text that is too short for a plan key. -/
theorem derive_decides_third_number :
    let planKey := "0335ebbda8254cff61bcbe29c3cf7379f4bc8edc7ee0805960e39c17fa9dcfc87a"
    IsComplete "H" "salt" planKey ∧ (∃ i, 1 < (chain "H" "salt" planKey i).toIntBE) ∧
      Hex.IsDigits 66 planKey ∧
      (∃ k, derive "H" "salt" planKey = .ok k ∧ IsKeyOf (chain "H" "salt" planKey 2) planKey k) ∧
      IsComplete "A" "salt" "0335" ∧ (∃ i, 1 < (chain "A" "salt" "0335" i).toIntBE) ∧
      ∃ cause, derive "A" "salt" "0335" = .error (.invalidPlanKey cause) := by
  intro planKey
  have hcomplete : IsComplete "H" "salt" planKey := ⟨by decide, by decide, by decide⟩
  have hfirst : IsFirst "H" "salt" planKey 2 := ⟨by decide +kernel, by decide +kernel⟩
  have hdigits : Hex.IsDigits 66 planKey := by decide +kernel
  have hcomplete' : IsComplete "A" "salt" "0335" := ⟨by decide, by decide, by decide⟩
  have hfound : 1 < (chain "A" "salt" "0335" 1).toIntBE := by decide +kernel
  have hshort : ¬ Hex.IsDigits 66 "0335" := by decide +kernel
  obtain ⟨-, -, -, hboth⟩ := derive_decides "H" "salt" planKey
  obtain ⟨k, i, hderive, hi, hkey⟩ := (hboth hcomplete ⟨2, hfirst.one_lt⟩).2 hdigits
  obtain ⟨-, -, -, hboth'⟩ := derive_decides "A" "salt" "0335"
  have hrefused := (hboth' hcomplete' ⟨1, hfound⟩).1.2 hshort
  have hsame : i = 2 := hi.unique hfirst
  subst hsame
  exact ⟨hcomplete, ⟨2, hfirst.one_lt⟩, hdigits, ⟨k, hderive, hkey⟩, hcomplete', ⟨1, hfound⟩,
    hrefused⟩

end Identity

end AnchoredLedger
