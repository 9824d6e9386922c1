import AnchoredLedger.Base58
import AnchoredLedger.Proofs.Octets

/-! # Base-58 texts lose nothing

Octets are digits in base 256 and a text is digits in base 58. Both have zeros in front that no number can
tell, and these are carried over one by one. So writing goes from the zeros and the number of an octet
string to a text, and reading goes the same way back.

* **`Numeral.digits base k n`** — `k` zeros and then the digits of `n`, highest first. `zeros_digits` and
  `value_digits` recover both, and `digits_zeros_value` says that all digits are made like this.
* **`Numeral.exists_digits_eq`** — how many digits a number has, and the first of them.
* **`Base58.octets k n`**, **`Base58.text k n`** — the octets and the text of these; `toList_encode` and
  `decode?_eq_some_iff_numeral` say that writing and reading go from one to the other.
* **`Base58.decode?_eq_some_iff`** — reading accepts exactly what is written. -/

namespace AnchoredLedger

/-! ## Digits with zeros in front -/

namespace Numeral

variable {base k n : Nat} {ds : List Nat}

/-- **So many zeros, and then the digits of a number**, highest first. -/
def digits (base k n : Nat) : List Nat := List.replicate k 0 ++ (Nat.digits base n).reverse

/-- The number of zeros in front of digits. -/
def zeros (ds : List Nat) : Nat := (ds.takeWhile (· == 0)).length

/-- The number that digits stand for, highest first. -/
def value (base : Nat) (ds : List Nat) : Nat := Nat.ofDigits base ds.reverse

@[simp] theorem value_nil : value base [] = 0 := rfl

theorem value_concat (ds : List Nat) (d : Nat) : value base (ds ++ [d]) = base * value base ds + d := by
  rw [value, List.reverse_append, List.reverse_singleton, List.singleton_append, Nat.ofDigits_cons,
    Nat.add_comm, value]

@[simp] theorem digits_zero (base : Nat) : digits base 0 0 = [] := by simp [digits]

/-- The last digit is the remainder by the base. -/
theorem digits_of_pos (hbase : 1 < base) (hn : 0 < n) :
    digits base 0 n = digits base 0 (n / base) ++ [n % base] := by
  simp [digits, Nat.digits_def' hbase hn]

theorem lt_of_mem_digits (hbase : 1 < base) {d : Nat} (hd : d ∈ digits base k n) : d < base := by
  rw [digits, List.mem_append, List.mem_reverse] at hd
  rcases hd with hzero | hd
  · rw [List.eq_of_mem_replicate hzero]
    omega
  · exact Nat.digits_lt_base hbase hd

/-- The number is recovered. -/
theorem value_digits (base k n : Nat) : value base (digits base k n) = n := by
  rw [value, digits, List.reverse_append, List.reverse_reverse, List.reverse_replicate,
    Nat.ofDigits_append_replicate_zero, Nat.ofDigits_digits]

/-- The zeros in front are recovered. -/
theorem zeros_digits (base k n : Nat) : zeros (digits base k n) = k := by
  have hfront : (Nat.digits base n).reverse.takeWhile (· == 0) = [] := by
    by_cases hn : n = 0
    · simp [hn]
    · -- the highest digit of a number is not zero
      have hne : Nat.digits base n ≠ [] := Nat.digits_ne_nil_iff_ne_zero.2 hn
      have hlast := Nat.getLast_digit_ne_zero base hn
      rw [← List.dropLast_append_getLast hne, List.reverse_append, List.reverse_singleton,
        List.singleton_append, List.takeWhile_cons_of_neg (by simpa using hlast)]
  rw [zeros, digits, List.takeWhile_append_of_pos (by simp), hfront, List.append_nil,
    List.length_replicate]

/-- **All digits are those of their zeros and their number.** -/
theorem digits_zeros_value (hbase : 1 < base) (h : ∀ d ∈ ds, d < base) :
    digits base (zeros ds) (value base ds) = ds := by
  have hsplit : ds.takeWhile (· == 0) ++ ds.dropWhile (· == 0) = ds := List.takeWhile_append_dropWhile
  have hzeros : ds.takeWhile (· == 0) = List.replicate (zeros ds) 0 := by
    refine List.eq_replicate_iff.2 ⟨rfl, fun d hd => ?_⟩
    simpa using List.mem_takeWhile_imp hd
  -- zeros in front do not count, and behind them stand the digits of a number
  have hvalue : value base ds = Nat.ofDigits base (ds.dropWhile (· == 0)).reverse := by
    conv_lhs => rw [value, ← hsplit, hzeros, List.reverse_append, List.reverse_replicate,
      Nat.ofDigits_append_replicate_zero]
  have hdigits : Nat.digits base (value base ds) = (ds.dropWhile (· == 0)).reverse := by
    rw [hvalue]
    refine Nat.digits_ofDigits base hbase _ (fun d hd => ?_) fun hne => ?_
    · exact h d (List.dropWhile_subset _ (List.mem_reverse.1 hd))
    · have hhead := List.head_dropWhile_not (· == 0) (l := ds) (by simpa using hne)
      rw [List.getLast_reverse]
      simpa using hhead
  rw [digits, hdigits, List.reverse_reverse, ← hzeros, hsplit]

/-- Symbols that tell zero from the other digits have as many zeros in front. -/
theorem length_takeWhile_map {α : Type} {symbol : Nat → α} {isZero : α → Bool}
    (h : ∀ d ∈ ds, isZero (symbol d) = (d == 0)) :
    ((ds.map symbol).takeWhile isZero).length = zeros ds := by
  induction ds with
  | nil => rfl
  | cons d ds ih =>
    obtain ⟨hfirst, hothers⟩ := List.forall_mem_cons.1 h
    rw [zeros, List.map_cons, List.takeWhile_cons, List.takeWhile_cons, hfirst]
    by_cases hd : d = 0
    · simp [hd, ih hothers, zeros]
    · simp [hd]

/-- **How many digits a number has**, and that the first of them is what is left above the others. -/
theorem exists_digits_eq (hbase : 1 < base) (hlow : base ^ k ≤ n) (hhigh : n < base ^ (k + 1)) :
    ∃ ds, ds.length = k ∧ digits base 0 n = n / base ^ k :: ds := by
  -- the last digit is split off, and what is left has one digit less
  induction k generalizing n with
  | zero =>
    have hn : 0 < n := hlow
    have hsmall : n < base := by simpa using hhigh
    exact ⟨[], rfl, by simp [digits_of_pos hbase hn, Nat.div_eq_of_lt hsmall, Nat.mod_eq_of_lt hsmall]⟩
  | succ k ih =>
    have hpos : 0 < n := Nat.lt_of_lt_of_le (Nat.pow_pos (by omega)) hlow
    rw [Nat.pow_succ] at hlow hhigh
    have hlow' : base ^ k ≤ n / base := (Nat.le_div_iff_mul_le (by omega)).2 hlow
    have hhigh' : n / base < base ^ (k + 1) := Nat.div_lt_of_lt_mul (by rwa [Nat.mul_comm])
    obtain ⟨ds, hlen, hdigits⟩ := ih hlow' hhigh'
    refine ⟨ds ++ [n % base], by simp [hlen], ?_⟩
    rw [digits_of_pos hbase hpos, hdigits, Nat.div_div_eq_div_mul, ← Nat.pow_succ', List.cons_append]

end Numeral

namespace Base58

open Numeral

/-! ## Octets -/

/-- **So many zeros, and then the octets of a number.** -/
def octets (k n : Nat) : Octets := (digits 256 k n).map UInt8.ofNat

theorem toNatLE_eq_ofDigits (bs : Octets) :
    Octets.toNatLE bs = Nat.ofDigits 256 (bs.map UInt8.toNat) := by
  induction bs with
  | nil => rfl
  | cons b bs ih => rw [Octets.toNatLE_cons, ih, List.map_cons, Nat.ofDigits_cons]

theorem value_map_toNat (bs : Octets) : value 256 (bs.map UInt8.toNat) = Octets.toNatBE bs := by
  rw [value, ← List.map_reverse, ← toNatLE_eq_ofDigits, Octets.toNatBE_eq]

theorem zeros_map_toNat (bs : Octets) : zeros (bs.map UInt8.toNat) = leadingZeros bs := by
  have hzero : ((· == 0) ∘ UInt8.toNat) = fun b : UInt8 => b == 0 := by
    funext b
    rw [Function.comp_apply, Bool.eq_iff_iff, beq_iff_eq, beq_iff_eq, ← UInt8.toNat_inj]
    rfl
  rw [zeros, List.takeWhile_map, List.length_map, hzero, leadingZeros]

theorem map_toNat_octets (k n : Nat) : (octets k n).map UInt8.toNat = digits 256 k n := by
  rw [octets, List.map_map]
  refine (List.map_congr_left fun d hd => ?_).trans (List.map_id _)
  exact UInt8.toNat_ofNat_of_lt' (lt_of_mem_digits (by decide) hd)

theorem leadingZeros_octets (k n : Nat) : leadingZeros (octets k n) = k := by
  rw [← zeros_map_toNat, map_toNat_octets, zeros_digits]

theorem toNatBE_octets (k n : Nat) : Octets.toNatBE (octets k n) = n := by
  rw [← value_map_toNat, map_toNat_octets, value_digits]

/-- **All octets are those of their zeros and their number.** -/
theorem octets_leadingZeros_toNatBE (bs : Octets) :
    octets (leadingZeros bs) (Octets.toNatBE bs) = bs := by
  have hlt : ∀ d ∈ bs.map UInt8.toNat, d < 256 := by
    intro d hd
    obtain ⟨b, -, rfl⟩ := List.mem_map.1 hd
    exact b.toNat_lt
  rw [octets, ← zeros_map_toNat, ← value_map_toNat, digits_zeros_value (by decide) hlt, List.map_map]
  exact (List.map_congr_left fun b _ => UInt8.ofNat_toNat).trans (List.map_id _)

/-- The octets that are put in front are those of the number. -/
theorem octetsOnto_eq (n : Nat) (after : Octets) : octetsOnto n after = octets 0 n ++ after := by
  fun_induction octetsOnto n after with
  | case1 after => simp [octets]
  | case2 n after hn ih =>
    have hlast : UInt8.ofNat (n % 256) = UInt8.ofNat n := UInt8.ofNat_mod_size
    rw [ih, octets, octets, digits_of_pos (by decide) (Nat.pos_of_ne_zero hn), List.map_append,
      List.map_singleton, hlast, List.append_assoc, List.singleton_append]

theorem replicate_append_octets (k n : Nat) : List.replicate k 0 ++ octets 0 n = octets k n := by
  simp [octets, digits]

/-! ## Texts -/

/-- **So many characters `1`, and then the digits of a number.** -/
def text (k n : Nat) : List Char := (digits 58 k n).map digit

/-- Only the digit zero is written `1`. -/
theorem digit_beq_one {d : Nat} (hd : d < 58) : (digit d == '1') = (d == 0) := by
  revert d
  decide

/-- Every digit has its value. -/
theorem digitValue?_digit {d : Nat} (hd : d < 58) : digitValue? (digit d) = some d := by
  revert d
  decide

/-- What has a value is the digit of that value. -/
theorem of_digitValue? {c : Char} {d : Nat} (h : digitValue? c = some d) : d < 58 ∧ c = digit d := by
  obtain ⟨hd, hchar, -⟩ := List.findIdx?_eq_some_iff_getElem.1 h
  refine ⟨hd, ?_⟩
  rw [digit, List.getD_eq_getElem _ _ hd]
  exact (eq_of_beq hchar).symm

/-- The characters that are put in front are the digits of the number. -/
theorem digitsOnto_eq (n : Nat) (after : List Char) : digitsOnto n after = text 0 n ++ after := by
  fun_induction digitsOnto n after with
  | case1 after => simp [text]
  | case2 n after hn ih =>
    rw [ih, text, text, digits_of_pos (by decide) (Nat.pos_of_ne_zero hn), List.map_append,
      List.map_singleton, List.append_assoc, List.singleton_append]

/-- **A text has the zeros and the number of the octets.** -/
theorem toList_encode (bs : Octets) :
    (encode bs).toList = text (leadingZeros bs) (Octets.toNatBE bs) := by
  have hone : digit 0 = '1' := rfl
  rw [encode, String.toList_ofList, digitsOnto_eq, List.append_nil, text, text, digits, digits,
    List.replicate_zero, List.nil_append, List.map_append, List.map_replicate, hone]

/-- The characters `1` in front of a text are its zeros. -/
theorem length_takeWhile_text (k n : Nat) : ((text k n).takeWhile (· == '1')).length = k := by
  rw [text, length_takeWhile_map fun d hd => digit_beq_one (lt_of_mem_digits (by decide) hd),
    zeros_digits]

/-! ## Reading -/

theorem value?_concat (cs : List Char) (c : Char) :
    value? (cs ++ [c]) = (value? cs).bind fun n => (digitValue? c).map (58 * n + ·) := by
  rw [value?, List.foldlM_append]
  simp [value?]

/-- Digits are read as the number that they stand for. -/
theorem value?_map_digit {ds : List Nat} (h : ∀ d ∈ ds, d < 58) :
    value? (ds.map digit) = some (value 58 ds) := by
  -- both numbers are built up from the first digit on, so the last digit is the one to split off
  induction ds using List.reverseRecOn with
  | nil => rfl
  | append_singleton ds d ih =>
    obtain ⟨hfront, hlast⟩ := List.forall_mem_append.1 h
    rw [List.map_append, List.map_singleton, value?_concat, ih hfront,
      digitValue?_digit (hlast d (List.mem_singleton_self d)), value_concat]
    rfl

/-- What is read as a number are digits. -/
theorem exists_of_value? {cs : List Char} {n : Nat} (h : value? cs = some n) :
    ∃ ds : List Nat, (∀ d ∈ ds, d < 58) ∧ cs = ds.map digit := by
  induction cs using List.reverseRecOn generalizing n with
  | nil => exact ⟨[], by simp⟩
  | append_singleton cs c ih =>
    rw [value?_concat, Option.bind_eq_some_iff] at h
    obtain ⟨m, hfront, hlast⟩ := h
    obtain ⟨d, hdigit, -⟩ := Option.map_eq_some_iff.1 hlast
    obtain ⟨ds, hds, rfl⟩ := ih hfront
    obtain ⟨hd, rfl⟩ := of_digitValue? hdigit
    refine ⟨ds ++ [d], List.forall_mem_append.2 ⟨hds, List.forall_mem_singleton.2 hd⟩, by simp⟩

/-- **Texts and octets of the same zeros and number are read from one another.** -/
theorem decode?_eq_some_iff_numeral {s : String} {bs : Octets} :
    decode? s = some bs ↔ ∃ k n, s.toList = text k n ∧ bs = octets k n := by
  unfold decode?
  constructor
  · intro h
    obtain ⟨n, hvalue, hoctets⟩ := Option.map_eq_some_iff.1 h
    obtain ⟨ds, hds, htext⟩ := exists_of_value? hvalue
    rw [htext, value?_map_digit hds, Option.some.injEq] at hvalue
    have hnumeral : s.toList = text (zeros ds) n := by
      rw [htext, text, ← hvalue, digits_zeros_value (by decide) hds]
    refine ⟨zeros ds, n, hnumeral, ?_⟩
    rw [← hoctets, hnumeral, length_takeWhile_text, octetsOnto_eq, List.append_nil,
      replicate_append_octets]
  · rintro ⟨k, n, htext, rfl⟩
    have hvalue : value? (text k n) = some n := by
      rw [text, value?_map_digit fun d hd => lt_of_mem_digits (by decide) hd, value_digits]
    rw [htext, hvalue, Option.map_some, length_takeWhile_text, octetsOnto_eq, List.append_nil,
      replicate_append_octets]

/-- **Reading accepts exactly what is written.** -/
theorem decode?_eq_some_iff {s : String} {bs : Octets} : decode? s = some bs ↔ s = encode bs := by
  rw [decode?_eq_some_iff_numeral, ← String.toList_inj, toList_encode]
  constructor
  · rintro ⟨k, n, htext, rfl⟩
    rw [leadingZeros_octets, toNatBE_octets, htext]
  · intro htext
    exact ⟨_, _, htext, (octets_leadingZeros_toNatBE bs).symm⟩

/-- Octets that are written alike are equal. -/
theorem encode_inj {bs bs' : Octets} : encode bs = encode bs' ↔ bs = bs' := by
  have hread : Function.IsPartialInv encode decode? := fun _ _ =>
    decode?_eq_some_iff.trans eq_comm
  exact hread.injective.eq_iff

end Base58

end AnchoredLedger
