import AnchoredLedger.FixedOctets
import AnchoredLedger.Proofs.Text

/-! # Reading hexadecimal texts

Digits are ASCII characters, and capital ones have the values of small ones. So a written text has two octets
for each that it stands for, and a text is read exactly if it is a written one in some letter case, with
blanks around it where these are trimmed.

* **`Hex.octets_encode`** — the UTF-8 form of a written text.
* **`Hex.pairValue_eq_ok_iff`** — one pair of digits.
* **`Hex.readPairs_eq_ok_iff`** — the pairs one after another, behind any that were read before.
* **`Hex.decode_eq_ok_iff`** — what is read; **`Hex.decode_encode`** says so of what was written.
* **`Hex.Denotes`** — a text that stands for octets among blanks; `decode_trim_eq_ok_iff` says that it is
  read.
* **`Hex.IsDigits`** — a text of so many digits; `exists_decode_iff` says that such texts stand for octets. -/

namespace AnchoredLedger.Hex

/-! ## Digits -/

/-- The octet of a small digit. -/
def digitOctet (n : Nat) : UInt8 := UInt8.ofNat (digit n).toNat

/-- The octets of the two digits of an octet. -/
def digitOctets (b : UInt8) : Octets := [digitOctet (b.toNat / 16), digitOctet (b.toNat % 16)]

/-- A digit is an ASCII character. -/
theorem utf8EncodeChar_digit {n : Nat} (h : n < 16) :
    String.utf8EncodeChar (digit n) = [digitOctet n] := by
  revert n
  decide

theorem high_lt (b : UInt8) : b.toNat / 16 < 16 := by
  have hlt := b.toNat_lt
  omega

theorem low_lt (b : UInt8) : b.toNat % 16 < 16 := Nat.mod_lt _ (by decide)

/-- The UTF-8 form of the digits of an octet. -/
theorem flatMap_digits (b : UInt8) : (digits b).flatMap String.utf8EncodeChar = digitOctets b := by
  simp [digits, digitOctets, utf8EncodeChar_digit (high_lt b), utf8EncodeChar_digit (low_lt b)]

/-- **The UTF-8 form of a written text**: two octets for each. -/
theorem octets_encode (bs : Octets) : Text.octets (encode bs) = bs.flatMap digitOctets := by
  rw [Text.octets, encode, String.toList_ofList, List.flatMap_assoc]
  simp only [flatMap_digits]

/-- Two for each make twice as many. -/
theorem length_flatMap_pair {α : Type} {f : UInt8 → List α} (h : ∀ b, (f b).length = 2) (bs : Octets) :
    (bs.flatMap f).length = 2 * bs.length := by
  induction bs with
  | nil => rfl
  | cons b bs ih =>
    rw [List.flatMap_cons, List.length_append, ih, h, List.length_cons]
    omega

theorem length_flatMap_digitOctets (bs : Octets) : (bs.flatMap digitOctets).length = 2 * bs.length :=
  length_flatMap_pair (fun _ => rfl) bs

/-- What holds of the octets of all numbers holds of all octets. -/
theorem forall_octet {P : UInt8 → Prop} (h : ∀ n < 256, P (UInt8.ofNat n)) (b : UInt8) : P b := by
  have hb := h b.toNat b.toNat_lt
  rwa [UInt8.ofNat_toNat] at hb

/-- The value of a digit does not depend on its letter case. -/
theorem digitValue?_lowerOctet (b : UInt8) : digitValue? (Text.lowerOctet b) = digitValue? b :=
  forall_octet (P := fun b => digitValue? (Text.lowerOctet b) = digitValue? b) (by decide +kernel) b

/-- What has a value is a digit of that value, in one of its letter cases. -/
theorem lowerOctet_of_digitValue? {b v : UInt8} (h : digitValue? b = some v) :
    v.toNat < 16 ∧ Text.lowerOctet b = digitOctet v.toNat :=
  forall_octet (P := fun b => ∀ v ∈ digitValue? b,
    v.toNat < 16 ∧ Text.lowerOctet b = digitOctet v.toNat) (by decide +kernel) b v h

/-- **Which octets are the digit of a number.** -/
theorem digitValue?_eq_some_iff {b : UInt8} {n : Nat} (hn : n < 16) :
    digitValue? b = some (UInt8.ofNat n) ↔ Text.lowerOctet b = digitOctet n := by
  constructor
  · intro h
    obtain ⟨-, hdigit⟩ := lowerOctet_of_digitValue? h
    rwa [UInt8.toNat_ofNat_of_lt' (Nat.lt_trans hn (by decide))] at hdigit
  · intro h
    rw [← digitValue?_lowerOctet, h, digitOctet, digitValue?_digit n hn]

/-! ## Pairs -/

/-- An octet is put together from its halves. -/
theorem high_mul_add_low (b : UInt8) :
    UInt8.ofNat (b.toNat / 16) * 16 + UInt8.ofNat (b.toNat % 16) = b := by
  have hsplit : b.toNat / 16 * 16 + b.toNat % 16 = b.toNat := by omega
  calc UInt8.ofNat (b.toNat / 16) * 16 + UInt8.ofNat (b.toNat % 16)
      = UInt8.ofNat (b.toNat / 16 * 16 + b.toNat % 16) := by rw [UInt8.ofNat_add, UInt8.ofNat_mul]; rfl
    _ = b := by rw [hsplit, UInt8.ofNat_toNat]

/-- An octet is taken apart into its halves. -/
theorem halves_mul_add {h l : UInt8} (hh : h.toNat < 16) (hl : l.toNat < 16) :
    (h * 16 + l).toNat / 16 = h.toNat ∧ (h * 16 + l).toNat % 16 = l.toNat := by
  have hsum : (h * 16 + l).toNat = h.toNat * 16 + l.toNat := by
    rw [UInt8.toNat_add, UInt8.toNat_mul]
    show (h.toNat * 16 % 256 + l.toNat) % 256 = _
    omega
  omega

/-- **A pair of digits stands for the octet whose digits they are**, in any letter case. -/
theorem pairValue_eq_ok_iff {high low b : UInt8} {index : Nat} :
    pairValue high low index = .ok b ↔ [high, low].map Text.lowerOctet = digitOctets b := by
  constructor
  · intro h
    unfold pairValue at h
    cases hhigh : digitValue? high with
    | none => simp [hhigh] at h
    | some v =>
      cases hlow : digitValue? low with
      | none => simp [hhigh, hlow] at h
      | some w =>
        simp only [hhigh, hlow, Except.ok.injEq] at h
        subst h
        obtain ⟨hv, hdigit⟩ := lowerOctet_of_digitValue? hhigh
        obtain ⟨hw, hdigit'⟩ := lowerOctet_of_digitValue? hlow
        obtain ⟨hfront, hback⟩ := halves_mul_add hv hw
        rw [digitOctets, hfront, hback, ← hdigit, ← hdigit']
        rfl
  · intro h
    obtain ⟨hhigh, hrest⟩ := List.cons.inj h
    obtain ⟨hlow, -⟩ := List.cons.inj hrest
    have hvalue := (digitValue?_eq_some_iff (high_lt b)).2 hhigh
    have hvalue' := (digitValue?_eq_some_iff (low_lt b)).2 hlow
    simp only [pairValue, hvalue, hvalue', high_mul_add_low]

/-- Two octets and more are the digits of octets if the two are a pair and the others are digits too. -/
theorem map_cons_cons_eq_flatMap_iff {high low : UInt8} {rest bs : Octets} (index : Nat) :
    (high :: low :: rest).map Text.lowerOctet = bs.flatMap digitOctets ↔
      ∃ b others, bs = b :: others ∧ pairValue high low index = .ok b ∧
        rest.map Text.lowerOctet = others.flatMap digitOctets := by
  have hsplit : (high :: low :: rest).map Text.lowerOctet =
      [high, low].map Text.lowerOctet ++ rest.map Text.lowerOctet := rfl
  rw [hsplit]
  constructor
  · intro h
    cases bs with
    | nil => cases h
    | cons b others =>
      rw [List.flatMap_cons] at h
      obtain ⟨hpair, hrest⟩ := List.append_inj h rfl
      exact ⟨b, others, rfl, pairValue_eq_ok_iff.2 hpair, hrest⟩
  · rintro ⟨b, others, rfl, hpair, hrest⟩
    rw [pairValue_eq_ok_iff.1 hpair, hrest, List.flatMap_cons]

/-- **Pairs are read one after another**, behind any that were read before: what is read are the octets whose
digits they are. -/
theorem readPairs_eq_ok_iff {index : Nat} {done text out : Octets} :
    readPairs index done text = .ok out ↔
      ∃ bs, out = done.reverse ++ bs ∧ text.map Text.lowerOctet = bs.flatMap digitOctets := by
  -- what is read goes in front of what was read before, which is last first
  fun_induction readPairs index done text with
  | case1 index done high low rest e hpair =>
    refine iff_of_false (fun h => by cases h) ?_
    rintro ⟨bs, -, hdigits⟩
    obtain ⟨b, -, -, hvalue, -⟩ := (map_cons_cons_eq_flatMap_iff index).1 hdigits
    rw [hpair] at hvalue
    cases hvalue
  | case2 index done high low rest b hpair ih =>
    rw [ih]
    constructor
    · rintro ⟨others, rfl, hrest⟩
      refine ⟨b :: others, ?_, (map_cons_cons_eq_flatMap_iff index).2 ⟨b, others, rfl, hpair, hrest⟩⟩
      rw [List.reverse_cons, List.append_assoc, List.singleton_append]
    · rintro ⟨bs, rfl, hdigits⟩
      obtain ⟨b', others, rfl, hvalue, hrest⟩ := (map_cons_cons_eq_flatMap_iff index).1 hdigits
      cases hpair.symm.trans hvalue
      refine ⟨others, ?_, hrest⟩
      rw [List.reverse_cons, List.append_assoc, List.singleton_append]
  | case3 index done b =>
    refine iff_of_false (fun h => by cases h) ?_
    rintro ⟨bs, -, hdigits⟩
    have hlength := congrArg List.length hdigits
    rw [length_flatMap_digitOctets, List.length_map, List.length_singleton] at hlength
    omega
  | case4 index done =>
    constructor
    · intro h
      cases h
      exact ⟨[], (List.append_nil _).symm, rfl⟩
    · rintro ⟨bs, rfl, hdigits⟩
      have hlength := congrArg List.length hdigits
      rw [length_flatMap_digitOctets, List.length_map, List.length_nil] at hlength
      have hnone : bs = [] := List.eq_nil_of_length_eq_zero (by omega)
      rw [hnone, List.append_nil]

/-! ## Texts -/

/-- A change of characters that leaves the digits as they are leaves a written text as it is. -/
theorem map_encode {f : Char → Char} (h : ∀ n < 16, f (digit n) = digit n) (bs : Octets) :
    (encode bs).map f = encode bs := by
  have hdigits : ∀ b : UInt8, (digits b).map f = digits b := fun b => by
    rw [digits, List.map_cons, List.map_cons, List.map_nil, h _ (high_lt b), h _ (low_lt b)]
  rw [← String.toList_inj, String.toList_map, encode, String.toList_ofList, List.map_flatMap]
  simp only [hdigits]

/-- A written text has no capital letters. -/
theorem toLower_encode (bs : Octets) : (encode bs).toLower = encode bs := map_encode (by decide) bs

/-- A written text may be turned into capital letters and back. -/
theorem toLower_toUpper_encode (bs : Octets) : (encode bs).toUpper.toLower = encode bs := by
  have hcomp : (encode bs).toUpper.toLower = (encode bs).map (Char.toLower ∘ Char.toUpper) :=
    String.map_map
  rw [hcomp]
  exact map_encode (by decide) bs

/-- **What is read are written texts in any letter case.** -/
theorem decode_eq_ok_iff {s : String} {bs : Octets} : decode s = .ok bs ↔ s.toLower = encode bs := by
  rw [← Text.octets_inj, Text.octets_toLower, octets_encode]
  unfold decode decodeOctets
  split
  · -- an odd number of octets is not that of any digits
    rename_i hodd
    refine iff_of_false (fun h => by cases h) fun hdigits => ?_
    have hlength := congrArg List.length hdigits
    rw [length_flatMap_digitOctets, List.length_map] at hlength
    omega
  · rw [readPairs_eq_ok_iff]
    constructor
    · rintro ⟨_, rfl, hdigits⟩
      exact hdigits
    · intro hdigits
      exact ⟨bs, rfl, hdigits⟩

/-- **What was written is read back.** -/
@[simp] theorem decode_encode (bs : Octets) : decode (encode bs) = .ok bs :=
  decode_eq_ok_iff.2 (toLower_encode bs)

/-! ## Among blanks -/

/-- **A text that stands for octets**: the text that would be written for them in any letter case, between any
blanks. -/
def Denotes (s : String) (bs : Octets) : Prop :=
  ∃ before digits after, Text.Blank before ∧ digits.toLower = encode bs ∧ Text.Blank after ∧
    s = before ++ digits ++ after

theorem exists_eq_digit_of_mem {bs : Octets} {c : Char} (hc : c ∈ (encode bs).toList) :
    ∃ n < 16, c = digit n := by
  rw [encode, String.toList_ofList, List.mem_flatMap] at hc
  obtain ⟨b, -, hc⟩ := hc
  simp only [digits, List.mem_cons, List.not_mem_nil, or_false] at hc
  rcases hc with rfl | rfl
  · exact ⟨_, high_lt b, rfl⟩
  · exact ⟨_, low_lt b, rfl⟩

/-- No blank is a digit in any letter case. -/
theorem isBlank_eq_false_of_mem {digits : String} {bs : Octets} (h : digits.toLower = encode bs) {c : Char}
    (hc : c ∈ digits.toList) : Text.isBlank c = false := by
  have hnone : ∀ n < 16, Text.isBlank (digit n) = false := by decide
  have hlower : c.toLower ∈ (encode bs).toList := by
    rw [← h, Text.toList_toLower]
    exact List.mem_map_of_mem hc
  obtain ⟨n, hn, hdigit⟩ := exists_eq_digit_of_mem hlower
  cases hblank : Text.isBlank c with
  | false => rfl
  | true =>
    -- a blank has no letter case, so it would be the digit itself
    rw [← Text.toLower_of_isBlank hblank, hdigit, hnone n hn] at hblank
    cases hblank

/-- A written text stands for what it was written for. -/
theorem denotes_encode (bs : Octets) : Denotes (encode bs) bs :=
  ⟨"", encode bs, "", nofun, toLower_encode bs, nofun, by rw [String.empty_append, String.append_empty]⟩

/-- An octet of digits is one of a digit. -/
theorem exists_digitOctet_of_mem {digits : String} {bs : Octets} (h : digits.toLower = encode bs) {o : UInt8}
    (ho : o ∈ Text.octets digits) : ∃ n < 16, Text.lowerOctet o = digitOctet n := by
  have hlower : Text.lowerOctet o ∈ bs.flatMap digitOctets := by
    rw [← octets_encode, ← h, Text.octets_toLower]
    exact List.mem_map_of_mem ho
  obtain ⟨b, -, hmem⟩ := List.mem_flatMap.1 hlower
  simp only [digitOctets, List.mem_cons, List.not_mem_nil, or_false] at hmem
  rcases hmem with heq | heq
  · exact ⟨_, high_lt b, heq⟩
  · exact ⟨_, low_lt b, heq⟩

/-- **What is read among blanks.** -/
theorem decode_trim_eq_ok_iff {s : String} {bs : Octets} :
    decode (Text.trim s) = .ok bs ↔ Denotes s bs := by
  constructor
  · intro h
    obtain ⟨before, after, hbefore, hafter, heq⟩ := Text.exists_eq_append_trim s
    exact ⟨before, Text.trim s, after, hbefore, decode_eq_ok_iff.1 h, hafter, heq⟩
  · rintro ⟨before, digits, after, hbefore, hdigits, hafter, rfl⟩
    rw [Text.trim_append hbefore (fun c hc => isBlank_eq_false_of_mem hdigits hc) hafter]
    exact decode_eq_ok_iff.2 hdigits

/-! ## Texts of digits -/

/-- **A hexadecimal digit** of either letter case. -/
def IsDigit (c : Char) : Prop := ('0' ≤ c ∧ c ≤ '9') ∨ ('a' ≤ c ∧ c ≤ 'f') ∨ ('A' ≤ c ∧ c ≤ 'F')

instance : DecidablePred IsDigit := fun _ => inferInstanceAs (Decidable (_ ∨ _))

/-- **A text of so many hexadecimal digits** and nothing else. -/
def IsDigits (n : Nat) (s : String) : Prop := s.length = n ∧ ∀ c ∈ s.toList, IsDigit c

instance (n : Nat) (s : String) : Decidable (IsDigits n s) :=
  decidable_of_iff (s.length = n ∧ s.toList.all (fun c => decide (IsDigit c)) = true) (by simp [IsDigits])

/-- What is a digit becomes one of the small digits. -/
theorem isDigit_iff {c : Char} : IsDigit c ↔ ∃ n < 16, c.toLower = digit n := by
  by_cases hascii : c.toNat < 128
  · exact Text.forall_ascii (P := fun c => IsDigit c ↔ ∃ n < 16, c.toLower = digit n) (by decide +kernel)
      hascii
  · -- beyond ASCII there are no digits, and no letter case
    have hbeyond : 128 ≤ c.toNat := Nat.not_lt.1 hascii
    have hdigit : ∀ n < 16, (digit n).toNat < 128 := by decide
    refine iff_of_false ?_ ?_
    · have hle : ∀ d : Char, c ≤ d → c.toNat ≤ d.toNat := fun d h => h
      rintro (⟨-, h⟩ | ⟨-, h⟩ | ⟨-, h⟩) <;> exact absurd (Nat.le_trans hbeyond (hle _ h)) (by decide)
    · rintro ⟨n, hn, h⟩
      rw [Text.toLower_of_ge hbeyond] at h
      rw [h] at hbeyond
      exact absurd (hdigit n hn) (Nat.not_lt.2 hbeyond)

/-- The digits of an octet from its halves. -/
theorem digits_ofNat {h l : Nat} (hh : h < 16) (hl : l < 16) :
    digits (UInt8.ofNat (16 * h + l)) = [digit h, digit l] := by
  have hvalue : (UInt8.ofNat (16 * h + l)).toNat = 16 * h + l :=
    UInt8.toNat_ofNat_of_lt' (show 16 * h + l < 256 by omega)
  rw [digits, hvalue, show (16 * h + l) / 16 = h by omega, show (16 * h + l) % 16 = l by omega]

theorem length_encode (bs : Octets) : (encode bs).length = 2 * bs.length := by
  rw [← String.length_toList, encode, String.toList_ofList, length_flatMap_pair fun _ => rfl]

/-- Pairs of digits are the digits of octets, in some letter case. -/
theorem exists_flatMap_digits {n : Nat} {cs : List Char} (hlen : cs.length = 2 * n)
    (h : ∀ c ∈ cs, IsDigit c) :
    ∃ bs : Octets, bs.length = n ∧ cs.map Char.toLower = bs.flatMap digits := by
  induction n generalizing cs with
  | zero => exact ⟨[], rfl, by rw [List.eq_nil_of_length_eq_zero hlen]; rfl⟩
  | succ n ih =>
    obtain ⟨high, low, rest, rfl⟩ : ∃ high low rest, cs = high :: low :: rest := by
      match cs, hlen with
      | high :: low :: rest, _ => exact ⟨high, low, rest, rfl⟩
    obtain ⟨hhigh, hbehind⟩ := List.forall_mem_cons.1 h
    obtain ⟨hlow, hrest⟩ := List.forall_mem_cons.1 hbehind
    obtain ⟨v, hv, hvalue⟩ := isDigit_iff.1 hhigh
    obtain ⟨w, hw, hvalue'⟩ := isDigit_iff.1 hlow
    have hothers : rest.length = 2 * n := by
      simp only [List.length_cons] at hlen
      omega
    obtain ⟨bs, hcount, hdigits⟩ := ih hothers hrest
    refine ⟨UInt8.ofNat (16 * v + w) :: bs, by rw [List.length_cons, hcount], ?_⟩
    rw [List.flatMap_cons, digits_ofNat hv hw, List.map_cons, List.map_cons, hvalue, hvalue', hdigits]
    rfl

/-- **Which texts stand for so many octets.** -/
theorem exists_decode_iff {n : Nat} {s : String} :
    (∃ bs, bs.length = n ∧ decode s = .ok bs) ↔ IsDigits (2 * n) s := by
  constructor
  · rintro ⟨bs, rfl, hread⟩
    have hdigits := decode_eq_ok_iff.1 hread
    constructor
    · rw [← length_encode, ← hdigits, ← String.length_toList, ← String.length_toList, Text.toList_toLower,
        List.length_map]
    · intro c hc
      have hlower : c.toLower ∈ (encode bs).toList := by
        rw [← hdigits, Text.toList_toLower]
        exact List.mem_map_of_mem hc
      exact isDigit_iff.2 (exists_eq_digit_of_mem hlower)
  · rintro ⟨hlen, hdigits⟩
    rw [← String.length_toList] at hlen
    obtain ⟨bs, hcount, hmap⟩ := exists_flatMap_digits hlen hdigits
    refine ⟨bs, hcount, decode_eq_ok_iff.2 ?_⟩
    rw [← String.toList_inj, Text.toList_toLower, hmap, encode, String.toList_ofList]

end AnchoredLedger.Hex

namespace AnchoredLedger.FixedOctets

/-! ## Values of fixed width -/

/-- What is read from a text of a value of fixed width. -/
theorem ofHex_eq_ok_iff {n : Nat} {s : String} {v : FixedOctets n} :
    ofHex s = .ok v ↔ Hex.decode s = .ok v.octets := by
  unfold ofHex
  cases hdecode : Hex.decode s with
  | error fault => simp
  | ok bs =>
    unfold ofOctets
    by_cases hlen : bs.length = n
    · simp [hlen, FixedOctets.ext_iff]
    · have hne : bs ≠ v.octets := by
        rintro rfl
        exact hlen v.length_octets
      simp [hlen, hne]

/-- **Which texts are read**: those of two digits for each octet. -/
theorem exists_ofHex_iff {n : Nat} {s : String} :
    (∃ v : FixedOctets n, ofHex s = .ok v) ↔ Hex.IsDigits (2 * n) s := by
  rw [← Hex.exists_decode_iff]
  constructor
  · rintro ⟨v, hread⟩
    exact ⟨v.octets, v.length_octets, ofHex_eq_ok_iff.1 hread⟩
  · rintro ⟨bs, hlen, hread⟩
    exact ⟨⟨bs, hlen⟩, ofHex_eq_ok_iff.2 hread⟩

end AnchoredLedger.FixedOctets
