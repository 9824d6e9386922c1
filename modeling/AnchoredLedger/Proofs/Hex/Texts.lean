import AnchoredLedger.Block.Wire
import AnchoredLedger.Header.Form
import AnchoredLedger.Proofs.Hex
import AnchoredLedger.Proofs.Json.Reading

/-! # Which hexadecimal texts are accepted, and why the others are not

A text is judged by the octets of its UTF-8 form. An odd number of them is found before anything else, then
the first of them that is no digit, and only then the number of octets that the digits stand for. A character
beyond ASCII has several octets, and the first of these is the fault.

* **`Hex.Faulty`** — what is wrong with octets; **`Hex.decode_eq_error_iff`** says that this is the fault that
  is found.
* **`FixedOctets.ofHex_decides`** — the texts of values of fixed width, on their own and in JSON, and the
  texts of blocks. -/

namespace AnchoredLedger

namespace Hex

/-! ## Octets of digits -/

/-- Whether an octet is that of a hexadecimal digit. -/
def IsDigitOctet (b : UInt8) : Prop := IsDigit (Char.ofNat b.toNat)

instance : DecidablePred IsDigitOctet := fun b => inferInstanceAs (Decidable (IsDigit (Char.ofNat b.toNat)))

theorem digitValue?_eq_none_iff {b : UInt8} : digitValue? b = none ↔ ¬ IsDigitOctet b :=
  forall_octet (P := fun b => digitValue? b = none ↔ ¬ IsDigitOctet b) (by decide +kernel) b

theorem isDigitOctet_of_digitValue? {b v : UInt8} (h : digitValue? b = some v) : IsDigitOctet b := by
  by_contra hno
  rw [digitValue?_eq_none_iff.2 hno] at h
  cases h

/-- **What becomes of a pair**: an octet if both are digits, and otherwise the first that is none is refused. -/
theorem pairValue_cases (high low : UInt8) (index : Nat) :
    (¬ IsDigitOctet high ∧ pairValue high low index = .error (.invalidDigit high index)) ∨
      (IsDigitOctet high ∧ ¬ IsDigitOctet low ∧
        pairValue high low index = .error (.invalidDigit low (index + 1))) ∨
      (IsDigitOctet high ∧ IsDigitOctet low ∧ ∃ b, pairValue high low index = .ok b) := by
  unfold pairValue
  cases hhigh : digitValue? high with
  | none => exact .inl ⟨digitValue?_eq_none_iff.1 hhigh, rfl⟩
  | some v =>
    have hdigit := isDigitOctet_of_digitValue? hhigh
    cases hlow : digitValue? low with
    | none => exact .inr (.inl ⟨hdigit, digitValue?_eq_none_iff.1 hlow, rfl⟩)
    | some w => exact .inr (.inr ⟨hdigit, isDigitOctet_of_digitValue? hlow, _, rfl⟩)

/-! ## Faults -/

/-- **What is wrong with octets** that are no pairs of digits: their number is odd, or else there is one that
is no digit; the first of them counts. -/
inductive Faulty : Octets → Fault → Prop
  /-- They are odd in number. -/
  | oddLength {text : Octets} (hodd : text.length % 2 = 1) : Faulty text .oddLength
  /-- They are even in number, and one that is no digit stands behind digits only. -/
  | invalidDigit {before after : Octets} {o : UInt8} (heven : (before ++ o :: after).length % 2 = 0)
      (hbefore : ∀ d ∈ before, IsDigitOctet d) (ho : ¬ IsDigitOctet o) :
      Faulty (before ++ o :: after) (.invalidDigit o before.length)

/-- Digits stand in front of the first octet that is none. -/
theorem span_digits {before : Octets} {o : UInt8} (after : Octets) (hbefore : ∀ d ∈ before, IsDigitOctet d)
    (ho : ¬ IsDigitOctet o) :
    (before ++ o :: after).takeWhile (fun d => decide (IsDigitOctet d)) = before ∧
      (before ++ o :: after).dropWhile (fun d => decide (IsDigitOctet d)) = o :: after := by
  refine Text.span_append (fun d hd => decide_eq_true (hbefore d hd)) fun d hd => ?_
  cases hd
  exact decide_eq_false ho

/-- **There is one fault at most.** -/
theorem Faulty.unique {text : Octets} {fault fault' : Fault} (h : Faulty text fault)
    (h' : Faulty text fault') : fault = fault' := by
  cases h with
  | oddLength hodd =>
    cases h' with
    | oddLength => rfl
    | invalidDigit heven => omega
  | @invalidDigit before after o heven hbefore ho =>
    generalize htext : before ++ o :: after = text at h' heven
    cases h' with
    | oddLength hodd => omega
    | @invalidDigit before' after' o' _ hbefore' ho' =>
      obtain ⟨htake, hdrop⟩ := span_digits after hbefore ho
      obtain ⟨htake', hdrop'⟩ := span_digits after' hbefore' ho'
      rw [htext] at htake hdrop
      have hfront := htake.symm.trans htake'
      have hbehind := hdrop.symm.trans hdrop'
      rw [hfront, (List.cons.inj hbehind).1]

/-- **What stops reading pairs** is the first octet that is no digit, counted from where reading started. -/
theorem exists_of_readPairs_eq_error {index : Nat} {done text : Octets} {fault : Fault}
    (heven : text.length % 2 = 0) (h : readPairs index done text = .error fault) :
    ∃ before o after, text = before ++ o :: after ∧ (∀ d ∈ before, IsDigitOctet d) ∧ ¬ IsDigitOctet o ∧
      fault = .invalidDigit o (index + before.length) := by
  fun_induction readPairs index done text with
  | case1 index done high low rest e hpair =>
    cases h
    rcases pairValue_cases high low index with ⟨hhigh, heq⟩ | ⟨hhigh, hlow, heq⟩ | ⟨-, -, b, heq⟩
    · rw [hpair] at heq
      cases heq
      exact ⟨[], high, low :: rest, rfl, List.forall_mem_nil _, hhigh, rfl⟩
    · rw [hpair] at heq
      cases heq
      exact ⟨[high], low, rest, rfl, List.forall_mem_singleton.2 hhigh, hlow, rfl⟩
    · rw [hpair] at heq
      cases heq
  | case2 index done high low rest b hpair ih =>
    -- an octet was read, so both are digits and stand in front of what is wrong
    obtain ⟨hhigh, hlow⟩ : IsDigitOctet high ∧ IsDigitOctet low := by
      rcases pairValue_cases high low index with ⟨-, heq⟩ | ⟨-, -, heq⟩ | ⟨hhigh, hlow, -⟩
      · rw [hpair] at heq
        cases heq
      · rw [hpair] at heq
        cases heq
      · exact ⟨hhigh, hlow⟩
    have hrest : rest.length % 2 = 0 := by
      simp only [List.length_cons] at heven
      omega
    obtain ⟨before, o, after, rfl, hbefore, ho, rfl⟩ := ih hrest h
    refine ⟨high :: low :: before, o, after, rfl, ?_, ho, ?_⟩
    · exact List.forall_mem_cons.2 ⟨hhigh, List.forall_mem_cons.2 ⟨hlow, hbefore⟩⟩
    · rw [List.length_cons, List.length_cons, show index + 2 + before.length = index + (before.length + 1 + 1) by
        omega]
  | case3 index done b => cases heven
  | case4 index done => cases h

/-- The fault that is found is one that the octets have. -/
theorem faulty_of_decode_eq_error {s : String} {fault : Fault} (h : decode s = .error fault) :
    Faulty (Text.octets s) fault := by
  unfold decode decodeOctets at h
  by_cases hodd : (Text.octets s).length % 2 = 1
  · rw [if_pos hodd] at h
    cases h
    exact .oddLength hodd
  · rw [if_neg hodd] at h
    have heven : (Text.octets s).length % 2 = 0 := by omega
    obtain ⟨before, o, after, heq, hbefore, ho, rfl⟩ := exists_of_readPairs_eq_error heven h
    rw [heq] at heven ⊢
    rw [Nat.zero_add]
    exact .invalidDigit heven hbefore ho

/-- Nothing is wrong with a text that is read. -/
theorem not_faulty_of_decode_eq_ok {s : String} {bs : Octets} (h : decode s = .ok bs) (fault : Fault) :
    ¬ Faulty (Text.octets s) fault := by
  have hdigits := decode_eq_ok_iff.1 h
  have hlength : (Text.octets s).length = 2 * bs.length := by
    rw [← List.length_map Text.lowerOctet, ← Text.octets_toLower, hdigits, octets_encode,
      length_flatMap_digitOctets]
  generalize htext : Text.octets s = text at hlength
  intro hfaulty
  cases hfaulty with
  | oddLength hodd => omega
  | @invalidDigit before after o _ _ ho =>
    have hmem : o ∈ Text.octets s := by
      rw [htext]
      exact List.mem_append_right before List.mem_cons_self
    obtain ⟨n, hn, heq⟩ := exists_digitOctet_of_mem hdigits hmem
    exact ho (isDigitOctet_of_digitValue? ((digitValue?_eq_some_iff hn).2 heq))

/-- **The fault that is found is the one that the octets have.** -/
theorem decode_eq_error_iff {s : String} {fault : Fault} :
    decode s = .error fault ↔ Faulty (Text.octets s) fault := by
  constructor
  · exact faulty_of_decode_eq_error
  · intro hfaulty
    cases hdecode : decode s with
    | error fault' => rw [hfaulty.unique (faulty_of_decode_eq_error hdecode)]
    | ok bs => exact absurd hfaulty (not_faulty_of_decode_eq_ok hdecode fault)

end Hex

namespace FixedOctets

variable {n : Nat} {t : String}

/-! ## Values of fixed width -/

/-- What was written for a value is read back. -/
@[simp] theorem ofHex_toHex (v : FixedOctets n) : ofHex v.toHex = .ok v :=
  ofHex_eq_ok_iff.2 (Hex.decode_encode v.octets)

/-- What is read was written in small letters. -/
theorem toHex_eq_toLower {v : FixedOctets n} (h : ofHex t = .ok v) : v.toHex = t.toLower :=
  (Hex.decode_eq_ok_iff.1 (ofHex_eq_ok_iff.1 h)).symm

/-- Digits for another number of octets are refused for that number. -/
theorem ofHex_eq_lengthMismatch {m : Nat} (h : Hex.IsDigits (2 * m) t) (hne : m ≠ n) :
    (ofHex t : Except WireError (FixedOctets n)) = .error (.lengthMismatch n m) := by
  obtain ⟨bs, rfl, hread⟩ := Hex.exists_decode_iff.2 h
  simp only [ofHex, hread, ofOctets, dif_neg hne]

/-- A text is refused as no hexadecimal text exactly for the fault of its octets. -/
theorem ofHex_eq_invalidHex_iff {fault : Hex.Fault} :
    (ofHex t : Except WireError (FixedOctets n)) = .error (.invalidHex fault) ↔
      Hex.Faulty (Text.octets t) fault := by
  rw [← Hex.decode_eq_error_iff]
  unfold ofHex
  cases Hex.decode t with
  | error fault' => simp
  | ok bs =>
    by_cases hlen : bs.length = n
    · simp [ofOctets, hlen]
    · simp [ofOctets, hlen]

/-- Any text that is not one of digits in pairs is refused as no hexadecimal text. -/
theorem exists_ofHex_eq_invalidHex (h : ∀ m, ¬ Hex.IsDigits (2 * m) t) :
    ∃ fault, (ofHex t : Except WireError (FixedOctets n)) = .error (.invalidHex fault) := by
  cases hdecode : Hex.decode t with
  | error fault => exact ⟨fault, ofHex_eq_invalidHex_iff.2 (Hex.decode_eq_error_iff.1 hdecode)⟩
  | ok bs => exact absurd (Hex.exists_decode_iff.1 ⟨bs, rfl, hdecode⟩) (h bs.length)

/-- In JSON, a text is read as on its own, and refused for its content. -/
theorem ofJson_eq {j : String} (h : Json.ofText Json.string j = .ok t) :
    FixedOctets.ofJson j = (ofHex t : Except WireError (FixedOctets n)).mapError fun _ => .content := by
  have hread := Json.ofText_through (fun s => (ofHex s : Except _ (FixedOctets n)).toOption) h
  rw [FixedOctets.ofJson, Json.fixed, hread]
  cases (ofHex t : Except WireError (FixedOctets n)) <;> rfl

/-! ## Blocks -/

/-- The text of a block, in any letter case and among any blanks, gives what its octets give. -/
theorem block_ofHex_eq {b : Block} (h : Hex.Denotes t b.encode) : Block.ofHex t = Block.ofOctets b.encode := by
  have hread : Hex.decode (Text.trim t) = .ok b.encode := Hex.decode_trim_eq_ok_iff.2 h
  rw [Block.ofHex, hread]

/-- **Hexadecimal texts are accepted exactly.** The texts of values of `n` octets are those of `2 * n` digits;
they are the written ones in any letter case, and what is written for a value is read back. Digits for
another number of octets are refused with both numbers, and any other text for what is first wrong with its
octets. A JSON text that says a text, such as the written one, is read and refused like it. The text of a
block gives what its octets give, in any letter case and among any blanks. -/
theorem ofHex_decides (n : Nat) (t : String) :
    ((∃ v : FixedOctets n, ofHex t = .ok v) ↔ Hex.IsDigits (2 * n) t) ∧
    (∀ v : FixedOctets n, ofHex t = .ok v → v.toHex = t.toLower) ∧
    (∀ v : FixedOctets n, ofHex v.toHex = .ok v) ∧
    (∀ m, m ≠ n → Hex.IsDigits (2 * m) t →
      (ofHex t : Except WireError (FixedOctets n)) = .error (.lengthMismatch n m)) ∧
    ((∀ m, ¬ Hex.IsDigits (2 * m) t) →
      ∃ fault, (ofHex t : Except WireError (FixedOctets n)) = .error (.invalidHex fault)) ∧
    (∀ fault, (ofHex t : Except WireError (FixedOctets n)) = .error (.invalidHex fault) ↔
      Hex.Faulty (Text.octets t) fault) ∧
    Json.ofText Json.string (Json.Value.text t).compact = .ok t ∧
    (∀ j, Json.ofText Json.string j = .ok t →
      FixedOctets.ofJson j = (ofHex t : Except WireError (FixedOctets n)).mapError fun _ => .content) ∧
    ∀ b : Block, t.toLower = b.toHex → ∀ before after, Text.Blank before → Text.Blank after →
      Block.ofHex (before ++ t ++ after) = Block.ofOctets b.encode := by
  refine ⟨exists_ofHex_iff, fun v => toHex_eq_toLower, ofHex_toHex, fun m hne hdigits => ?_,
    exists_ofHex_eq_invalidHex, fun fault => ofHex_eq_invalidHex_iff, (Json.reads_string t).ofText_compact,
    fun j => ofJson_eq, fun b hdigits before after hbefore hafter => ?_⟩
  · exact ofHex_eq_lengthMismatch hdigits hne
  · exact block_ofHex_eq ⟨before, t, after, hbefore, hdigits, hafter, rfl⟩

/-- Digits in both letter cases that are a hash and no plan key, on their own and in JSON; a character of two
octets between digits, where the first of its octets is the fault, and at an odd length, where no octet is
looked at; and a block in capital letters behind an ideographic space. -/
theorem ofHex_decides_mixed_texts :
    let digits := "709B55bd3DA0f5a838125bd0ee20c5bfdd7caba173912d4281cae816b79a201B"
    let b := Block.withVersion 0xab 7
    (∃ v : Hash, ofHex digits = .ok v ∧ v.toHex = digits.toLower ∧
      FixedOctets.ofJson (Json.Value.text digits).compact = .ok v) ∧
    (ofHex digits : Except WireError PlanKey) = .error (.lengthMismatch 33 32) ∧
    (ofHex "a\u00e90" : Except WireError Hash) = .error (.invalidHex (.invalidDigit 0xC3 1)) ∧
    (ofHex "a\u00e9" : Except WireError Hash) = .error (.invalidHex .oddLength) ∧
    b.toHex.toUpper.toLower = b.toHex ∧
    Block.ofHex ("\u3000" ++ b.toHex.toUpper ++ "\n") = Block.ofOctets b.encode := by
  intro digits b
  have hdigits : Hex.IsDigits (2 * 32) digits := by decide +kernel
  obtain ⟨hread, hlower, -, -, -, -, htext, hjson, -⟩ := ofHex_decides 32 digits
  obtain ⟨v, hv⟩ := hread.2 hdigits
  have hvalue : FixedOctets.ofJson (Json.Value.text digits).compact = .ok v := by
    rw [hjson _ htext, hv]
    rfl
  obtain ⟨-, -, -, hmismatch, -⟩ := ofHex_decides 33 digits
  have hbetween : Hex.Faulty (Text.octets "a\u00e90") (.invalidDigit 0xC3 1) :=
    @Hex.Faulty.invalidDigit [0x61] [0xA9, 0x30] 0xC3 (by decide) (List.forall_mem_singleton.2 (by decide))
      (by decide)
  have hodd : Hex.Faulty (Text.octets "a\u00e9") .oddLength := .oddLength (by decide)
  obtain ⟨-, -, -, -, -, hfault, -⟩ := ofHex_decides 32 "a\u00e90"
  obtain ⟨-, -, -, -, -, hfault', -⟩ := ofHex_decides 32 "a\u00e9"
  obtain ⟨-, -, -, -, -, -, -, -, hblock⟩ := ofHex_decides 32 b.toHex.toUpper
  have hcapital : b.toHex.toUpper.toLower = b.toHex := Hex.toLower_toUpper_encode _
  exact ⟨⟨v, hv, hlower v hv, hvalue⟩, hmismatch 32 (by decide) hdigits, (hfault _).2 hbetween,
    (hfault' _).2 hodd, hcapital, hblock b hcapital _ _ (by decide) (by decide)⟩

end FixedOctets

end AnchoredLedger
