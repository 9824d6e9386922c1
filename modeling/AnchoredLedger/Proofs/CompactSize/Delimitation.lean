import AnchoredLedger.Proofs.CompactSize
import AnchoredLedger.Proofs.Locality

/-! # Compact sizes delimit themselves

The first octet of a number says how many more belong to it. So a number is read wherever it stands, in any
of its forms, and from no fewer octets than its form has. How many octets were used says whether the form
was the shortest, which is the one that is written.

* **`CompactSize.decode_append`** — a form between any octets.
* **`CompactSize.decode_take_eq_truncated`** — a form that is cut short.
* **`CompactSize.Form.length_eq_size_iff`** — the number of octets of a form.
* **`CompactSize.decode_delimits`** — all of it. -/

namespace AnchoredLedger.CompactSize

open Reader

variable {n used offset : Nat} {buffer form : Octets}

/-! ## Where a form stands -/

/-- **What is decoded is a form that stands at the offset**, and all of its octets are used. -/
theorem decode_eq_ok_iff : decode buffer offset = .ok (n, used) ↔ offset ≤ buffer.length ∧
    ∃ form rest, buffer.drop offset = form ++ rest ∧ Form n form ∧ used = form.length :=
  read_recognizes.parseAt_eq_ok_iff

/-- The octets that were used are a form of the number. -/
theorem form_of_decode (h : decode buffer offset = .ok (n, used)) :
    Form n ((buffer.drop offset).take used) ∧ ((buffer.drop offset).take used).length = used := by
  obtain ⟨-, form, rest, hrest, hform, rfl⟩ := decode_eq_ok_iff.1 h
  rw [hrest, List.take_left]
  exact ⟨hform, rfl⟩

/-- **A form is decoded wherever it stands.** -/
theorem decode_append (h : Form n form) (before behind : Octets) :
    decode (before ++ form ++ behind) before.length = .ok (n, form.length) :=
  read_recognizes.parseAt_append h before behind

/-- **A form that is cut short is refused for want of octets**, whatever stands before it. -/
theorem decode_take_eq_truncated (h : Form n form) {m : Nat} (hm : m < form.length) (before : Octets) :
    ∃ needed remaining,
      decode (before ++ form.take m) before.length = .error (.truncated needed remaining) := by
  obtain ⟨e, he⟩ := read_recognizes.exists_parseAt_append_take_eq_error h hm before
  obtain ⟨needed, remaining, rfl⟩ := read_refuses.parseAt_isTruncated he
  exact ⟨needed, remaining, he⟩

/-- No form is at the front of another. -/
theorem eq_of_form_append {m : Nat} {other rest : Octets} (h : Form n form) (hother : Form m other)
    (heq : form ++ rest = other) : n = m :=
  (read_recognizes.unique h hother (heq.trans (List.append_nil other).symm)).1

/-! ## How many octets a form has -/

/-- No form has fewer octets than the shortest. -/
theorem Form.size_le_length (h : Form n form) : size n ≤ form.length := by
  rcases h.eq_encode_or_longer with rfl | hlonger
  · rw [length_encode]
  · exact Nat.le_of_lt hlonger

/-- **A form has as many octets as the shortest only if it is the one that is written.** -/
theorem Form.length_eq_size_iff (h : Form n form) : form.length = size n ↔ form = encode n := by
  constructor
  · intro hlen
    exact h.eq_encode_or_longer.resolve_right (Nat.not_lt.2 (Nat.le_of_eq hlen))
  · rintro rfl
    exact length_encode n

/-! ## What decoding says -/

/-- **Compact sizes delimit themselves.** What is written for a 64-bit word has the size that is worked out,
and between any octets it is decoded as the word and that size. Whatever was decoded is a 64-bit word and
used no fewer octets than its size, and exactly as many only if they are what is written for it. The octets
that were used are decoded alike between any others, and any fewer of them are refused for want of octets.
What is written for a word is at the front of what is written for no other. -/
theorem decode_delimits :
    (∀ (v : UInt64) (before behind : Octets), size v.toNat = (encode v.toNat).length ∧
      decode (before ++ encode v.toNat ++ behind) before.length = .ok (v.toNat, size v.toNat)) ∧
    (∀ buffer offset n used, decode buffer offset = .ok (n, used) →
      let consumed := (buffer.drop offset).take used
      n < 2 ^ 64 ∧ consumed.length = used ∧
      size n ≤ used ∧ (used = size n ↔ consumed = encode n) ∧
      (∀ before behind, decode (before ++ consumed ++ behind) before.length = .ok (n, used)) ∧
      ∀ m < used, ∀ before, ∃ needed remaining,
        decode (before ++ consumed.take m) before.length = .error (.truncated needed remaining)) ∧
    ∀ v w : UInt64, encode v.toNat <+: encode w.toNat → v = w := by
  refine ⟨fun v before behind => ⟨(length_encode _).symm, ?_⟩, ?_, ?_⟩
  · have hdecode := decode_append (form_encode v.toNat_lt) before behind
    rwa [length_encode] at hdecode
  · intro buffer offset n used h consumed
    obtain ⟨hform, hlen⟩ := form_of_decode h
    refine ⟨hform.lt, hlen, ?_, ?_, fun before behind => ?_, fun m hm before => ?_⟩
    · exact Nat.le_trans hform.size_le_length (Nat.le_of_eq hlen)
    · rw [← hform.length_eq_size_iff, hlen]
    · have hdecode := decode_append hform before behind
      rwa [hlen] at hdecode
    · exact decode_take_eq_truncated hform (Nat.lt_of_lt_of_eq hm hlen.symm) before
  · rintro v w ⟨rest, heq⟩
    exact UInt64.toNat_inj.1 (eq_of_form_append (form_encode v.toNat_lt) (form_encode w.toNat_lt) heq)

/-- A number in two octets more than it needs, between two others, and cut short; and a number at the front
of itself. -/
theorem decode_delimits_long_form :
    decode [0xAA, 0xFD, 0x01, 0x00, 0xBB] 1 = .ok (1, 3) ∧ size 1 ≤ 3 ∧ ¬ (3 = size 1) ∧
      decode ([7] ++ [0xFD, 0x01, 0x00] ++ [8, 9]) 1 = .ok (1, 3) ∧
      (∃ needed remaining, decode ([7] ++ [0xFD, 0x01]) 1 = .error (.truncated needed remaining)) ∧
      encode (253 : UInt64).toNat <+: encode (253 : UInt64).toNat ∧ (253 : UInt64) = 253 := by
  have hdecode : decode [0xAA, 0xFD, 0x01, 0x00, 0xBB] 1 = .ok (1, 3) := by decide
  obtain ⟨-, hconsumed, hfront⟩ := decode_delimits
  obtain ⟨-, -, hsize, hshortest, hanywhere, hcut⟩ := hconsumed _ _ _ _ hdecode
  refine ⟨hdecode, hsize, fun heq => ?_, hanywhere [7] [8, 9], hcut 2 (by decide) [7],
    List.prefix_rfl, hfront 253 253 List.prefix_rfl⟩
  exact absurd (hshortest.1 heq) (by decide)

end AnchoredLedger.CompactSize
