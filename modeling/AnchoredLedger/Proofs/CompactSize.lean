import AnchoredLedger.CompactSize
import AnchoredLedger.Proofs.Recognition

/-! # The forms of compact sizes

A number has up to four forms, of which writing chooses the shortest and reading takes any.

* **`CompactSize.Form`** — the four forms as a grammar; `read_recognizes` says that reading takes
  these and nothing else, and `form_encode` that writing produces one of them.
* **`CompactSize.Shortest`** — a form of which there is no shorter one; `shortest_iff` says that this
  is what is written.
* **`CompactSize.read_eq_error`** — where a number is refused, which is behind its first octet.
* **`CompactSize.recognizes_counted`** — a length that is checked against the octets ahead before the
  items are read changes nothing about what is read. -/

namespace AnchoredLedger.CompactSize

open Reader

/-! ## The grammar -/

/-- **The forms of a number**, minimal or not: an octet below the markers stands for itself, and a
marker announces two, four or eight octets of number. -/
inductive Form : Grammar Nat
  /-- An octet that is its own number. -/
  | octet {b : UInt8} (h : b < 0xFD) : Form b.toNat [b]
  /-- Two octets of number. -/
  | marked16 {digits : Octets} (h : digits.length = 2) : Form (Octets.toNatLE digits) (0xFD :: digits)
  /-- Four octets of number. -/
  | marked32 {digits : Octets} (h : digits.length = 4) : Form (Octets.toNatLE digits) (0xFE :: digits)
  /-- Eight octets of number. -/
  | marked64 {digits : Octets} (h : digits.length = 8) : Form (Octets.toNatLE digits) (0xFF :: digits)

theorem payload_eq_zero_iff {marker : UInt8} : payload marker = 0 ↔ marker < 0xFD := by
  have hlt : marker.toNat < 256 := marker.toNat_lt
  simp only [payload, ← UInt8.toNat_inj, UInt8.lt_iff_toNat_lt]
  change (if marker.toNat = 253 then 2 else if marker.toNat = 254 then 4
    else if marker.toNat = 255 then 8 else 0) = 0 ↔ marker.toNat < 253
  split
  · omega
  · split
    · omega
    · split <;> omega

/-- The four forms told by the number of octets that the first one announces. -/
theorem form_iff {n : Nat} {form : Octets} :
    Form n form ↔ ∃ marker digits, form = marker :: digits ∧ digits.length = payload marker ∧
      n = if payload marker = 0 then marker.toNat else Octets.toNatLE digits := by
  constructor
  · rintro (h | h | h | h)
    · have hzero := payload_eq_zero_iff.2 h
      exact ⟨_, [], rfl, hzero.symm, (if_pos hzero).symm⟩
    · exact ⟨0xFD, _, rfl, h, rfl⟩
    · exact ⟨0xFE, _, rfl, h, rfl⟩
    · exact ⟨0xFF, _, rfl, h, rfl⟩
  · rintro ⟨marker, digits, rfl, hlen, rfl⟩
    -- a marker that announces nothing is itself the number
    by_cases hzero : payload marker = 0
    · rw [if_pos hzero, List.eq_nil_of_length_eq_zero (hlen.trans hzero)]
      exact .octet (payload_eq_zero_iff.1 hzero)
    · rw [if_neg hzero]
      unfold payload at hlen hzero
      split at hlen
      · subst marker
        exact .marked16 hlen
      · split at hlen
        · subst marker
          exact .marked32 hlen
        · split at hlen
          · subst marker
            exact .marked64 hlen
          · simp_all

/-- Every form stands for a number of at most 64 bits. -/
theorem Form.lt {n : Nat} {form : Octets} (h : Form n form) : n < 2 ^ 64 := by
  cases h with
  | octet h => exact Nat.lt_trans (UInt8.toNat_lt _) (by decide)
  | @marked16 digits h =>
    have hlt := Octets.toNatLE_lt digits
    rw [h] at hlt
    omega
  | @marked32 digits h =>
    have hlt := Octets.toNatLE_lt digits
    rw [h] at hlt
    omega
  | @marked64 digits h =>
    have hlt := Octets.toNatLE_lt digits
    rw [h] at hlt
    omega

/-- Every form takes at least one octet. -/
theorem Form.ne_nil {n : Nat} {form : Octets} (h : Form n form) : form ≠ [] := by
  cases h <;> exact List.cons_ne_nil _ _

/-- What is written is a form of the number. -/
theorem form_encode {n : Nat} (h : n < 2 ^ 64) : Form n (encode n) := by
  unfold encode
  split
  · rename_i hn
    have hval : (UInt8.ofNat n).toNat = n := by
      rw [UInt8.toNat_ofNat']
      omega
    have hlt : UInt8.ofNat n < 0xFD := by
      rw [UInt8.lt_iff_toNat_lt, hval]
      exact hn
    have hform := Form.octet hlt
    rwa [hval] at hform
  · split
    · have hform := Form.marked16 (Octets.length_ofNatLE 2 n)
      rwa [Octets.toNatLE_ofNatLE_of_lt (by omega)] at hform
    · split
      · have hform := Form.marked32 (Octets.length_ofNatLE 4 n)
        rwa [Octets.toNatLE_ofNatLE_of_lt (by omega)] at hform
      · have hform := Form.marked64 (Octets.length_ofNatLE 8 n)
        rwa [Octets.toNatLE_ofNatLE_of_lt (by omega)] at hform

/-! ## The shortest form -/

/-- **A form of a number than which no other is shorter.** -/
structure Shortest (n : Nat) (octets : Octets) : Prop where
  /-- It is a form of the number. -/
  form : Form n octets
  /-- No other is shorter. -/
  least : ∀ other, Form n other → octets.length ≤ other.length

/-- A form that is not what is written is longer. -/
theorem Form.eq_encode_or_longer {n : Nat} {form : Octets} (h : Form n form) :
    form = encode n ∨ size n < form.length := by
  cases h with
  | @octet b h =>
    left
    have hsmall : b.toNat < 0xFD := UInt8.lt_iff_toNat_lt.1 h
    rw [encode, if_pos hsmall, UInt8.ofNat_toNat]
  | @marked16 digits h =>
    by_cases hsmall : Octets.toNatLE digits < 0xFD
    · right
      rw [size, if_pos hsmall, List.length_cons]
      omega
    · left
      have hlt := Octets.toNatLE_lt digits
      rw [h] at hlt
      rw [encode, if_neg hsmall, if_pos (by omega), ← h, Octets.ofNatLE_toNatLE]
  | @marked32 digits h =>
    by_cases hsmall : Octets.toNatLE digits ≤ 0xFFFF
    · right
      rw [size, if_pos hsmall, List.length_cons]
      split <;> omega
    · left
      have hlt := Octets.toNatLE_lt digits
      rw [h] at hlt
      rw [encode, if_neg (by omega), if_neg hsmall, if_pos (by omega), ← h, Octets.ofNatLE_toNatLE]
  | @marked64 digits h =>
    by_cases hsmall : Octets.toNatLE digits ≤ 0xFFFFFFFF
    · right
      rw [size, if_pos hsmall, List.length_cons]
      split
      · omega
      · split <;> omega
    · left
      rw [encode, if_neg (by omega), if_neg (by omega), if_neg hsmall, ← h, Octets.ofNatLE_toNatLE]

/-- **The shortest form is what is written**, and there is one for every number of 64 bits. -/
theorem shortest_iff {n : Nat} {octets : Octets} :
    Shortest n octets ↔ n < 2 ^ 64 ∧ octets = encode n := by
  constructor
  · intro h
    have hlt := h.form.lt
    have hle := h.least _ (form_encode hlt)
    rw [length_encode] at hle
    exact ⟨hlt, h.form.eq_encode_or_longer.resolve_right (Nat.not_lt.2 hle)⟩
  · rintro ⟨hlt, rfl⟩
    refine ⟨form_encode hlt, fun other hother => ?_⟩
    rcases hother.eq_encode_or_longer with rfl | hlonger
    · exact Nat.le_refl _
    · rw [length_encode]
      exact Nat.le_of_lt hlonger

/-! ## Reading -/

/-- **Reading a number takes exactly its forms.** -/
theorem read_recognizes : Recognizes read Form := by
  have hdigits : ∀ marker : UInt8, Recognizes
      (if payload marker = 0 then pure marker.toNat
        else octets (payload marker) >>= fun bs => pure (Octets.toNatLE bs))
      fun n digits => digits.length = payload marker ∧
        n = if payload marker = 0 then marker.toNat else Octets.toNatLE digits := by
    intro marker
    by_cases hzero : payload marker = 0
    · simp only [hzero, if_true, List.length_eq_zero_iff]
      exact (recognizes_pure marker.toNat).congr fun n form => and_comm
    · simp only [if_neg hzero]
      refine ((octets_recognizes (payload marker)).bind fun bs =>
        recognizes_pure (Octets.toNatLE bs)).congr fun n form => ?_
      constructor
      · rintro ⟨bs, digits, _, ⟨hlen, rfl⟩, ⟨hn, rfl⟩, rfl⟩
        rw [List.append_nil]
        exact ⟨hlen, hn⟩
      · rintro ⟨hlen, hn⟩
        exact ⟨form, form, [], ⟨hlen, rfl⟩, ⟨hn, rfl⟩, (List.append_nil form).symm⟩
  refine (octet_recognizes.bind hdigits).congr fun n form => ?_
  rw [form_iff]
  constructor
  · rintro ⟨marker, _, digits, rfl, hn, rfl⟩
    exact ⟨marker, digits, rfl, hn⟩
  · rintro ⟨marker, digits, rfl, hn⟩
    exact ⟨marker, [marker], digits, rfl, hn, rfl⟩

/-- **Where a number is refused**: behind its first octet if there is one, for want of the octets that this
one announces. -/
theorem read_eq_error {e : WireError} {c d : Cursor} (h : read c = .error e d) :
    d = (if 0 < c.remaining then c.advance 1 else c) ∧ e.WantsAt d := by
  obtain ⟨position, rest⟩ := c
  cases rest with
  | nil =>
    cases h
    exact ⟨rfl, 1, Nat.one_pos, rfl⟩
  | cons marker rest =>
    have hsome : 0 < Cursor.remaining ⟨position, marker :: rest⟩ := Nat.succ_pos rest.length
    rw [if_pos hsome]
    rcases bind_eq_error_iff.1 h with h | ⟨_, between, hmarker, h⟩
    · contradiction
    · cases hmarker
      split at h
      · contradiction
      · rcases bind_eq_error_iff.1 h with h | ⟨bs, behind, -, h⟩
        · obtain ⟨rfl, hwants⟩ := octets_atomic _ e _ d h
          exact ⟨rfl, hwants⟩
        · contradiction

theorem read_refuses : Refuses read WireError.IsTruncated :=
  fun _ _ _ h => (read_eq_error h).2.isTruncated

/-! ## Lengths checked ahead -/

theorem readLength_eq_ok_iff {item n : Nat} {c d : Cursor} :
    readLength item c = .ok n d ↔ read c = .ok n d ∧ min (n * item) maxNeeded ≤ d.remaining := by
  unfold readLength
  rw [bind_eq_ok_iff]
  constructor
  · rintro ⟨count, between, hread, h⟩
    simp only [bind_eq_ok_iff] at h
    obtain ⟨_, _, hget, h⟩ := h
    cases hget
    split at h
    · rename_i hholds
      cases h
      exact ⟨hread, (Octets.holds_iff _ _).1 hholds⟩
    · cases h
  · rintro ⟨hread, hle⟩
    refine ⟨n, d, hread, ?_⟩
    simp only [bind_eq_ok_iff]
    refine ⟨d, d, rfl, ?_⟩
    rw [if_pos ((Octets.holds_iff _ _).2 hle)]
    rfl

theorem readLength_refuses (item : Nat) : Refuses (readLength item) WireError.IsTruncated := by
  refine read_refuses.bind fun count => ?_
  intro e c d h
  simp only [bind_eq_error_iff] at h
  rcases h with h | ⟨_, _, hget, h⟩
  · cases h
  · cases hget
    split at h
    · cases h
    · cases h
      exact ⟨_, _, rfl⟩

/-- A number and behind it what it counts. -/
def Counted {α : Type} (K : Nat → Grammar α) : Grammar α := fun a form =>
  ∃ n count items, Form n count ∧ K n a items ∧ form = count ++ items

/-- **A length that is checked ahead changes nothing about what is read**, as long as the items that
it counts take no less room than the check asks for. -/
theorem recognizes_counted {α : Type} {k : Nat → Reader α} {K : Nat → Grammar α} (item : Nat)
    (hk : ∀ n, Recognizes (k n) (K n))
    (hroom : ∀ n a form, K n a form → n * item ≤ form.length) :
    Recognizes (readLength item >>= k) (Counted K) := by
  intro a c d
  have hplain := (read_recognizes.bind hk).congr (H := Counted K) fun a form => Iff.rfl
  rw [← hplain a c d, bind_eq_ok_iff, bind_eq_ok_iff]
  constructor
  · rintro ⟨n, between, hn, ha⟩
    exact ⟨n, between, (readLength_eq_ok_iff.1 hn).1, ha⟩
  · rintro ⟨n, between, hn, ha⟩
    refine ⟨n, between, readLength_eq_ok_iff.2 ⟨hn, ?_⟩, ha⟩
    -- the items that are there make room for what the check asks for
    obtain ⟨form, hform, hpass⟩ := (hk n a between d).1 ha
    have hle := hroom n a form hform
    have hrem := hpass.remaining_eq
    omega

end AnchoredLedger.CompactSize
