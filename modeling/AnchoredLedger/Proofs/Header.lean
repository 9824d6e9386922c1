import AnchoredLedger.Header
import AnchoredLedger.Proofs.Recognition

/-! # Headers as slices

Where the fields of a header lie in its 137 octets, said slice by slice and without the writer.

* **`Header.Form`** — a header and the octets whose slices are its fields. `form_iff` says that the
  writer produces these octets and no others do, `exists_form` that any 137 octets are a header.
* **`Header.read_recognizes`** — reading a header takes exactly its form. -/

namespace AnchoredLedger

/-- A value of fixed width is in reverse what its wire form is. -/
theorem FixedOctets.toWire_eq_iff {n : Nat} {v : FixedOctets n} {bs : Octets} :
    v.toWire = bs ↔ v.octets = bs.reverse := by
  rw [toWire]
  constructor
  · rintro rfl
    rw [List.reverse_reverse]
  · intro h
    rw [h, List.reverse_reverse]

namespace Header

open Reader

/-- **The form of a header**: the fields are slices of 137 octets, words with the least octet first,
key and hashes in reverse. -/
structure Form (h : Header) (form : Octets) : Prop where
  /-- There are 137 octets. -/
  length : form.length = size
  /-- The version is in the first four. -/
  version : h.version = Octets.toWord32 (form.take 4)
  /-- The plan key is in the next 33. -/
  planKey : h.planKey.octets = ((form.drop 4).take 33).reverse
  /-- The previous block is in the next 32. -/
  prevBlock : h.prevBlock.octets = ((form.drop 37).take 32).reverse
  /-- The root is in the next 32. -/
  merkleRoot : h.merkleRoot.octets = ((form.drop 69).take 32).reverse
  /-- The previous anchor is in the next 32. -/
  prevAnchor : h.prevAnchor.octets = ((form.drop 101).take 32).reverse
  /-- The time is in the last four. -/
  time : h.time = Octets.toWord32 (form.drop 133)

/-- The octets of a form, put together again, are what is written. -/
theorem Form.eq_encode {h : Header} {form : Octets} (hf : h.Form form) : form = h.encode := by
  have hlen : form.length = 137 := hf.length
  have hversion : Octets.word32 h.version = form.take 4 :=
    (Octets.eq_word32_iff.2 ⟨by simp [hlen], hf.version⟩).symm
  have htime : Octets.word32 h.time = form.drop 133 :=
    (Octets.eq_word32_iff.2 ⟨by simp [hlen], hf.time⟩).symm
  rw [encode, hversion, htime, FixedOctets.toWire_eq_iff.2 hf.planKey,
    FixedOctets.toWire_eq_iff.2 hf.prevBlock, FixedOctets.toWire_eq_iff.2 hf.merkleRoot,
    FixedOctets.toWire_eq_iff.2 hf.prevAnchor]
  -- one slice after the other, from the last to the first, joins up to the whole
  have hjoin : ∀ n m : Nat, (form.drop n).take m ++ form.drop (n + m) = form.drop n := by
    intro n m
    rw [← List.drop_drop, List.take_append_drop]
  simp only [List.append_assoc]
  rw [hjoin 101 32, hjoin 69 32, hjoin 37 32, hjoin 4 33, List.take_append_drop]

/-- Any 137 octets are the form of a header. -/
theorem exists_form {form : Octets} (hlen : form.length = size) : ∃ h : Header, h.Form form := by
  have hlen' : form.length = 137 := hlen
  exact ⟨{ version := Octets.toWord32 (form.take 4)
           planKey := ⟨((form.drop 4).take 33).reverse, by simp [hlen']⟩
           prevBlock := ⟨((form.drop 37).take 32).reverse, by simp [hlen']⟩
           merkleRoot := ⟨((form.drop 69).take 32).reverse, by simp [hlen']⟩
           prevAnchor := ⟨((form.drop 101).take 32).reverse, by simp [hlen']⟩
           time := Octets.toWord32 (form.drop 133) },
    ⟨hlen, rfl, rfl, rfl, rfl, rfl, rfl⟩⟩

/-- Reading a header takes exactly what is written for it. -/
theorem read_recognizes_encode : Recognizes read fun h form => form = h.encode := by
  have hfields := word32_recognizes.bind fun version =>
    (fixed_recognizes 33).bind fun planKey => (fixed_recognizes 32).bind fun prevBlock =>
    (fixed_recognizes 32).bind fun merkleRoot => (fixed_recognizes 32).bind fun prevAnchor =>
    word32_recognizes.bind fun time =>
    recognizes_pure (Header.mk version planKey prevBlock merkleRoot prevAnchor time)
  refine hfields.congr fun h form => ?_
  constructor
  · rintro ⟨version, _, _, rfl, ⟨planKey, _, _, rfl, ⟨prevBlock, _, _, rfl, ⟨merkleRoot, _, _, rfl,
      ⟨prevAnchor, _, _, rfl, ⟨time, _, _, rfl, ⟨rfl, rfl⟩, rfl⟩, rfl⟩, rfl⟩, rfl⟩, rfl⟩, rfl⟩
    simp [encode]
  · rintro rfl
    exact ⟨h.version, _, _, rfl, ⟨h.planKey, _, _, rfl, ⟨h.prevBlock, _, _, rfl,
      ⟨h.merkleRoot, _, _, rfl, ⟨h.prevAnchor, _, _, rfl, ⟨h.time, _, [], rfl, ⟨rfl, rfl⟩, rfl⟩,
        rfl⟩, rfl⟩, rfl⟩, rfl⟩, by simp [encode]⟩

/-- Headers with the same octets are equal. -/
theorem encode_inj {h h' : Header} (heq : h.encode = h'.encode) : h = h' := by
  have hfront : h.encode ++ [] = h'.encode ++ [] := by rw [heq]
  exact (read_recognizes_encode.unique rfl rfl hfront).1

theorem form_iff {h : Header} {form : Octets} : h.Form form ↔ form = h.encode := by
  constructor
  · exact Form.eq_encode
  · rintro rfl
    -- what is written has slices that are a header, and no other header is written so
    obtain ⟨h', hf⟩ := exists_form h.length_encode
    have heq : h = h' := encode_inj hf.eq_encode
    subst heq
    exact hf

theorem form_encode (h : Header) : h.Form h.encode := form_iff.2 rfl

/-- **Reading a header takes exactly its form.** -/
theorem read_recognizes : Recognizes read Form :=
  read_recognizes_encode.congr fun _ _ => form_iff.symm

theorem read_refuses : Refuses read WireError.IsTruncated :=
  word32_refuses.bind fun _ => (fixed_refuses 33).bind fun _ => (fixed_refuses 32).bind fun _ =>
    (fixed_refuses 32).bind fun _ => (fixed_refuses 32).bind fun _ => word32_refuses.bind fun _ =>
    refuses_pure _

end Header

end AnchoredLedger
