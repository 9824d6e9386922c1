import AnchoredLedger.Text.Blank
import AnchoredLedger.Text.Octets
import Mathlib.Data.List.TakeWhile

/-! # Texts, their octets and the blanks around them

A text has one UTF-8 form, and octets are the form of at most one text. Capital and small letters differ in
one octet each, since both are ASCII characters. Trimming takes a text apart into blanks, what is left, and
blanks again.

* **`Text.ofOctets?_eq_some_iff`** — octets and the text that they are the form of.
* **`Text.octets_toLower`** — small letters for capital ones, octet by octet.
* **`Text.Blank`** — a text of blanks; **`Text.trim_append`** and **`Text.exists_eq_append_trim`** say that
  trimming drops blanks at both ends and nothing else. -/

namespace AnchoredLedger.Text

/-! ## The UTF-8 form -/

theorem toList_data_toByteArray (s : String) : s.toByteArray.data.toList = octets s := by
  rw [← String.utf8Encode_toList, List.utf8Encode, List.toList_data_toByteArray, octets]

/-- **Octets are the form of a text, or of none.** -/
theorem ofOctets?_eq_some_iff {bs : Octets} {s : String} : ofOctets? bs = some s ↔ bs = octets s := by
  have hform : ByteArray.mk bs.toArray = s.toByteArray ↔ bs = octets s := by
    rw [← toList_data_toByteArray, ByteArray.ext_iff, ← Array.toList_inj]
  rw [← hform, ofOctets?, String.fromUTF8?]
  constructor
  · intro h
    split at h
    · cases h
      rfl
    · cases h
  · intro heq
    have hvalid : (ByteArray.mk bs.toArray).IsValidUTF8 := heq ▸ s.isValidUTF8
    rw [dif_pos hvalid, Option.some.injEq, ← String.toByteArray_inj]
    exact heq

/-- Texts with one form are equal. -/
theorem octets_inj {s t : String} : octets s = octets t ↔ s = t := by
  have hread : Function.IsPartialInv octets ofOctets? := fun _ _ =>
    ofOctets?_eq_some_iff.trans eq_comm
  exact hread.injective.eq_iff

/-! ## Small letters -/

/-- What holds of the first 128 characters holds of ASCII. -/
theorem forall_ascii {P : Char → Prop} (h : ∀ n < 128, P (Char.ofNat n)) {c : Char} (hc : c.toNat < 128) :
    P c := by
  have hchar := h c.toNat hc
  rwa [Char.ofNat_toNat] at hchar

/-- The octet of a capital letter turned into that of the small one. -/
def lowerOctet (b : UInt8) : UInt8 := if 65 ≤ b ∧ b ≤ 90 then b + 32 else b

theorem lowerOctet_of_ge {b : UInt8} (h : 128 ≤ b.toNat) : lowerOctet b = b := by
  have hbeyond : ¬ (65 ≤ b ∧ b ≤ 90) := by
    rw [UInt8.le_iff_toNat_le, UInt8.le_iff_toNat_le]
    have hlast : (90 : UInt8).toNat = 90 := rfl
    omega
  rw [lowerOctet, if_neg hbeyond]

/-- The form of an ASCII character is one octet. -/
theorem utf8EncodeChar_of_lt {c : Char} (h : c.toNat < 128) :
    String.utf8EncodeChar c = [UInt8.ofNat c.toNat] := by
  have hone : c.val.toNat ≤ 127 := Nat.le_of_lt_succ h
  simp only [String.utf8EncodeChar, if_pos hone]
  rfl

/-- The form of a character that is not in ASCII has no octet that is. -/
theorem le_of_mem_utf8EncodeChar {c : Char} (h : 128 ≤ c.toNat) {b : UInt8}
    (hb : b ∈ String.utf8EncodeChar c) : 128 ≤ b.toNat := by
  have hmany : ¬ c.val.toNat ≤ 127 := Nat.not_le.2 h
  simp only [String.utf8EncodeChar, if_neg hmany] at hb
  -- two, three or four octets, each with its highest bit set
  split at hb
  · simp only [List.mem_cons, List.not_mem_nil, or_false] at hb
    rcases hb with rfl | rfl <;> rw [UInt8.toNat_ofNat'] <;> omega
  · split at hb
    · simp only [List.mem_cons, List.not_mem_nil, or_false] at hb
      rcases hb with rfl | rfl | rfl <;> rw [UInt8.toNat_ofNat'] <;> omega
    · simp only [List.mem_cons, List.not_mem_nil, or_false] at hb
      rcases hb with rfl | rfl | rfl | rfl <;> rw [UInt8.toNat_ofNat'] <;> omega

/-- A character that is not in ASCII has no other small letter. -/
theorem toLower_of_ge {c : Char} (h : 128 ≤ c.toNat) : c.toLower = c := by
  have hbeyond : ¬ (c.val ≥ 'A'.val ∧ c.val ≤ 'Z'.val) := by
    rintro ⟨-, hle⟩
    have hlast : c.toNat ≤ 90 := UInt32.le_iff_toNat_le.1 hle
    omega
  exact dif_neg hbeyond

theorem utf8EncodeChar_toLower (c : Char) :
    String.utf8EncodeChar c.toLower = (String.utf8EncodeChar c).map lowerOctet := by
  by_cases hascii : c.toNat < 128
  · exact forall_ascii (P := fun c => String.utf8EncodeChar c.toLower =
      (String.utf8EncodeChar c).map lowerOctet) (by decide) hascii
  · have hbeyond : 128 ≤ c.toNat := Nat.not_lt.1 hascii
    have hfixed : (String.utf8EncodeChar c).map lowerOctet = (String.utf8EncodeChar c).map id :=
      List.map_congr_left fun b hb => lowerOctet_of_ge (le_of_mem_utf8EncodeChar hbeyond hb)
    rw [toLower_of_ge hbeyond, hfixed, List.map_id]

/-- A text in small letters is that of its characters in small letters. -/
theorem toList_toLower (s : String) : s.toLower.toList = s.toList.map Char.toLower := String.toList_map

/-- **The form of a text in small letters.** -/
theorem octets_toLower (s : String) : octets s.toLower = (octets s).map lowerOctet := by
  rw [octets, octets, toList_toLower, List.flatMap_map, List.map_flatMap]
  simp only [utf8EncodeChar_toLower]

/-! ## Blanks -/

/-- What is looked for ends where something else follows. -/
theorem span_append {α : Type} {p : α → Bool} {front behind : List α} (hfront : ∀ a ∈ front, p a = true)
    (hstop : ∀ a ∈ behind.head?, p a = false) :
    (front ++ behind).takeWhile p = front ∧ (front ++ behind).dropWhile p = behind := by
  rw [List.takeWhile_append_of_pos hfront, List.dropWhile_append_of_pos hfront]
  cases behind with
  | nil => exact ⟨List.append_nil front, rfl⟩
  | cons b behind =>
    have hb : ¬ p b = true := ne_true_of_eq_false (hstop b rfl)
    rw [List.takeWhile_cons_of_neg hb, List.dropWhile_cons_of_neg hb, List.append_nil]
    exact ⟨rfl, rfl⟩

/-- **A text of blanks.** -/
def Blank (s : String) : Prop := ∀ c ∈ s.toList, isBlank c = true

instance (s : String) : Decidable (Blank s) :=
  decidable_of_iff (s.toList.all isBlank = true) List.all_eq_true

/-- A blank is no letter. -/
theorem toLower_of_isBlank {c : Char} (h : isBlank c = true) : c.toLower = c := by
  by_cases hascii : c.toNat < 128
  · exact forall_ascii (P := fun c => isBlank c = true → c.toLower = c) (by decide) hascii h
  · exact toLower_of_ge (Nat.not_lt.1 hascii)

/-- Blanks in front are dropped before anything else is looked at. -/
theorem dropBlanks_append {blanks cs : List Char} (h : ∀ c ∈ blanks, isBlank c = true) :
    dropBlanks (blanks ++ cs) = dropBlanks cs :=
  List.dropWhile_append_of_pos h

/-- Nothing is dropped in front of a character that is no blank. -/
theorem dropBlanks_cons {c : Char} {cs : List Char} (h : isBlank c = false) :
    dropBlanks (c :: cs) = c :: cs :=
  List.dropWhile_cons_of_neg (ne_true_of_eq_false h)

theorem trimList_append {before middle after : List Char} (hbefore : ∀ c ∈ before, isBlank c = true)
    (hmiddle : ∀ c ∈ middle, isBlank c = false) (hafter : ∀ c ∈ after, isBlank c = true) :
    trimList (before ++ middle ++ after) = middle := by
  rw [trimList, List.append_assoc, dropBlanks_append hbefore]
  cases middle with
  | nil =>
    have hnothing : dropBlanks after = [] := List.dropWhile_eq_nil_iff.2 hafter
    rw [List.nil_append, hnothing]
    rfl
  | cons first others =>
    rw [List.cons_append, dropBlanks_cons (hmiddle first List.mem_cons_self), ← List.cons_append,
      List.reverse_append, dropBlanks_append fun c hc => hafter c (List.mem_reverse.1 hc)]
    -- from behind, the first character to be met is the last one of the middle
    have hfixed : dropBlanks (first :: others).reverse = (first :: others).reverse := by
      cases hrev : (first :: others).reverse with
      | nil => rfl
      | cons last more =>
        have hlast : last ∈ first :: others := List.mem_reverse.1 (hrev ▸ List.mem_cons_self)
        exact dropBlanks_cons (hmiddle last hlast)
    rw [hfixed, List.reverse_reverse]

/-- What is dropped at each end are blanks. -/
theorem exists_eq_append_trimList (cs : List Char) : ∃ before after : List Char,
    (∀ c ∈ before, isBlank c = true) ∧ (∀ c ∈ after, isBlank c = true) ∧
      cs = before ++ trimList cs ++ after := by
  have hfront : cs.takeWhile isBlank ++ dropBlanks cs = cs := List.takeWhile_append_dropWhile
  have hback : (dropBlanks cs).reverse.takeWhile isBlank ++ dropBlanks (dropBlanks cs).reverse =
    (dropBlanks cs).reverse := List.takeWhile_append_dropWhile
  refine ⟨cs.takeWhile isBlank, ((dropBlanks cs).reverse.takeWhile isBlank).reverse,
    fun c hc => List.mem_takeWhile_imp hc,
    fun c hc => List.mem_takeWhile_imp (List.mem_reverse.1 hc), ?_⟩
  rw [List.append_assoc, trimList, ← List.reverse_append, hback, List.reverse_reverse, hfront]

/-- **Trimming drops the blanks at both ends**. -/
theorem trim_append {before middle after : String} (hbefore : Blank before)
    (hmiddle : ∀ c ∈ middle.toList, isBlank c = false) (hafter : Blank after) :
    trim (before ++ middle ++ after) = middle := by
  rw [trim, String.toList_append, String.toList_append, trimList_append hbefore hmiddle hafter,
    String.ofList_toList]

/-- **Trimming drops nothing but blanks.** -/
theorem exists_eq_append_trim (s : String) :
    ∃ before after, Blank before ∧ Blank after ∧ s = before ++ trim s ++ after := by
  obtain ⟨before, after, hbefore, hafter, heq⟩ := exists_eq_append_trimList s.toList
  refine ⟨.ofList before, .ofList after, ?_, ?_, ?_⟩
  · rwa [Blank, String.toList_ofList]
  · rwa [Blank, String.toList_ofList]
  · rw [trim, ← String.ofList_append, ← String.ofList_append, ← heq, String.ofList_toList]

end AnchoredLedger.Text
