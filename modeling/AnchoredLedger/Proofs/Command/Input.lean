import AnchoredLedger.Command
import AnchoredLedger.Proofs.Block.RoundTrip
import AnchoredLedger.Proofs.Hex

/-! # Where the octets of a block come from

A block may be given as a text, in a file with that text, or in a file with its octets. A file does not say
which of the two it holds, so it is taken for a text wherever it is one that stands for octets. Texts are
therefore understood either way. The octets of a block are understood unless they happen to be such a text,
and there is no help for those that are: a file may be the text of one block and the octets of another.

* **`Command.IsTextOf`** — a file with a text that stands for octets; `not_isTextOf_of_mem` tells a file that
  holds none by a single octet.
* **`Command.fileOctets_of_isTextOf`**, **`Command.fileOctets_eq_self`** — the octets that a file gives.
* **`Command.readBlock_routes`** — the three ways to give a reachable block. -/

namespace AnchoredLedger

namespace Text

/-- An octet of a text that is an ASCII character is that character. -/
theorem mem_of_mem_octets {s : String} {o : UInt8} (ho : o ∈ octets s) (hascii : o.toNat < 128) :
    Char.ofNat o.toNat ∈ s.toList := by
  obtain ⟨c, hc, hmem⟩ := List.mem_flatMap.1 ho
  have hsmall : c.toNat < 128 := by
    by_contra hbeyond
    have hhigh := le_of_mem_utf8EncodeChar (Nat.not_lt.1 hbeyond) hmem
    omega
  rw [utf8EncodeChar_of_lt hsmall, List.mem_singleton] at hmem
  rw [hmem, UInt8.toNat_ofNat_of_lt' (Nat.lt_trans hsmall (by decide)), Char.ofNat_toNat]
  exact hc

end Text

namespace Command

variable {contents bs : Octets}

/-! ## Files of text -/

/-- **A file with a text that stands for octets.** -/
def IsTextOf (contents bs : Octets) : Prop := ∃ text, contents = Text.octets text ∧ Hex.Denotes text bs

/-- Such a file has at least two octets for each that it stands for. -/
theorem IsTextOf.length_le (h : IsTextOf contents bs) : 2 * bs.length ≤ contents.length := by
  obtain ⟨_, rfl, before, digits, after, -, hdigits, -, rfl⟩ := h
  have hlength : (Text.octets digits).length = 2 * bs.length := by
    rw [← List.length_map Text.lowerOctet, ← Text.octets_toLower, hdigits, Hex.octets_encode,
      Hex.length_flatMap_digitOctets]
  rw [Text.octets_append, Text.octets_append, List.length_append, List.length_append, hlength]
  omega

/-- **A single octet tells that a file holds no such text**: one of an ASCII character that is neither a blank
nor a digit. -/
theorem not_isTextOf_of_mem {o : UInt8} (ho : o ∈ contents) (hascii : o.toNat < 128)
    (hblank : Text.isBlank (Char.ofNat o.toNat) = false) (hdigit : Hex.digitValue? o = none) :
    ¬ IsTextOf contents bs := by
  rintro ⟨_, rfl, before, digits, after, hbefore, hdigits, hafter, rfl⟩
  have hnone : ∀ blanks : String, Text.Blank blanks → o ∉ Text.octets blanks := by
    intro blanks hblanks hmem
    rw [hblanks _ (Text.mem_of_mem_octets hmem hascii)] at hblank
    cases hblank
  rw [Text.octets_append, Text.octets_append, List.mem_append, List.mem_append] at ho
  rcases ho with (ho | ho) | ho
  · exact hnone before hbefore ho
  · obtain ⟨n, hn, heq⟩ := Hex.exists_digitOctet_of_mem hdigits ho
    rw [(Hex.digitValue?_eq_some_iff hn).2 heq] at hdigit
    cases hdigit
  · exact hnone after hafter ho

/-! ## What a file gives -/

/-- **A text that stands for octets gives these.** -/
theorem fileOctets_of_isTextOf (h : IsTextOf contents bs) : fileOctets contents = bs := by
  obtain ⟨text, hform, hdenotes⟩ := h
  have htext : Text.ofOctets? contents = some text := Text.ofOctets?_eq_some_iff.2 hform
  have hread : Hex.decode (Text.trim text) = .ok bs := Hex.decode_trim_eq_ok_iff.2 hdenotes
  simp only [fileOctets, htext, hread]

/-- **Any other file gives its own octets.** -/
theorem fileOctets_eq_self (h : ∀ bs, ¬ IsTextOf contents bs) : fileOctets contents = contents := by
  unfold fileOctets
  cases htext : Text.ofOctets? contents with
  | none => rfl
  | some text =>
    dsimp only
    cases hread : Hex.decode (Text.trim text) with
    | error e => rfl
    | ok bs =>
      have htextual : IsTextOf contents bs :=
        ⟨text, Text.ofOctets?_eq_some_iff.1 htext, Hex.decode_trim_eq_ok_iff.1 hread⟩
      exact absurd htextual (h bs)

/-! ## The three ways -/

/-- The text of a block, in any letter case and among any blanks, is understood as such. -/
theorem readBlock_text {text : String} (h : Hex.Denotes text bs)
    (file : Option (Except FileError Octets)) : readBlock (some text) file = .ok bs := by
  have hread : Hex.decode (Text.trim text) = .ok bs := Hex.decode_trim_eq_ok_iff.2 h
  rw [readBlock, hread]
  rfl

/-- **The ways to give a reachable block.** Its text, in any letter case and among any blanks, gives its wire
form, and so does a file with that text. A file with the wire form gives it back unless it happens to be a
text that stands for octets; then it gives these, which are others. -/
theorem readBlock_routes (b : Block) (hreachable : b.Reachable) :
    Hex.Denotes b.toHex b.encode ∧
    (∀ text, Hex.Denotes text b.encode →
      (∀ file, readBlock (some text) file = .ok b.encode) ∧
        readBlock none (some (.ok (Text.octets text))) = .ok b.encode) ∧
    ((∀ bs, ¬ IsTextOf b.encode bs) → readBlock none (some (.ok b.encode)) = .ok b.encode) ∧
    ∀ bs, IsTextOf b.encode bs →
      readBlock none (some (.ok b.encode)) = .ok bs ∧ bs ≠ b.encode := by
  refine ⟨Hex.denotes_encode b.encode, fun text htext => ⟨readBlock_text htext, ?_⟩, fun hraw => ?_,
    fun bs htext => ⟨?_, ?_⟩⟩
  · exact congrArg Except.ok (fileOctets_of_isTextOf ⟨text, rfl, htext⟩)
  · exact congrArg Except.ok (fileOctets_eq_self hraw)
  · exact congrArg Except.ok (fileOctets_of_isTextOf htext)
  · -- octets that are not empty are fewer than those of their text
    rintro rfl
    have hlength := htext.length_le
    rw [hreachable.coherent.encode_eq, List.length_append, b.header.length_encode] at hlength
    have hheader : 0 < Header.size := by decide
    omega

/-- A block with a zero octet, given by its text in capital letters behind an ideographic space, and by its
octets; and a header made of zeros, the digits, behind a space, whose octets are a text for others. -/
theorem readBlock_routes_digits :
    let b := Block.withVersion 0xab 7
    let text := "\u3000 " ++ b.toHex.toUpper ++ "\n"
    (b.Reachable ∧ Hex.Denotes text b.encode ∧ (∀ bs, ¬ IsTextOf b.encode bs) ∧
      readBlock (some text) none = .ok b.encode ∧
      readBlock none (some (.ok (Text.octets text))) = .ok b.encode ∧
      readBlock none (some (.ok b.encode)) = .ok b.encode) ∧
    let header : Octets := 0x20 :: List.replicate 136 0x30
    ∃ c, Block.parse .main true header 0 = .ok c ∧ c.encode = header ∧
      IsTextOf c.encode (List.replicate 68 0) ∧
      readBlock none (some (.ok c.encode)) = .ok (List.replicate 68 0) := by
  intro b text
  refine ⟨?_, ?_⟩
  · have hreachable : b.Reachable := .constructed (.withVersion 0xab 7)
    have hdenotes : Hex.Denotes text b.encode :=
      ⟨"\u3000 ", b.toHex.toUpper, "\n", by decide, Hex.toLower_toUpper_encode _, by decide, rfl⟩
    have hzero : (0 : UInt8) ∈ b.encode := by decide +kernel
    have hraw : ∀ bs, ¬ IsTextOf b.encode bs := fun bs =>
      not_isTextOf_of_mem hzero (by decide) (by decide) (by decide)
    obtain ⟨-, htexts, hoctets, -⟩ := readBlock_routes b hreachable
    obtain ⟨hgiven, hfile⟩ := htexts text hdenotes
    exact ⟨hreachable, hdenotes, hraw, hgiven none, hfile, hoctets hraw⟩
  · intro header
    have hevaluated : ((Block.parse .main true header 0).toOption.any fun c => c.encode = header) = true := by
      decide +kernel
    obtain ⟨c, hparse, hwritten⟩ := Block.exists_of_toOption_any hevaluated
    have hencode : c.encode = header := of_decide_eq_true hwritten
    have htext : IsTextOf c.encode (List.replicate 68 0) := by
      refine ⟨" " ++ Hex.encode (List.replicate 68 0) ++ "", ?_, " ", _, "", by decide,
        Hex.toLower_encode _, nofun, rfl⟩
      rw [hencode, Text.octets_append, Text.octets_append, Hex.octets_encode]
      decide +kernel
    obtain ⟨-, -, -, hother⟩ := readBlock_routes c (.constructed (.parsed hparse))
    exact ⟨c, hparse, hencode, htext, (hother _ htext).1⟩

/-- **A file of two blocks**: behind blanks it is the text of one, and all of its octets are the other. Read
for the text, it does not give the octets. -/
theorem readBlock_file_of_two_blocks :
    let written : Octets := List.replicate 138 0 ++ 5 :: List.replicate 5 0
    let contents : Octets :=
      List.replicate 138 0x09 ++ List.replicate 277 0x30 ++ 0x35 :: List.replicate 10 0x30
    ∃ b c : Block, b.Reachable ∧ c.Reachable ∧ b.encode = contents ∧ c.encode = written ∧
      IsTextOf contents c.encode ∧ readBlock none (some (.ok b.encode)) = .ok c.encode ∧
      c.encode ≠ b.encode := by
  intro written contents
  have hevaluated : ((Block.parse .main true contents 0).toOption.any fun b =>
      (Block.parse .main true written 0).toOption.any fun c =>
        b.encode = contents ∧ c.encode = written) = true := by
    decide +kernel
  obtain ⟨b, hparse, hevaluated⟩ := Block.exists_of_toOption_any hevaluated
  obtain ⟨c, hparse', hwritten⟩ := Block.exists_of_toOption_any hevaluated
  obtain ⟨hb, hc⟩ := of_decide_eq_true hwritten
  have htext : IsTextOf contents c.encode := by
    refine ⟨.ofList (List.replicate 138 '\t') ++ Hex.encode c.encode ++ "", ?_, _, _, "", ?_,
      Hex.toLower_encode _, nofun, rfl⟩
    · rw [hc, Text.octets_append, Text.octets_append, Hex.octets_encode]
      decide +kernel
    · intro blank hblank
      rw [String.toList_ofList] at hblank
      rw [List.eq_of_mem_replicate hblank]
      decide
  refine ⟨b, c, .constructed (.parsed hparse), .constructed (.parsed hparse'), hb, hc, htext, ?_, ?_⟩
  · rw [hb]
    exact congrArg Except.ok (fileOctets_of_isTextOf htext)
  · rw [hb, hc]
    decide +kernel

end Command

end AnchoredLedger
