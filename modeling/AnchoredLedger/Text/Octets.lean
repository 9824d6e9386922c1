import AnchoredLedger.Octets

/-! # Texts as octets

Texts meet octets in two places: hexadecimal digits are counted and located by octet, and a file
is taken as text when its octets are well-formed.

* **`Text.octets s`** — the UTF-8 form of a text, character by character.
* **`Text.ofOctets? bs`** — the text with that form, if there is one. -/

namespace AnchoredLedger.Text

/-- **The UTF-8 form of a text**: the forms of its characters, one after the other. -/
def octets (s : String) : Octets := s.toList.flatMap String.utf8EncodeChar

/-- The text whose UTF-8 form is given, if the octets are well-formed. -/
def ofOctets? (bs : Octets) : Option String := String.fromUTF8? (ByteArray.mk bs.toArray)

/-- Octets below 128 taken as characters of the same number: the form of an ASCII text. -/
def ofAscii (bs : Octets) : String := String.ofList (bs.map fun b => Char.ofNat b.toNat)

@[simp] theorem octets_empty : octets "" = [] := rfl

theorem octets_append (s t : String) : octets (s ++ t) = octets s ++ octets t := by
  simp [octets]

end AnchoredLedger.Text
