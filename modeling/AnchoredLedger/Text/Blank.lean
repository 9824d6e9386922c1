/-! # White space around a text

A hexadecimal text may stand among blanks. The blanks are the characters with the Unicode property
`White_Space`; they are dropped at both ends and nowhere else.

* **`Text.isBlank c`** — the property, as ranges of code points.
* **`Text.trim s`** — the text without the blanks at its ends. -/

namespace AnchoredLedger.Text

/-- **The characters with the property `White_Space`**, as inclusive ranges of code points. -/
def blankRanges : List (Nat × Nat) :=
  [(0x09, 0x0D), (0x20, 0x20), (0x85, 0x85), (0xA0, 0xA0), (0x1680, 0x1680), (0x2000, 0x200A),
    (0x2028, 0x2029), (0x202F, 0x202F), (0x205F, 0x205F), (0x3000, 0x3000)]

/-- Whether a character is white space. -/
def isBlank (c : Char) : Bool := blankRanges.any fun r => r.1 ≤ c.toNat && c.toNat ≤ r.2

/-- A list of characters without the blanks it starts with. -/
def dropBlanks (cs : List Char) : List Char := cs.dropWhile isBlank

/-- A list of characters without the blanks at both ends. -/
def trimList (cs : List Char) : List Char := (dropBlanks (dropBlanks cs).reverse).reverse

/-- **A text without the blanks at its ends.** -/
def trim (s : String) : String := String.ofList (trimList s.toList)

/-- Every character that is white space in ASCII is a blank. -/
theorem isBlank_of_isWhitespace {c : Char} (h : c.isWhitespace = true) : isBlank c = true := by
  simp only [Char.isWhitespace, Bool.or_eq_true, decide_eq_true_eq] at h
  rcases h with ((h | h) | h) | h <;> subst h <;> decide

@[simp] theorem trimList_nil : trimList [] = [] := rfl

end AnchoredLedger.Text
