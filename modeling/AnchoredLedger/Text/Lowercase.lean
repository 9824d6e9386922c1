import AnchoredLedger.Text.CaseTable

/-! # Texts in small letters

Every character gives way to its small form. The capital sigma has two of them: the final one is
written at the end of a word, which is where a letter stands before it and none behind, characters
without bearing on case being passed over.

* **`Text.lowercase s`** — the text in small letters.
* **`Text.lowerChar c`** — the small form of a character outside any text.
* **`Text.isFinal before after`** — whether a sigma between the two ends a word. -/

namespace AnchoredLedger.Text

/-- The small form of a character outside any text. The capital I with a dot keeps its dot as a
combining character. -/
def lowerChar (c : Char) : List Char :=
  if c = '\u0130' then ['i', '\u0307']
  else
    match smallForms.find? fun r => r.covers c.toNat with
    | some r => [Char.ofNat (r.target + (c.toNat - r.first))]
    | none => [c]

/-- Whether the first character with bearing on case is a cased one. -/
def meetsCased (cs : List Char) : Bool :=
  match cs.dropWhile isCaseIgnorable with
  | c :: _ => isCased c
  | [] => false

/-- **Whether a word ends between two parts of a text**; the part before is given nearest first. -/
def isFinal (before after : List Char) : Bool := meetsCased before && !meetsCased after

/-- The small letters of a text, given the characters before it, nearest first. -/
def lowerFrom (before : List Char) : List Char → List Char
  | [] => []
  | c :: after =>
    let small :=
      if c = '\u03A3' then [if isFinal before after then '\u03C2' else '\u03C3'] else lowerChar c
    small ++ lowerFrom (c :: before) after

/-- **The text in small letters.** -/
def lowercase (s : String) : String := String.ofList (lowerFrom [] s.toList)

@[simp] theorem lowerFrom_nil (before : List Char) : lowerFrom before [] = [] := rfl

end AnchoredLedger.Text
