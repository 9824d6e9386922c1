import AnchoredLedger.Proofs.Identity
import AnchoredLedger.Proofs.Text
import AnchoredLedger.Text.Lowercase

/-! # Identities in either letter case

An identity is written in small letters before it is digested. Small letters depend on their neighbours only
at the capital sigma, and there only on whether a neighbour has a case, which an ASCII letter has whether it
is capital or small. So the case of ASCII letters makes no difference, not even across the seam between
number and salt.

* **`Text.apply_toLower`** — what is the same for the small and the capital letters of ASCII.
* **`Text.lowerFrom_map_toLower`** — the small letters of a part of a text, whatever the case of the letters
  in it and before it; **`Text.lowercase_congr`** says it of whole texts.
* **`Identity.derive_ignores_letter_case`** — identities that differ in letter case only. -/

namespace AnchoredLedger

namespace Text

/-! ## Characters -/

/-- Only the capital letters of ASCII have another small letter. -/
theorem toLower_cases (c : Char) :
    c.toLower = c ∨ ∃ n < 26, c = Char.ofNat (65 + n) ∧ c.toLower = Char.ofNat (97 + n) := by
  by_cases hascii : c.toNat < 128
  · exact forall_ascii (P := fun c => c.toLower = c ∨
      ∃ n < 26, c = Char.ofNat (65 + n) ∧ c.toLower = Char.ofNat (97 + n)) (by decide +kernel) hascii
  · exact .inl (toLower_of_ge (Nat.not_lt.1 hascii))

/-- **What is the same for the capital and the small letters of ASCII** tells no characters apart by case. -/
theorem apply_toLower {α : Type} {f : Char → α}
    (h : ∀ n < 26, f (Char.ofNat (97 + n)) = f (Char.ofNat (65 + n))) (c : Char) : f c.toLower = f c := by
  rcases toLower_cases c with hsame | ⟨n, hn, hcapital, hsmall⟩
  · rw [hsame]
  · rw [hsmall, hcapital]
    exact h n hn

theorem isCased_toLower (c : Char) : isCased c.toLower = isCased c :=
  apply_toLower (by decide +kernel) c

theorem isCaseIgnorable_toLower (c : Char) : isCaseIgnorable c.toLower = isCaseIgnorable c :=
  apply_toLower (by decide +kernel) c

theorem lowerChar_toLower (c : Char) : lowerChar c.toLower = lowerChar c :=
  apply_toLower (by decide +kernel) c

/-- The capital sigma is no letter of ASCII, and none becomes one. -/
theorem toLower_eq_sigma_iff {c : Char} : c.toLower = '\u03A3' ↔ c = '\u03A3' := by
  have hsigma := apply_toLower (f := fun c => decide (c = '\u03A3')) (by decide +kernel) c
  rwa [decide_eq_decide] at hsigma

/-! ## Texts -/

/-- Whether a cased character is met does not depend on letter case. -/
theorem meetsCased_map_toLower (cs : List Char) : meetsCased (cs.map Char.toLower) = meetsCased cs := by
  have hpassed : isCaseIgnorable ∘ Char.toLower = isCaseIgnorable := by
    funext c
    exact isCaseIgnorable_toLower c
  unfold meetsCased
  rw [List.dropWhile_map, hpassed]
  cases cs.dropWhile isCaseIgnorable with
  | nil => rfl
  | cons c rest => exact isCased_toLower c

/-- **The small letters of a part of a text** do not depend on the case of the letters in it or before it. -/
theorem lowerFrom_map_toLower (before cs : List Char) :
    lowerFrom (before.map Char.toLower) (cs.map Char.toLower) = lowerFrom before cs := by
  induction cs generalizing before with
  | nil => rfl
  | cons c after ih =>
    have hrest := ih (c :: before)
    rw [List.map_cons] at hrest
    have hfinal : isFinal (before.map Char.toLower) (after.map Char.toLower) = isFinal before after := by
      unfold isFinal
      rw [meetsCased_map_toLower, meetsCased_map_toLower]
    rw [List.map_cons, lowerFrom, lowerFrom, hrest, hfinal, lowerChar_toLower]
    by_cases hsigma : c = '\u03A3'
    · rw [if_pos hsigma, if_pos (toLower_eq_sigma_iff.2 hsigma)]
    · rw [if_neg hsigma, if_neg (mt toLower_eq_sigma_iff.1 hsigma)]

theorem lowercase_toLower (s : String) : lowercase s.toLower = lowercase s := by
  unfold lowercase
  rw [toList_toLower]
  exact congrArg String.ofList (lowerFrom_map_toLower [] s.toList)

/-- **Texts that differ in the case of ASCII letters only** have the same small letters. -/
theorem lowercase_congr {s t : String} (h : s.toLower = t.toLower) : lowercase s = lowercase t := by
  rw [← lowercase_toLower s, h, lowercase_toLower]

end Text

namespace Identity

variable {number salt number' salt' planKey : String}

/-! ## Identities -/

/-- The chain starts from number and salt in small letters. -/
theorem seed_congr (h : Text.lowercase (number ++ salt) = Text.lowercase (number' ++ salt')) :
    seed number salt planKey = seed number' salt' planKey := by
  unfold seed
  rw [h]

/-- Identities without an empty part are told apart by the start of their chains only. -/
theorem derive_congr (hnumber : number ≠ "") (hsalt : salt ≠ "") (hnumber' : number' ≠ "")
    (hsalt' : salt' ≠ "") (h : seed number salt planKey = seed number' salt' planKey) :
    derive number salt planKey = derive number' salt' planKey := by
  have hparts : (number.isEmpty || salt.isEmpty || planKey.isEmpty) =
      (number'.isEmpty || salt'.isEmpty || planKey.isEmpty) := by
    have hnone : ∀ s : String, s ≠ "" → s.isEmpty = false := fun s h => by simpa using h
    rw [hnone _ hnumber, hnone _ hsalt, hnone _ hnumber', hnone _ hsalt']
  unfold derive
  rw [hparts, h]

/-- **Letter case makes no difference to an identity.** Where number and salt together differ from another
number and salt in the case of ASCII letters only, however they are divided and whatever other characters
stand among the letters, both have the same key under every plan key, or the same refusal. -/
theorem derive_ignores_letter_case (number salt number' salt' planKey : String) (hnumber : number ≠ "")
    (hsalt : salt ≠ "") (hnumber' : number' ≠ "") (hsalt' : salt' ≠ "")
    (hletters : (number ++ salt).toLower = (number' ++ salt').toLower) :
    derive number salt planKey = derive number' salt' planKey :=
  derive_congr hnumber hsalt hnumber' hsalt' (seed_congr (Text.lowercase_congr hletters))

/-- A capital sigma that is the last letter of one number and the first of another salt. At the end of the
number a word would end, but not between number and salt. -/
theorem derive_ignores_letter_case_sigma_at_seam :
    let planKey := "0335ebbda8254cff61bcbe29c3cf7379f4bc8edc7ee0805960e39c17fa9dcfc87a"
    "7x\u03A3" ≠ "" ∧ "Yz" ≠ "" ∧ "7X" ≠ "" ∧ "\u03A3yZ" ≠ "" ∧
      ("7x\u03A3" ++ "Yz").toLower = ("7X" ++ "\u03A3yZ").toLower ∧
      derive "7x\u03A3" "Yz" planKey = derive "7X" "\u03A3yZ" planKey ∧
      Text.isFinal ['x', '7'] [] = true ∧ Text.isFinal ['x', '7'] ['Y', 'z'] = false := by
  intro planKey
  have hletters : ("7x\u03A3" ++ "Yz").toLower = ("7X" ++ "\u03A3yZ").toLower := by
    rw [← String.toList_inj, Text.toList_toLower, Text.toList_toLower]
    decide
  have hsame : derive "7x\u03A3" "Yz" planKey = derive "7X" "\u03A3yZ" planKey :=
    derive_ignores_letter_case "7x\u03A3" "Yz" "7X" "\u03A3yZ" planKey (by decide) (by decide)
      (by decide) (by decide) hletters
  exact ⟨by decide, by decide, by decide, by decide, hletters, hsame, by decide +kernel,
    by decide +kernel⟩

end Identity

end AnchoredLedger
