import AnchoredLedger.Json.Lexical
import AnchoredLedger.Json.Value
import AnchoredLedger.Proofs.Text

/-! # Reading what was written, word by word

Every character of a text is read back from its escape, so a text is read back whatever characters it has.
Numbers are read back up to the largest that is kept digit by digit, provided that what follows cannot be
taken for more of them.

* **`Json.Blanks`** — the blanks between the parts of a text.
* **`Json.textBody_flatMap_escaped`** — texts.
* **`Json.Delimited`** — what may follow a value; **`Json.scanNumber_toDigits`** — numbers before it. -/

namespace AnchoredLedger.Json

/-! ## Blanks -/

/-- **Blanks** and nothing else. -/
def Blanks (cs : List Char) : Prop := ∀ c ∈ cs, isSpace c = true

theorem blanks_nil : Blanks [] := nofun

/-- Blanks in front are dropped before anything else is looked at. -/
theorem skipSpace_append {gap cs : List Char} (h : Blanks gap) : skipSpace (gap ++ cs) = skipSpace cs :=
  List.dropWhile_append_of_pos h

/-- Nothing is dropped in front of a character that is no blank. -/
theorem skipSpace_cons {c : Char} {cs : List Char} (h : isSpace c = false) : skipSpace (c :: cs) = c :: cs :=
  List.dropWhile_cons_of_neg (ne_true_of_eq_false h)

/-- Blanks are dropped up to the next character that is none. -/
theorem skipSpace_gap {gap cs : List Char} {c : Char} (hgap : Blanks gap) (h : isSpace c = false) :
    skipSpace (gap ++ c :: cs) = c :: cs := by
  rw [skipSpace_append hgap, skipSpace_cons h]

/-! ## Texts -/

/-- A control character is read back from its number. -/
theorem textBody_control {n : Nat} (h : n < 32) (done rest : List Char) :
    textBody done ('\\' :: 'u' :: '0' :: '0' :: hexDigit (n / 16) :: hexDigit n :: rest) =
      textBody (Char.ofNat n :: done) rest := by
  have hquad : ∀ n < 32, hexQuad? '0' '0' (hexDigit (n / 16)) (hexDigit n) = some n := by decide
  have hlow : ∀ n < 32, isLowSurrogate n = false := by decide
  have hhigh : ∀ n < 32, isHighSurrogate n = false := by decide
  simp only [textBody, hquad n h, hlow n h, hhigh n h, Bool.false_eq_true, if_false]

/-- **A character is read back from its escape.** -/
theorem textBody_escaped (c : Char) (done rest : List Char) :
    textBody done (escaped c ++ rest) = textBody (c :: done) rest := by
  unfold escaped
  by_cases hquote : c = '"'
  · rw [if_pos hquote, hquote]
    rfl
  by_cases hslash : c = '\\'
  · rw [if_neg hquote, if_pos hslash, hslash]
    rfl
  rw [if_neg hquote, if_neg hslash]
  -- five control characters have a letter of their own
  iterate 5
    split
    · rename_i heq
      rw [heq]
      rfl
  split
  · rename_i hcontrol
    have hread := textBody_control hcontrol done rest
    rwa [Char.ofNat_toNat] at hread
  · rename_i hplain
    rw [List.singleton_append, textBody]
    · rw [if_neg hplain]
    · exact hquote
    all_goals
      -- the other ways to read it are for escapes
      intros
      contradiction

/-- **A text is read back**, behind any characters that were read before. -/
theorem textBody_flatMap_escaped (cs done rest : List Char) :
    textBody done (cs.flatMap escaped ++ '"' :: rest) = .ok (done.reverse ++ cs, rest) := by
  induction cs generalizing done with
  | nil => rw [List.flatMap_nil, List.nil_append, textBody, List.append_nil]
  | cons c cs ih =>
    rw [List.flatMap_cons, List.append_assoc, textBody_escaped, ih, List.reverse_cons, List.append_assoc,
      List.singleton_append]

/-- What is written for a text is a quote, and what is read as the text behind it. -/
theorem exists_quoted_append_eq (s : String) (rest : List Char) :
    ∃ body, quoted s ++ rest = '"' :: body ∧ textBody [] body = .ok (s.toList, rest) := by
  refine ⟨s.toList.flatMap escaped ++ '"' :: rest, ?_, textBody_flatMap_escaped s.toList [] rest⟩
  rw [quoted, List.cons_append, List.cons_append, List.append_assoc, List.singleton_append]

/-! ## Numbers -/

/-- **What may follow a value**: nothing, a blank, or a mark that goes on or ends. -/
def Delimited (cs : List Char) : Prop :=
  ∀ c ∈ cs.head?, isSpace c = true ∨ c = ',' ∨ c = ']' ∨ c = '\x7d'

theorem delimited_nil : Delimited [] := nofun

theorem delimited_cons {c : Char} (h : isSpace c = true ∨ c = ',' ∨ c = ']' ∨ c = '\x7d') (cs : List Char) :
    Delimited (c :: cs) := fun d hd => by
  cases hd
  exact h

/-- Blanks may stand before a mark. -/
theorem Blanks.delimited_append {gap cs : List Char} (h : Blanks gap) (hcs : Delimited cs) :
    Delimited (gap ++ cs) := by
  cases gap with
  | nil => exact hcs
  | cons c gap => exact delimited_cons (.inl (h c List.mem_cons_self)) _

/-- What follows a value is told from any character that is neither blank nor mark. -/
theorem Delimited.ne {c d : Char} {cs : List Char} (h : Delimited (c :: cs))
    (hd : isSpace d = false ∧ d ≠ ',' ∧ d ≠ ']' ∧ d ≠ '\x7d') : c ≠ d := by
  rintro rfl
  obtain ⟨hspace, hmarks⟩ := hd
  rcases h c rfl with hblank | hmark
  · rw [hspace] at hblank
    cases hblank
  · rcases hmark with hcomma | hlist | hobject
    · exact hmarks.1 hcomma
    · exact hmarks.2.1 hlist
    · exact hmarks.2.2 hobject

/-- What follows a value does not start with a digit. -/
theorem Delimited.isDigit_eq_false {c : Char} {cs : List Char} (h : Delimited cs) (hc : c ∈ cs.head?) :
    isDigit c = false := by
  rcases h c hc with hblank | rfl | rfl | rfl
  · simp only [isSpace, Bool.or_eq_true, beq_iff_eq] at hblank
    rcases hblank with ((rfl | rfl) | rfl) | rfl <;> rfl
  all_goals rfl

/-- More digits make no smaller number. -/
theorem le_ofDigitChars (ds : List Char) (n : Nat) : n ≤ Nat.ofDigitChars 10 ds n := by
  induction ds generalizing n with
  | nil => exact Nat.le_refl n
  | cons c ds ih =>
    rw [Nat.ofDigitChars_cons]
    have hmore := ih (10 * n + (c.toNat - '0'.toNat))
    omega

/-- Digits are appended up to the last one if the number stays exact. -/
theorem appendDigits_eq (ds : List Char) {n : Nat} (h : Nat.ofDigitChars 10 ds n ≤ maxExact) :
    appendDigits n ds = (Nat.ofDigitChars 10 ds n, []) := by
  induction ds generalizing n with
  | nil => rfl
  | cons c ds ih =>
    rw [Nat.ofDigitChars_cons] at h ⊢
    have hexact : ¬ maxExact < 10 * n + (c.toNat - 48) := Nat.not_lt.2 (Nat.le_trans (le_ofDigitChars ds _) h)
    rw [appendDigits, if_neg hexact]
    exact ih h

theorem isDigit_of_mem_toDigits {n : Nat} {c : Char} (h : c ∈ Nat.toDigits 10 n) : isDigit c = true :=
  Nat.isDigit_of_mem_toDigits (by decide) (by decide) h

/-- No number but zero starts with a zero. -/
theorem eq_nil_of_toDigits_eq {n : Nat} {more : List Char} (h : Nat.toDigits 10 n = '0' :: more) :
    more = [] := by
  induction n using Nat.strongRecOn generalizing more with
  | ind n ih =>
    rw [Nat.toDigits_eq_if (by decide)] at h
    by_cases hone : n < 10
    · rw [if_pos hone] at h
      exact (List.cons.inj h).2.symm
    · -- otherwise the digits in front of the last one would be a single zero
      rw [if_neg hone] at h
      obtain ⟨front, hfront⟩ : ∃ front, Nat.toDigits 10 (n / 10) = '0' :: front := by
        cases hdigits : Nat.toDigits 10 (n / 10) with
        | nil => exact absurd hdigits Nat.toDigits_ne_nil
        | cons d front =>
          rw [hdigits] at h
          exact ⟨front, by rw [(List.cons.inj h).1]⟩
      have hsingle := ih (n / 10) (by omega) hfront
      have hzero : n / 10 = 0 := by
        rw [← Nat.ofDigitChars_ten_toDigits (n := n / 10), hfront, hsingle]
        rfl
      omega

/-- **A number is read back** up to the largest that is kept digit by digit. -/
theorem scanNumber_toDigits {n : Nat} {rest : List Char} (hn : n ≤ maxExact) (hrest : Delimited rest) :
    scanNumber false (Nat.toDigits 10 n ++ rest) = .ok (some n, rest) := by
  obtain ⟨htake, hdrop⟩ := Text.span_append (fun c => isDigit_of_mem_toDigits (n := n))
    fun c => hrest.isDigit_eq_false
  have hvalue : Nat.ofDigitChars 10 (Nat.toDigits 10 n) 0 = n := Nat.ofDigitChars_ten_toDigits
  have hexact := appendDigits_eq (Nat.toDigits 10 n) (n := 0) (by rwa [hvalue])
  rw [hvalue] at hexact
  unfold scanNumber
  simp only [htake, hdrop]
  cases hdigits : Nat.toDigits 10 n with
  | nil => exact absurd hdigits Nat.toDigits_ne_nil
  | cons d more =>
    -- a zero in front would have nothing behind it
    have hfront : ¬ (d = '0' ∧ (!more.isEmpty) = true) := by
      rintro ⟨rfl, hmore⟩
      rw [eq_nil_of_toDigits_eq hdigits] at hmore
      cases hmore
    rw [hdigits] at hexact
    simp only [if_neg hfront, hexact, List.isEmpty_nil, Bool.not_true, Bool.false_eq_true, if_false]
    cases rest with
    | nil => rfl
    | cons c rest =>
      -- and what follows starts neither a fraction nor an exponent
      have hpoint : c ≠ '.' := hrest.ne (by decide)
      have hmark : ¬ (c = 'e' ∨ c = 'E') := not_or.2 ⟨hrest.ne (by decide), hrest.ne (by decide)⟩
      simp only [if_neg hpoint, if_neg hmark]

end AnchoredLedger.Json
