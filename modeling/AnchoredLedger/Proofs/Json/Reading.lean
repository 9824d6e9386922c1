import AnchoredLedger.Json.Record
import AnchoredLedger.Proofs.Json.Form

/-! # Reading what was written, value by value

A reader is right about a value if it reads it off each of its texts, whatever blanks are in front and
whatever may follow. Readers that are put together from right ones are right.

* **`Json.Reads`** — a reader that takes a value for something.
* **`reads_natural`**, **`reads_string`**, **`Reads.ofOption`**, **`Reads.listOf`** — simple values.
* **`Json.FieldsRead`** — fields that are read one after another into a record; **`reads_record`** — objects.
* **`Reads.ofText`** — whole texts; **`ofText_through`** tells what a text stands for by what it says. -/

namespace AnchoredLedger.Json

variable {α β ρ : Type}

/-- **A reader that takes a value for something**: it reads that off each text of the value. -/
def Reads (step : Step α) (v : Value) (a : α) : Prop :=
  ∀ text, Form v text → ∀ gap rest, Blanks gap → Delimited rest → step (gap ++ (text ++ rest)) = .ok (a, rest)

/-- What is made of what was read. -/
theorem Reads.map {step : Step α} {v : Value} {a : α} (h : Reads step v a) (f : α → β) :
    Reads (fun cs => (step cs).map fun r => (f r.1, r.2)) v (f a) := by
  intro text hform gap rest hgap hrest
  have hread := h text hform gap rest hgap hrest
  simp only [hread, Except.map]

/-! ## Simple values -/

/-- A number starts with a digit. -/
theorem exists_toDigits_eq (n : Nat) : ∃ d more, Nat.toDigits 10 n = d :: more ∧ isDigit d = true := by
  cases hdigits : Nat.toDigits 10 n with
  | nil => exact absurd hdigits Nat.toDigits_ne_nil
  | cons d more =>
    have hmem : d ∈ Nat.toDigits 10 n := hdigits ▸ List.mem_cons_self
    exact ⟨d, more, rfl, isDigit_of_mem_toDigits hmem⟩

/-- A digit is told from any character that is none. -/
theorem ne_of_isDigit {c d : Char} (hc : isDigit c = true) (hd : isDigit d = false) : c ≠ d := by
  rintro rfl
  rw [hd] at hc
  cases hc

/-- A digit is no blank. -/
theorem isSpace_eq_false_of_isDigit {c : Char} (h : isDigit c = true) : isSpace c = false := by
  cases hspace : isSpace c with
  | false => rfl
  | true =>
    have hblank := delimited_cons (.inl hspace) []
    rw [hblank.isDigit_eq_false rfl] at h
    cases h

/-- **A number is read** if it is within the bound and kept digit by digit. -/
theorem reads_natural {n bound : Nat} (h : n ≤ bound) (hexact : n ≤ maxExact) :
    Reads (natural bound) (.number n) n := by
  intro text hform gap rest hgap hrest
  cases hform
  have hscan := scanNumber_toDigits hexact hrest
  obtain ⟨d, more, hdigits, hd⟩ := exists_toDigits_eq n
  have hsign : d ≠ '-' := ne_of_isDigit hd rfl
  rw [hdigits, List.cons_append] at hscan ⊢
  unfold natural
  rw [skipSpace_gap hgap (isSpace_eq_false_of_isDigit hd)]
  simp only [if_neg hsign, if_pos hd, hscan, if_pos h]

/-- **A text is read**, whatever characters it has. -/
theorem reads_string (s : String) : Reads string (.text s) s := by
  intro text hform gap rest hgap hrest
  cases hform
  obtain ⟨body, hquoted, hbody⟩ := exists_quoted_append_eq s rest
  unfold string
  rw [hquoted, skipSpace_gap hgap rfl]
  simp only [hbody, Except.map, String.ofList_toList]

/-- A text that stands for a value is read as that value. -/
theorem reads_through {meaning? : String → Option α} {s : String} {a : α} (h : meaning? s = some a) :
    Reads (through meaning?) (.text s) a := by
  intro text hform gap rest hgap hrest
  have hstring := reads_string s text hform gap rest hgap hrest
  simp only [through, hstring, h]

/-! ## Values that may be null -/

theorem reads_optional_null (step : Step α) : Reads (optional step) .null none := by
  intro text hform gap rest hgap hrest
  cases hform
  unfold optional
  rw [List.cons_append, skipSpace_gap hgap rfl]
  rfl

/-- How the texts of a value start: with no blank, no mark that ends a list, and only null with an `n`. -/
theorem Form.exists_eq_cons {v : Value} {text : List Char} (h : Form v text) :
    ∃ c cs, text = c :: cs ∧ isSpace c = false ∧ c ≠ ']' ∧ (v ≠ .null → c ≠ 'n') := by
  cases h with
  | null => exact ⟨_, _, rfl, rfl, by decide, fun h => absurd rfl h⟩
  | number n =>
    obtain ⟨d, more, hdigits, hd⟩ := exists_toDigits_eq n
    exact ⟨d, more, hdigits, isSpace_eq_false_of_isDigit hd, ne_of_isDigit hd rfl, fun _ => ne_of_isDigit hd rfl⟩
  | text s => exact ⟨_, _, rfl, rfl, by decide, fun _ => by decide⟩
  | list hitems => exact ⟨_, _, rfl, rfl, by decide, fun _ => by decide⟩
  | object hfields => exact ⟨_, _, rfl, rfl, by decide, fun _ => by decide⟩

/-- What is there is read as such if it is not written as null. -/
theorem Reads.some {step : Step α} {v : Value} {a : α} (h : Reads step v a) (hv : v ≠ .null) :
    Reads (optional step) v (some a) := by
  intro text hform gap rest hgap hrest
  have hread := h text hform [] rest blanks_nil hrest
  obtain ⟨c, cs, rfl, hc, -, hnull⟩ := hform.exists_eq_cons
  rw [List.nil_append, List.cons_append] at hread
  unfold optional
  rw [List.cons_append, skipSpace_gap hgap hc]
  split
  · rename_i heq
    exact absurd (List.cons.inj heq).1 (hnull hv)
  · rw [hread]
    rfl

/-- **What may be absent is read**, there or not. -/
theorem Reads.ofOption {step : Step α} {form : α → Value} {o : Option α}
    (h : ∀ a ∈ o, Reads step (form a) a) (hform : ∀ a, form a ≠ .null) :
    Reads (optional step) (.ofOption form o) o := by
  cases o with
  | none => exact reads_optional_null step
  | some a => exact (h a rfl).some (hform a)

/-! ## Lists -/

/-- What stands before an item is passed over up to the item. -/
theorem Lead.nextItem_append {first : Bool} {lead : List Char} (h : Lead first lead) {c : Char}
    (cs : List Char) (hc : isSpace c = false) (hend : c ≠ ']') :
    nextItem first (lead ++ c :: cs) = .ok (true, c :: cs) := by
  cases h with
  | first hgap =>
    unfold nextItem
    rw [skipSpace_gap hgap hc]
    simp
  | further hgap hgap' =>
    unfold nextItem
    rw [List.append_assoc, List.cons_append, skipSpace_gap hgap rfl]
    simp [skipSpace_gap hgap' hc, hend]

/-- What stands before a further item or field goes on after a value. -/
theorem Lead.delimited_append {lead : List Char} (h : Lead false lead) (cs : List Char) :
    Delimited (lead ++ cs) := by
  cases h with
  | further hgap hgap' =>
    rw [List.append_assoc, List.cons_append]
    exact hgap.delimited_append (delimited_cons (.inr (.inl rfl)) _)

/-- Further items go on after a value, or end. -/
theorem ItemsForm.delimited_append {vs : List Value} {cs : List Char} (h : ItemsForm false vs cs)
    (rest : List Char) : Delimited (cs ++ rest) := by
  cases h with
  | nil hgap =>
    rw [List.append_assoc]
    exact hgap.delimited_append (delimited_cons (.inr (.inr (.inl rfl))) _)
  | cons hlead hv hvs =>
    rw [List.append_assoc]
    exact hlead.delimited_append _

/-- Every item takes a character, and so does the end. -/
theorem ItemsForm.length_lt {first : Bool} {vs : List Value} {cs : List Char} (h : ItemsForm first vs cs) :
    vs.length < cs.length := by
  induction vs generalizing first cs with
  | nil =>
    cases h
    simp
  | cons v vs ih =>
    cases h with
    | cons hlead hv hvs =>
      obtain ⟨c, more, rfl, -⟩ := hv.exists_eq_cons
      have hmore := ih hvs
      simp only [List.length_append, List.length_cons]
      omega

/-- **The items of a list are read one after another**, up to the mark that ends it. -/
theorem items_append {step : Step α} {form : α → Value} {as : List α} (h : ∀ a ∈ as, Reads step (form a) a)
    {first : Bool} {cs : List Char} (hform : ItemsForm first (as.map form) cs) {fuel : Nat}
    (hfuel : as.length < fuel) (rest : List Char) :
    items step fuel first (cs ++ rest) = .ok (as, ']' :: rest) := by
  induction as generalizing first cs fuel with
  | nil =>
    obtain ⟨fuel, rfl⟩ := Nat.exists_eq_add_one.2 hfuel
    cases hform with
    | nil hgap =>
      rw [items, List.append_assoc, nextItem, List.cons_append, skipSpace_gap hgap rfl]
      rfl
  | cons a as ih =>
    obtain ⟨fuel, rfl⟩ := Nat.exists_eq_add_one.2 (Nat.zero_lt_of_lt hfuel)
    obtain ⟨ha, has⟩ := List.forall_mem_cons.1 h
    cases hform with
    | @cons _ lead text others _ _ hlead hv hvs =>
      -- the item ends where the next one or the end of the list begins
      have hread := ha text hv [] (others ++ rest) blanks_nil (hvs.delimited_append rest)
      have hmore := ih has hvs (Nat.lt_of_succ_lt_succ hfuel)
      obtain ⟨c, cs, rfl, hc, hend, -⟩ := hv.exists_eq_cons
      rw [List.nil_append, List.cons_append] at hread
      rw [items, List.append_assoc, List.append_assoc, List.cons_append, hlead.nextItem_append _ hc hend]
      simp only [hread, hmore]

/-- **A list is read** if each of its items is. -/
theorem Reads.listOf {step : Step α} {form : α → Value} {as : List α} (h : ∀ a ∈ as, Reads step (form a) a) :
    Reads (listOf step) (.list (as.map form)) as := by
  intro text hform gap rest hgap hrest
  cases hform with
  | @list _ cs hitems =>
    have hfuel : as.length < (cs ++ rest).length + 1 := by
      have hlength := hitems.length_lt
      rw [List.length_map] at hlength
      rw [List.length_append]
      omega
    have hread := items_append h hitems hfuel rest
    unfold Json.listOf
    rw [List.cons_append, skipSpace_gap hgap rfl]
    simp only [hread]
    rfl

/-! ## Objects -/

/-- What stands before a field is passed over up to its name. -/
theorem Lead.nextField_append {first : Bool} {lead : List Char} (h : Lead first lead) (cs : List Char) :
    nextField first (lead ++ '"' :: cs) = .ok (true, cs) := by
  cases h with
  | first hgap =>
    unfold nextField
    rw [skipSpace_gap hgap rfl]
    rfl
  | further hgap hgap' =>
    unfold nextField
    rw [List.append_assoc, List.cons_append, skipSpace_gap hgap rfl]
    simp [skipSpace_gap hgap' (c := '"') rfl]

theorem colon_append {gap : List Char} (h : Blanks gap) (cs : List Char) :
    colon (gap ++ ':' :: cs) = .ok ((), cs) := by
  unfold colon
  rw [skipSpace_gap h rfl]
  rfl

/-- Further fields go on after a value, or end. -/
theorem FieldsForm.delimited_append {fs : List (String × Value)} {cs : List Char} (h : FieldsForm false fs cs)
    (rest : List Char) : Delimited (cs ++ rest) := by
  cases h with
  | nil hgap =>
    rw [List.append_assoc]
    exact hgap.delimited_append (delimited_cons (.inr (.inr (.inr rfl))) _)
  | cons name hlead hgap hgap' hv hfs =>
    rw [List.append_assoc]
    exact hlead.delimited_append _

/-- Every field takes a character, and so does the end. -/
theorem FieldsForm.length_lt {first : Bool} {fs : List (String × Value)} {cs : List Char}
    (h : FieldsForm first fs cs) : fs.length < cs.length := by
  induction fs generalizing first cs with
  | nil =>
    cases h
    simp
  | cons f fs ih =>
    cases h with
    | cons name hlead hgap hgap' hv hfs =>
      have hmore := ih hfs
      simp only [List.length_append, List.length_cons]
      omega

/-- **Fields that are read one after another into a record**: each is known, none has been read before, and
its reader takes its value for what goes into the record. -/
inductive FieldsRead (fields : List (Field ρ)) : ρ → List (String × Value) → ρ → Prop
  /-- No more fields. -/
  | nil (r : ρ) : FieldsRead fields r [] r
  /-- One more field. -/
  | cons {r r' r'' : ρ} {name : String} {v : Value} {fs : List (String × Value)} (f : Field ρ)
      (hknown : (fields.find? fun f => f.name == name) = .some f) (hnew : f.given r = false)
      (hread : Reads (f.read r) v r') (hfs : FieldsRead fields r' fs r'') :
      FieldsRead fields r ((name, v) :: fs) r''

/-- One more field whose value goes into a component of the record that is still empty. -/
theorem FieldsRead.field {fields : List (Field ρ)} {r r' : ρ} {name : String} {step : Step α}
    {get : ρ → Option α} {set : ρ → α → ρ} {v : Value} {a : α} {fs : List (String × Value)}
    (hknown : (fields.find? fun f => f.name == name) = some (Json.field name step get set))
    (hnew : get r = none) (hread : Reads step v a) (hfs : FieldsRead fields (set r a) fs r') :
    FieldsRead fields r ((name, v) :: fs) r' :=
  .cons _ hknown (congrArg Option.isSome hnew) (hread.map (set r)) hfs

/-- **The fields of an object are read one after another**, with its end. -/
theorem FieldsRead.fieldMap_append {fields : List (Field ρ)} {r r' : ρ} {fs : List (String × Value)}
    (h : FieldsRead fields r fs r') {first : Bool} {cs : List Char} (hform : FieldsForm first fs cs) {fuel : Nat}
    (hfuel : fs.length < fuel) (rest : List Char) :
    fieldMap fields fuel first r (cs ++ rest) = .ok (r', rest) := by
  induction h generalizing first cs fuel with
  | nil r =>
    obtain ⟨fuel, rfl⟩ := Nat.exists_eq_add_one.2 hfuel
    cases hform with
    | nil hgap =>
      rw [fieldMap, List.append_assoc, nextField, List.cons_append, skipSpace_gap hgap rfl]
      rfl
  | @cons r r' r'' name v fs f hknown hnew hread hfs ih =>
    obtain ⟨fuel, rfl⟩ := Nat.exists_eq_add_one.2 (Nat.zero_lt_of_lt hfuel)
    cases hform with
    | @cons _ lead gap gap' text others _ _ _ hlead hgap hgap' hv hothers =>
      have hvalue := hread text hv gap' (others ++ rest) hgap' (hothers.delimited_append rest)
      have hmore := ih hothers (Nat.lt_of_succ_lt_succ hfuel)
      have hcolon := colon_append hgap (gap' ++ (text ++ (others ++ rest)))
      obtain ⟨body, hquoted, hname⟩ :=
        exists_quoted_append_eq name (gap ++ ':' :: (gap' ++ (text ++ (others ++ rest))))
      simp only [fieldMap, List.append_assoc, List.cons_append]
      rw [hquoted, hlead.nextField_append]
      -- the name says which field it is, and that has not been read before
      simp only [hname, String.ofList_toList, fieldValue, hknown, hnew, Bool.false_eq_true, if_false, hcolon,
        hvalue, hmore]

/-- **An object is read** if its fields are, and make a complete record. -/
theorem reads_record {fields : List (Field ρ)} {empty r : ρ} {complete? : ρ → Option α}
    {fs : List (String × Value)} {a : α} (h : FieldsRead fields empty fs r) (hcomplete : complete? r = some a) :
    Reads (record fields empty complete?) (.object fs) a := by
  intro text hform gap rest hgap hrest
  cases hform with
  | @object _ cs hfields =>
    have hfuel : fs.length < (cs ++ rest).length + 1 := by
      have hlength := hfields.length_lt
      rw [List.length_append]
      omega
    have hread := h.fieldMap_append hfields hfuel rest
    unfold record
    rw [List.cons_append, skipSpace_gap hgap rfl]
    simp only [hread, hcomplete]

/-! ## Whole texts -/

/-- What a reader takes a value for is read off a whole text of that value. -/
theorem Reads.ofText {step : Step α} {v : Value} {a : α} (h : Reads step v a) {s : String}
    (hform : Form v s.toList) : ofText step s = .ok a := by
  have hread := h s.toList hform [] [] blanks_nil delimited_nil
  rw [List.nil_append, List.append_nil] at hread
  unfold Json.ofText
  rw [hread]
  rfl

/-- A whole text that stands for a value is read as that value, and refused for its content if it stands for
none. -/
theorem ofText_through (meaning? : String → Option α) {s t : String} (h : Json.ofText string s = .ok t) :
    Json.ofText (through meaning?) s = (meaning? t).elim (.error .content) .ok := by
  unfold Json.ofText at h ⊢
  cases hstring : string s.toList with
  | error e => simp [hstring] at h
  | ok r =>
    obtain ⟨u, rest⟩ := r
    simp only [hstring] at h
    by_cases hend : (skipSpace rest).isEmpty = true
    · rw [if_pos hend] at h
      cases h
      cases hmeaning : meaning? t with
      | none => simp only [through, hstring, hmeaning, Option.elim_none]
      | some a => simp only [through, hstring, hmeaning, if_pos hend, Option.elim_some]
    · rw [if_neg hend] at h
      cases h

/-- **What is written on one line is read back.** -/
theorem Reads.ofText_compact {step : Step α} {v : Value} {a : α} (h : Reads step v a) :
    Json.ofText step v.compact = .ok a :=
  h.ofText (form_compact v)

end AnchoredLedger.Json
