import AnchoredLedger.Proofs.Json.Lexical

/-! # The texts of a value

A value has many texts: blanks may stand anywhere between its parts. The one on one line and the one over
lines are two of them.

* **`Json.Form`** — the texts of a value, with `ItemsForm` and `FieldsForm` for what is within a list and an
  object.
* **`Json.form_compactChars`**, **`Json.form_prettyChars`** — both written texts are among them. -/

namespace AnchoredLedger.Json

/-! ## Texts with any blanks -/

/-- What stands before the next item or field: blanks, and a comma among them unless it is the first. -/
inductive Lead : Bool → List Char → Prop
  /-- Before the first one. -/
  | first {gap : List Char} (h : Blanks gap) : Lead true gap
  /-- Before any other. -/
  | further {gap gap' : List Char} (h : Blanks gap) (h' : Blanks gap') : Lead false (gap ++ ',' :: gap')

mutual

/-- **The texts of a value**, with blanks in any places between its parts. -/
inductive Form : Value → List Char → Prop
  /-- No value. -/
  | null : Form .null ['n', 'u', 'l', 'l']
  /-- A number by its digits. -/
  | number (n : Nat) : Form (.number n) (Nat.toDigits 10 n)
  /-- A text between quotes. -/
  | text (s : String) : Form (.text s) (quoted s)
  /-- A list between brackets. -/
  | list {vs : List Value} {cs : List Char} (h : ItemsForm true vs cs) : Form (.list vs) ('[' :: cs)
  /-- An object between braces. -/
  | object {fs : List (String × Value)} {cs : List Char} (h : FieldsForm true fs cs) :
      Form (.object fs) ('\x7b' :: cs)

/-- The texts of the further items of a list, with its end. -/
inductive ItemsForm : Bool → List Value → List Char → Prop
  /-- The end alone. -/
  | nil {first : Bool} {gap : List Char} (h : Blanks gap) : ItemsForm first [] (gap ++ [']'])
  /-- One more item. -/
  | cons {first : Bool} {lead text cs : List Char} {v : Value} {vs : List Value} (hlead : Lead first lead)
      (hv : Form v text) (hvs : ItemsForm false vs cs) :
      ItemsForm first (v :: vs) (lead ++ (text ++ cs))

/-- The texts of the further fields of an object, with its end. -/
inductive FieldsForm : Bool → List (String × Value) → List Char → Prop
  /-- The end alone. -/
  | nil {first : Bool} {gap : List Char} (h : Blanks gap) : FieldsForm first [] (gap ++ ['\x7d'])
  /-- One more field. -/
  | cons {first : Bool} {lead gap gap' text cs : List Char} (name : String) {v : Value}
      {fs : List (String × Value)} (hlead : Lead first lead) (hgap : Blanks gap) (hgap' : Blanks gap')
      (hv : Form v text) (hfs : FieldsForm false fs cs) :
      FieldsForm first ((name, v) :: fs) (lead ++ (quoted name ++ (gap ++ ':' :: (gap' ++ (text ++ cs)))))

end

/-! ## On one line -/

mutual

/-- **The text on one line** is a text of the value: there are no blanks at all. -/
theorem form_compactChars : ∀ v : Value, Form v v.compactChars
  | .null => .null
  | .number n => .number n
  | .text s => .text s
  | .list [] => .list (.nil blanks_nil)
  | .list (v :: vs) => .list (.cons (.first blanks_nil) (form_compactChars v) (itemsForm_compactItems vs))
  | .object [] => .object (.nil blanks_nil)
  | .object ((name, v) :: fs) => by
    have hfields := FieldsForm.cons name (.first blanks_nil) blanks_nil blanks_nil
      (form_compactChars v) (fieldsForm_compactFields fs)
    have hform := Form.object hfields
    simpa only [Value.compactChars, List.nil_append, List.cons_append, List.append_assoc] using hform

/-- The further items of a list on one line. -/
theorem itemsForm_compactItems : ∀ vs : List Value, ItemsForm false vs (Value.compactItems vs)
  | [] => .nil blanks_nil
  | v :: vs => .cons (.further blanks_nil blanks_nil) (form_compactChars v) (itemsForm_compactItems vs)

/-- The further fields of an object on one line. -/
theorem fieldsForm_compactFields : ∀ fs : List (String × Value), FieldsForm false fs (Value.compactFields fs)
  | [] => .nil blanks_nil
  | (name, v) :: fs => by
    have hfields := FieldsForm.cons name (.further blanks_nil blanks_nil) blanks_nil blanks_nil
      (form_compactChars v) (fieldsForm_compactFields fs)
    simpa only [Value.compactFields, List.nil_append, List.cons_append, List.append_assoc] using hfields

end

/-- The text on one line as a whole. -/
theorem form_compact (v : Value) : Form v v.compact.toList := by
  rw [Value.compact, String.toList_ofList]
  exact form_compactChars v

/-! ## Over lines -/

theorem blanks_newLine (level : Nat) : Blanks (Value.newLine level) := by
  intro c hc
  rcases List.mem_cons.1 hc with rfl | hspace
  · rfl
  · rw [List.eq_of_mem_replicate hspace]
    rfl

theorem blanks_space : Blanks [' '] := List.forall_mem_singleton.2 rfl

mutual

/-- **The text over lines** is a text of the value: the blanks are the starts of lines, and one after each
colon. -/
theorem form_prettyChars (level : Nat) : ∀ v : Value, Form v (v.prettyChars level)
  | .null => .null
  | .number n => .number n
  | .text s => .text s
  | .list [] => .list (.nil blanks_nil)
  | .list (v :: vs) => by
    have hitems := ItemsForm.cons (.first (blanks_newLine (level + 1))) (form_prettyChars (level + 1) v)
      (itemsForm_prettyItems level vs)
    have hform := Form.list hitems
    simpa only [Value.prettyChars, List.cons_append, List.append_assoc] using hform
  | .object [] => .object (.nil blanks_nil)
  | .object ((name, v) :: fs) => by
    have hfields := FieldsForm.cons name (.first (blanks_newLine (level + 1))) blanks_nil blanks_space
      (form_prettyChars (level + 1) v) (fieldsForm_prettyFields level fs)
    have hform := Form.object hfields
    simpa only [Value.prettyChars, List.nil_append, List.cons_append, List.append_assoc] using hform

/-- The further items of a list over lines. -/
theorem itemsForm_prettyItems (level : Nat) :
    ∀ vs : List Value, ItemsForm false vs (Value.prettyItems level vs)
  | [] => .nil (blanks_newLine level)
  | v :: vs => by
    have hitems := ItemsForm.cons (.further blanks_nil (blanks_newLine (level + 1)))
      (form_prettyChars (level + 1) v) (itemsForm_prettyItems level vs)
    simpa only [Value.prettyItems, List.nil_append, List.cons_append, List.append_assoc] using hitems

/-- The further fields of an object over lines. -/
theorem fieldsForm_prettyFields (level : Nat) :
    ∀ fs : List (String × Value), FieldsForm false fs (Value.prettyFields level fs)
  | [] => .nil (blanks_newLine level)
  | (name, v) :: fs => by
    have hfields := FieldsForm.cons name (.further blanks_nil (blanks_newLine (level + 1))) blanks_nil
      blanks_space (form_prettyChars (level + 1) v) (fieldsForm_prettyFields level fs)
    simpa only [Value.prettyFields, List.nil_append, List.cons_append, List.append_assoc] using hfields

end

/-- The text over lines as a whole. -/
theorem form_pretty (v : Value) : Form v v.pretty.toList := by
  rw [Value.pretty, String.toList_ofList]
  exact form_prettyChars 0 v

end AnchoredLedger.Json
