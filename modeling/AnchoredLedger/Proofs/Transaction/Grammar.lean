import AnchoredLedger.Proofs.Economy
import AnchoredLedger.Transaction

/-! # The grammar of transactions

A transaction is fixed fields around two counted lists, and the items of both have a counted script in
them. So a wire form is free in nothing but the forms of its counts.

* **`Transaction.FormWith`** — the wire forms whose counts are of a given kind; **`Input.FormWith`** and
  **`Output.FormWith`** are those of the items.
* **`Transaction.economical`** — what is written has the shortest counts, and all other forms are longer.
* **`Transaction.readWith_recognizes`** — reading takes exactly the forms with counts of any kind;
  `read_refuses` says that all else is refused for want of octets.
* **`Transaction.length_encode`** — the length that is added up is that of what is written. -/

namespace AnchoredLedger.Transaction

open Reader Grammar CompactSize

/-! ## The forms -/

/-- **The forms of a script**: its octets, counted. -/
def ScriptForm (sizes : Grammar Nat) : Grammar Octets := .Counted sizes List.length (.Only id)

/-- **The forms of an input.** -/
def Input.FormWith (sizes : Grammar Nat) : Grammar Input :=
  (Only fun i => i.prevTx.toWire ++ Octets.word32 i.outputIndex).Append
    (((ScriptForm sizes).Of Input.scriptSig).Append (Only fun i => Octets.word32 i.sequence))

/-- **The forms of an output.** -/
def Output.FormWith (sizes : Grammar Nat) : Grammar Output :=
  (Only fun o => Octets.word64 o.value).Append ((ScriptForm sizes).Of Output.scriptPubkey)

/-- **The forms of a counted list.** -/
def ListForm {α : Type} (sizes : Grammar Nat) (G : Grammar α) : Grammar (List α) :=
  .Counted sizes List.length G.Items

/-- The fields behind the lists. -/
def encodeTail (t : Transaction) : Octets :=
  Octets.word32 t.lockTime ++ Octets.word32 t.kind ++ Octets.word32 t.createTime
    ++ Octets.word32 t.nonce

/-- **The wire forms of a transaction**, whose counts are of the given kind. -/
def FormWith (sizes : Grammar Nat) : Grammar Transaction :=
  (Only fun t => Octets.word32 t.version).Append
    (((ListForm sizes (Input.FormWith sizes)).Of Transaction.inputs).Append
      (((ListForm sizes (Output.FormWith sizes)).Of Transaction.outputs).Append (Only encodeTail)))

/-! ## The least length of a form -/

/-- An input takes no less than its least size. -/
theorem Input.FormWith.minSize_le {i : Input} {form : Octets} (h : Input.FormWith Form i form) :
    Input.minSize ≤ form.length := by
  obtain ⟨_, _, rfl, ⟨_, _, ⟨count, _, hcount, rfl, rfl⟩, rfl, rfl⟩, rfl⟩ := h
  have hpos := List.length_pos_iff.2 hcount.ne_nil
  simp only [List.length_append, FixedOctets.length_toWire, Octets.length_word32, Input.minSize]
  omega

/-- An output takes no less than its least size. -/
theorem Output.FormWith.minSize_le {o : Output} {form : Octets} (h : Output.FormWith Form o form) :
    Output.minSize ≤ form.length := by
  obtain ⟨_, _, rfl, ⟨count, _, hcount, rfl, rfl⟩, rfl⟩ := h
  have hpos := List.length_pos_iff.2 hcount.ne_nil
  simp only [List.length_append, Octets.length_word64, Output.minSize]
  omega

/-- Items take no less than as many times the least size of one. -/
theorem length_mul_le_of_items {α : Type} {G : Grammar α} {item : Nat}
    (hitem : ∀ a form, G a form → item ≤ form.length) {as : List α} {form : Octets}
    (h : G.Items as form) : as.length * item ≤ form.length := by
  induction h with
  | nil => simp
  | cons head _ ih =>
    have hfirst := hitem _ _ head
    rw [List.length_cons, List.length_append, Nat.succ_mul]
    omega

/-! ## Reading -/

variable {length : LengthReader}

theorem readScript_recognizes (hlength : ReadsCounts length) :
    Recognizes (readScript length) (ScriptForm Form) := by
  refine hlength List.length 1 (fun n => (octets_recognizes n).congr fun _ _ => Iff.rfl) ?_
  rintro script _ rfl
  exact Nat.le_of_eq (Nat.mul_one _)

/-- Reading an input takes exactly its forms. -/
theorem Input.readWith_recognizes (hlength : ReadsCounts length) :
    Recognizes (Input.readWith length) (Input.FormWith Form) := by
  have hfields := (fixed_recognizes 32).bind fun prevTx => word32_recognizes.bind fun outputIndex =>
    (readScript_recognizes hlength).bind fun scriptSig => word32_recognizes.bind fun sequence =>
    recognizes_pure (Input.mk prevTx outputIndex scriptSig sequence)
  refine hfields.congr fun i form => ?_
  constructor
  · rintro ⟨prevTx, _, _, rfl, ⟨outputIndex, _, _, rfl, ⟨scriptSig, script, _, hscript,
      ⟨sequence, _, _, rfl, ⟨rfl, rfl⟩, rfl⟩, rfl⟩, rfl⟩, rfl⟩
    exact ⟨_, _, rfl, ⟨script, _, hscript, rfl, rfl⟩, by simp⟩
  · rintro ⟨_, _, rfl, ⟨script, _, hscript, rfl, rfl⟩, rfl⟩
    exact ⟨i.prevTx, _, _, rfl, ⟨i.outputIndex, _, _, rfl, ⟨i.scriptSig, script, _, hscript,
      ⟨i.sequence, _, [], rfl, ⟨rfl, rfl⟩, rfl⟩, rfl⟩, rfl⟩, by simp⟩

/-- Reading an output takes exactly its forms. -/
theorem Output.readWith_recognizes (hlength : ReadsCounts length) :
    Recognizes (Output.readWith length) (Output.FormWith Form) := by
  have hfields := word64_recognizes.bind fun value =>
    (readScript_recognizes hlength).bind fun scriptPubkey =>
    recognizes_pure (Output.mk value scriptPubkey)
  refine hfields.congr fun o form => ?_
  constructor
  · rintro ⟨value, _, _, rfl, ⟨scriptPubkey, script, _, hscript, ⟨rfl, rfl⟩, rfl⟩, rfl⟩
    exact ⟨_, _, rfl, hscript, by simp⟩
  · rintro ⟨_, script, rfl, hscript, rfl⟩
    exact ⟨o.value, _, _, rfl, ⟨o.scriptPubkey, script, [], hscript, ⟨rfl, rfl⟩, rfl⟩, by simp⟩

/-- Reading a count and so many items takes exactly the forms of a counted list. -/
theorem readList_recognizes {α : Type} (hlength : ReadsCounts length) {r : Reader α} {G : Grammar α}
    (hr : Recognizes r G) {item : Nat} (hitem : ∀ a form, G a form → item ≤ form.length) :
    Recognizes (length item >>= Reader.times r) (ListForm Form G) :=
  hlength List.length item hr.times fun _ _ => length_mul_le_of_items hitem

/-- **Reading a transaction takes exactly its forms.** -/
theorem readWith_recognizes (hlength : ReadsCounts length) :
    Recognizes (readWith length) (FormWith Form) := by
  have hinputs := readList_recognizes hlength (Input.readWith_recognizes hlength)
    fun _ _ => Input.FormWith.minSize_le
  have houtputs := readList_recognizes hlength (Output.readWith_recognizes hlength)
    fun _ _ => Output.FormWith.minSize_le
  have hfields := word32_recognizes.bind fun version => hinputs.bind fun inputs =>
    houtputs.bind fun outputs => word32_recognizes.bind fun lockTime =>
    word32_recognizes.bind fun kind => word32_recognizes.bind fun createTime =>
    word32_recognizes.bind fun nonce =>
    recognizes_pure (Transaction.mk version inputs outputs lockTime kind createTime nonce)
  have hread : readWith length = (word32 >>= fun version =>
      (length Input.minSize >>= Reader.times (Input.readWith length)) >>= fun inputs =>
      (length Output.minSize >>= Reader.times (Output.readWith length)) >>= fun outputs =>
      word32 >>= fun lockTime => word32 >>= fun kind => word32 >>= fun createTime =>
      word32 >>= fun nonce =>
      pure (Transaction.mk version inputs outputs lockTime kind createTime nonce)) := by
    simp only [readWith, bind_assoc]
  rw [hread]
  refine hfields.congr fun t form => ?_
  constructor
  · rintro ⟨version, _, _, rfl, ⟨inputs, xs, _, hinputs, ⟨outputs, ys, _, houtputs,
      ⟨lockTime, _, _, rfl, ⟨kind, _, _, rfl, ⟨createTime, _, _, rfl, ⟨nonce, _, _, rfl, ⟨rfl, rfl⟩,
      rfl⟩, rfl⟩, rfl⟩, rfl⟩, rfl⟩, rfl⟩, rfl⟩
    exact ⟨_, _, rfl, ⟨xs, _, hinputs, ⟨ys, _, houtputs, rfl, rfl⟩, rfl⟩, by simp [encodeTail]⟩
  · rintro ⟨_, _, rfl, ⟨xs, _, hinputs, ⟨ys, _, houtputs, rfl, rfl⟩, rfl⟩, rfl⟩
    exact ⟨t.version, _, _, rfl, ⟨t.inputs, xs, _, hinputs, ⟨t.outputs, ys, _, houtputs,
      ⟨t.lockTime, _, _, rfl, ⟨t.kind, _, _, rfl, ⟨t.createTime, _, _, rfl,
        ⟨t.nonce, _, [], rfl, ⟨rfl, rfl⟩, rfl⟩, rfl⟩, rfl⟩, rfl⟩, rfl⟩, rfl⟩, by simp [encodeTail]⟩

theorem readScript_refuses : Refuses (readScript readLength) WireError.IsTruncated :=
  (readLength_refuses 1).bind octets_refuses

theorem Input.readWith_refuses : Refuses (Input.readWith readLength) WireError.IsTruncated :=
  (fixed_refuses 32).bind fun _ => word32_refuses.bind fun _ => readScript_refuses.bind fun _ =>
    word32_refuses.bind fun _ => refuses_pure _

theorem Output.readWith_refuses : Refuses (Output.readWith readLength) WireError.IsTruncated :=
  word64_refuses.bind fun _ => readScript_refuses.bind fun _ => refuses_pure _

/-- **All else is refused for want of octets.** -/
theorem read_refuses : Refuses read WireError.IsTruncated :=
  word32_refuses.bind fun _ => (readLength_refuses Input.minSize).bind fun n =>
    (Input.readWith_refuses.times n).bind fun _ => (readLength_refuses Output.minSize).bind fun m =>
    (Output.readWith_refuses.times m).bind fun _ => word32_refuses.bind fun _ =>
    word32_refuses.bind fun _ => word32_refuses.bind fun _ => word32_refuses.bind fun _ =>
    refuses_pure _

theorem read_recognizes : Recognizes read (FormWith Form) :=
  readWith_recognizes readsCounts_readLength

/-! ## Writing -/

theorem length_encodeScript (script : Octets) :
    (encodeScript script).length = size script.length + script.length := by
  rw [encodeScript, List.length_append, length_encode]

/-- The size of an input is the length of what is written for it. -/
theorem Input.length_encode (i : Input) : i.encode.length = i.messageSize := by
  simp only [Input.encode, List.length_append, FixedOctets.length_toWire, Octets.length_word32,
    length_encodeScript, Input.messageSize]
  omega

/-- The size of an output is the length of what is written for it. -/
theorem Output.length_encode (o : Output) : o.encode.length = o.messageSize := by
  simp only [Output.encode, List.length_append, Octets.length_word64, length_encodeScript,
    Output.messageSize]
  omega

/-- Sizes that are added up give the length of what is written. -/
theorem length_flatMap_eq_foldr {α : Type} {encode : α → Octets} {size : α → Nat}
    (h : ∀ a, (encode a).length = size a) (as : List α) :
    (as.flatMap encode).length = as.foldr (fun a sum => size a + sum) 0 := by
  induction as with
  | nil => rfl
  | cons a as ih => rw [List.flatMap_cons, List.length_append, List.foldr_cons, h, ih]

/-- **The size of a transaction is the length of what is written for it.** -/
theorem length_encode (t : Transaction) : t.encode.length = t.messageSize := by
  simp only [encode, List.length_append, Octets.length_word32, CompactSize.length_encode,
    length_flatMap_eq_foldr Input.length_encode, length_flatMap_eq_foldr Output.length_encode,
    messageSize]

theorem economical_script : Economical ScriptForm encodeScript :=
  (economical_only id).counted fun _ => Nat.le_refl _

theorem Input.economical : Economical Input.FormWith Input.encode := by
  have hparts := (economical_only fun i : Input => i.prevTx.toWire ++ Octets.word32 i.outputIndex).append
    ((economical_script.of Input.scriptSig).append
      (economical_only fun i : Input => Octets.word32 i.sequence))
  have hencode : Input.encode = fun i => (i.prevTx.toWire ++ Octets.word32 i.outputIndex) ++
      (encodeScript i.scriptSig ++ Octets.word32 i.sequence) := by
    funext i
    simp [Input.encode]
  rw [hencode]
  exact hparts

theorem Output.economical : Economical Output.FormWith Output.encode :=
  (economical_only fun o : Output => Octets.word64 o.value).append
    (economical_script.of Output.scriptPubkey)

/-- A counted list, whose items are not empty. -/
theorem economical_list {α : Type} {G : Grammar Nat → Grammar α} {encode : α → Octets}
    (hG : Economical G encode) (hitem : ∀ a, 1 ≤ (encode a).length) :
    Economical (fun sizes => ListForm sizes (G sizes))
      fun as => CompactSize.encode as.length ++ as.flatMap encode := by
  refine hG.items.counted fun as => ?_
  have hroom : as.length * 1 ≤ (as.flatMap encode).length :=
    length_mul_le_of_items (fun a _ h => h ▸ hitem a) ((items_eq_flatMap encode).2 rfl)
  omega

/-- **What is written has the shortest counts**, nothing else has, and all other forms are longer. -/
theorem economical : Economical FormWith encode := by
  have hinputs := economical_list Input.economical fun i => by
    rw [Input.length_encode, Input.messageSize]
    omega
  have houtputs := economical_list Output.economical fun o => by
    rw [Output.length_encode, Output.messageSize]
    omega
  have hparts := (economical_only fun t : Transaction => Octets.word32 t.version).append
    ((hinputs.of Transaction.inputs).append
      ((houtputs.of Transaction.outputs).append (economical_only encodeTail)))
  have hencode : encode = fun t => Octets.word32 t.version ++
      ((CompactSize.encode t.inputs.length ++ t.inputs.flatMap Input.encode) ++
        ((CompactSize.encode t.outputs.length ++ t.outputs.flatMap Output.encode) ++
          encodeTail t)) := by
    funext t
    simp [encode, encodeTail]
  rw [hencode]
  exact hparts

end AnchoredLedger.Transaction
