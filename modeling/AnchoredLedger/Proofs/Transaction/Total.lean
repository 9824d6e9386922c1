import AnchoredLedger.Proofs.Locality
import AnchoredLedger.Proofs.Transaction.Grammar

/-! # Totals of transactions

The amounts of a transaction are added up one by one, and each sum is checked. A checked sum never gets
smaller, so what is checked on the way is no more than what is asked in the end: whether there is a word
for the exact sum. Parsing does not ask that. It takes every amount, so there are transactions that are
accepted and have no total.

* **`Overflow.Exact`** — a checked result is the word for a number, and is refused if there is none.
* **`Overflow.exact_foldlM`** — words added up one after the other.
* **`Transaction.amount`** — the exact sum of the amounts.
* **`Transaction.withAmounts`** — other amounts; `FormWith.exists_withAmounts` says that forms have room
  for them, and `exists_parse_withAmounts` that they are accepted.
* **`Transaction.totalOutput_decides`** — which accepted transactions have a total;
  **`accepted_without_total`** is one that has none. -/

namespace AnchoredLedger

namespace Overflow

/-- **A checked result stands for a number**: it is the word for it, if there is one. -/
def Exact (result : Except Overflow UInt64) (n : Nat) : Prop :=
  ∀ word : UInt64, result = .ok word ↔ word.toNat = n

/-- Without a word for the number there is an overflow, and only then. -/
theorem Exact.eq_error_iff {result : Except Overflow UInt64} {n : Nat} (h : Exact result n)
    {e : Overflow} : result = .error e ↔ 2 ^ 64 ≤ n := by
  constructor
  · -- below the bound the result would be the word for the number
    rintro rfl
    by_contra hn
    have hword : (UInt64.ofNat n).toNat = n := UInt64.toNat_ofNat_of_lt' (Nat.not_le.1 hn)
    cases (h _).2 hword
  · intro hn
    cases result with
    | ok word =>
      have hword : word.toNat = n := (h word).1 rfl
      exact absurd word.toNat_lt (by omega)
    | error other =>
      cases other
      cases e
      rfl

theorem exact_ok (word : UInt64) : Exact (.ok word) word.toNat := fun other => by
  rw [Except.ok.injEq, UInt64.toNat_inj]
  exact eq_comm

/-- **A checked sum of two words is exact.** -/
theorem exact_add64 (a b : UInt64) : Exact (add64 a b) (a.toNat + b.toNat) := by
  intro sum
  constructor
  · exact add64_eq_ok
  · intro hsum
    have hrange : a.toNat + b.toNat < UInt64.size := hsum ▸ sum.toNat_lt
    rw [add64, if_pos hrange, Except.ok.injEq, ← UInt64.toNat_inj, UInt64.toNat_add, hsum]
    exact Nat.mod_eq_of_lt hrange

/-- **So are words added up one after the other**, from any first word on. -/
theorem exact_foldlM {α : Type} (word : α → UInt64) (as : List α) (start : UInt64) :
    Exact (as.foldlM (fun sum a => add64 sum (word a)) start)
      (start.toNat + (as.map fun a => (word a).toNat).sum) := by
  induction as generalizing start with
  | nil => exact exact_ok start
  | cons a as ih =>
    rw [List.foldlM_cons, List.map_cons, List.sum_cons, ← Nat.add_assoc]
    cases hfirst : add64 start (word a) with
    | ok first =>
      rw [← add64_eq_ok hfirst]
      exact ih first
    | error e =>
      -- the words behind cannot bring the sum back into the range
      have hrange := (exact_add64 start (word a)).eq_error_iff.1 hfirst
      intro total
      refine iff_of_false (fun h => by cases h) fun h => ?_
      have htotal := total.toNat_lt
      omega

end Overflow

namespace Transaction

open Reader

/-- **The exact sum of the amounts.** -/
def amount (t : Transaction) : Nat := (t.outputs.map fun o => o.value.toNat).sum

/-- **The total is the exact sum of the amounts.** -/
theorem exact_totalOutput (t : Transaction) : Overflow.Exact t.totalOutput t.amount := by
  have hexact := Overflow.exact_foldlM Output.value t.outputs 0
  rwa [UInt64.toNat_zero, Nat.zero_add] at hexact

/-! ## Other amounts -/

/-- An output with another amount. -/
def Output.withValue (o : Output) (value : UInt64) : Output := { o with value }

/-- **A transaction with other amounts**, one for each output, and the same in all else. -/
def withAmounts (t : Transaction) (values : List UInt64) : Transaction :=
  { t with outputs := List.zipWith Output.withValue t.outputs values }

theorem values_withAmounts {t : Transaction} {values : List UInt64}
    (hcount : values.length = t.outputs.length) :
    (t.withAmounts values).outputs.map Output.value = values := by
  rw [withAmounts, List.map_zipWith, ← List.map_uncurry_zip_eq_zipWith]
  exact List.map_snd_zip (Nat.le_of_eq hcount)

theorem amount_withAmounts {t : Transaction} {values : List UInt64}
    (hcount : values.length = t.outputs.length) :
    (t.withAmounts values).amount = (values.map UInt64.toNat).sum := by
  conv_rhs => rw [← values_withAmounts hcount, List.map_map]
  rfl

variable {sizes : Grammar Nat} {form : Octets}

/-- A form of an output has room for any amount. -/
theorem Output.FormWith.exists_withValue {o : Output} (h : Output.FormWith sizes o form)
    (value : UInt64) :
    ∃ other : Octets, other.length = form.length ∧ Output.FormWith sizes (o.withValue value) other := by
  obtain ⟨_, script, rfl, hscript, rfl⟩ := h
  exact ⟨Octets.word64 value ++ script, by simp, _, script, rfl, hscript, rfl⟩

/-- So have the forms of outputs one after another. -/
theorem exists_items_withValue {os : List Output} (h : (Output.FormWith sizes).Items os form)
    {values : List UInt64} (hcount : values.length = os.length) :
    ∃ others : Octets, others.length = form.length ∧
      (Output.FormWith sizes).Items (List.zipWith Output.withValue os values) others := by
  induction h generalizing values with
  | nil => exact ⟨[], rfl, .nil⟩
  | cons head _ ih =>
    cases values with
    | nil => cases hcount
    | cons value values =>
      obtain ⟨first, hfirst, hhead⟩ := head.exists_withValue value
      obtain ⟨others, hothers, htail⟩ := ih (Nat.succ.inj hcount)
      exact ⟨first ++ others, by simp [hfirst, hothers], .cons hhead htail⟩

/-- **A form of a transaction has room for any amounts.** -/
theorem FormWith.exists_withAmounts {t : Transaction} (h : FormWith sizes t form)
    {values : List UInt64} (hcount : values.length = t.outputs.length) :
    ∃ others : Octets, others.length = form.length ∧ FormWith sizes (t.withAmounts values) others := by
  obtain ⟨version, _, hversion, ⟨inputs, _, hinputs, ⟨_, tail, ⟨count, items, hnumber, hitems, rfl⟩,
    htail, rfl⟩, rfl⟩, rfl⟩ := h
  obtain ⟨others, hothers, hitems'⟩ := exists_items_withValue hitems hcount
  -- the number of outputs is the same, so it keeps its form
  have hnumber' : sizes (List.zipWith Output.withValue t.outputs values).length count := by
    rw [List.length_zipWith, hcount, Nat.min_self]
    exact hnumber
  refine ⟨version ++ (inputs ++ ((count ++ others) ++ tail)), by simp [hothers], version, _, hversion,
    ⟨inputs, _, hinputs, ⟨count ++ others, tail, ⟨count, others, hnumber', hitems', rfl⟩, htail, rfl⟩,
    rfl⟩, rfl⟩

variable {buffer : Octets} {offset used : Nat} {t : Transaction}

/-- **Parsing asks nothing of the amounts.** Other octets in place of those that were taken, and as many,
are taken for the transaction with other amounts. -/
theorem exists_parse_withAmounts (h : parse buffer offset = .ok (t, used)) {values : List UInt64}
    (hcount : values.length = t.outputs.length) :
    ∃ others : Octets, others.length = used ∧
      parse (buffer.take offset ++ others ++ buffer.drop (offset + used)) offset =
        .ok (t.withAmounts values, used) := by
  obtain ⟨hoffset, form, _, _, hform, rfl⟩ := read_recognizes.parseAt_eq_ok_iff.1 h
  obtain ⟨others, hothers, hform'⟩ := hform.exists_withAmounts hcount
  refine ⟨others, hothers, ?_⟩
  have hread := read_recognizes.parseAt_append hform' (buffer.take offset)
    (buffer.drop (offset + form.length))
  rwa [List.length_take_of_le hoffset, hothers] at hread

/-- **A transaction has a total exactly where there is a word for the sum of its amounts**, and then the
total is that word; everywhere else adding up overflows. Parsing does not keep such transactions away:
wherever one transaction is accepted, so is the same with any other amounts. -/
theorem totalOutput_decides (h : parse buffer offset = .ok (t, used)) :
    (∀ total, t.totalOutput = .ok total ↔ total.toNat = t.amount) ∧
    (∀ e, t.totalOutput = .error e ↔ 2 ^ 64 ≤ t.amount) ∧
    ∀ values : List UInt64, values.length = t.outputs.length →
      (t.withAmounts values).amount = (values.map UInt64.toNat).sum ∧
      ∃ others : Octets, others.length = used ∧
        parse (buffer.take offset ++ others ++ buffer.drop (offset + used)) offset =
          .ok (t.withAmounts values, used) := by
  refine ⟨t.exact_totalOutput, fun e => t.exact_totalOutput.eq_error_iff, ?_⟩
  intro values hcount
  exact ⟨amount_withAmounts hcount, exists_parse_withAmounts h hcount⟩

/-- Two amounts whose sum is a word, between other octets, and two in their place whose sum is not. -/
theorem totalOutput_decides_two_amounts :
    let t : Transaction := ⟨1, [], [⟨3, []⟩, ⟨4, []⟩], 0, 0, 0, 0⟩
    parse ([7] ++ t.encode ++ [9]) 1 = .ok (t, 40) ∧ t.totalOutput = .ok 7 ∧
      (t.withAmounts [0xFFFFFFFFFFFFFFFF, 1]).amount = 2 ^ 64 ∧
      ∃ others : Octets, others.length = 40 ∧
        parse ([7] ++ others ++ [9]) 1 = .ok (t.withAmounts [0xFFFFFFFFFFFFFFFF, 1], 40) := by
  intro t
  have hparse : parse ([7] ++ t.encode ++ [9]) 1 = .ok (t, 40) := by decide +kernel
  obtain ⟨htotal, -, hothers⟩ := totalOutput_decides hparse
  obtain ⟨hamount, haccepted⟩ := hothers [0xFFFFFFFFFFFFFFFF, 1] (by decide)
  exact ⟨hparse, (htotal 7).2 (by decide), hamount, haccepted⟩

/-- **An accepted transaction without a total.** Its amounts are the greatest there is, and one. -/
theorem accepted_without_total :
    let buffer : Octets := [1, 0, 0, 0] ++ [0] ++ [2] ++ (List.replicate 8 0xFF ++ [0])
      ++ ([1, 0, 0, 0, 0, 0, 0, 0] ++ [0]) ++ List.replicate 16 0
    ∃ t, parse buffer 0 = .ok (t, 40) ∧ t.outputs.map Output.value = [0xFFFFFFFFFFFFFFFF, 1] ∧
      t.amount = 2 ^ 64 ∧ t.totalOutput = .error .addition := by
  intro buffer
  let t : Transaction := ⟨1, [], [⟨0xFFFFFFFFFFFFFFFF, []⟩, ⟨1, []⟩], 0, 0, 0, 0⟩
  exact ⟨t, by decide +kernel, by decide, by decide, by decide⟩

end Transaction

end AnchoredLedger
