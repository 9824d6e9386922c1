import AnchoredLedger.Proofs.Block.Sections
import AnchoredLedger.Proofs.Transaction.Grammar

/-! # Looking ahead

A length is refused at once if so many items cannot follow. Without that look ahead the items would be
read one by one until the octets end, and the refusal would come there. So it comes earlier, but it does
not come more often: what a check asks for is no more than what the items take.

* **`Reader.Agree`** — two reads accept the same. `Agree.bind` and `Agree.optional` put such reads
  together, and `Recognizes.agree` says that reads of one grammar are such.
* **`CompactSize.unchecked`** — lengths read without a look ahead.
* **`CompactSize.readLength_eq_ok_iff_mul_le`** — what the check comes to, without a bound on the product.
* **`CompactSize.lookahead_changes_nothing`** — transactions and blocks without the checks. -/

namespace AnchoredLedger

/-! ## Reads that accept the same -/

namespace Reader

variable {α β : Type} {r r' : Reader α} {G : Grammar α}

/-- **Two reads accept the same**: where one succeeds so does the other, with the same value and the
same cursor after it. They may refuse differently. -/
def Agree (r r' : Reader α) : Prop := ∀ a c d, r c = .ok a d ↔ r' c = .ok a d

theorem Agree.refl (r : Reader α) : Agree r r := fun _ _ _ => Iff.rfl

theorem Agree.bind {k k' : α → Reader β} (hr : Agree r r') (hk : ∀ a, Agree (k a) (k' a)) :
    Agree (r >>= k) (r' >>= k') := by
  intro b c d
  rw [bind_eq_ok_iff, bind_eq_ok_iff]
  refine exists_congr fun a => exists_congr fun between => ?_
  rw [hr a c between, hk a b between d]

theorem Agree.optional (hr : Agree r r') : Agree (Sections.optional r) (Sections.optional r') := by
  intro o c d
  rw [Sections.optional_eq_ok_iff, Sections.optional_eq_ok_iff]
  refine or_congr_right (and_congr_right fun _ => exists_congr fun a => ?_)
  rw [hr a c d]

/-- Reads that recognize one grammar accept the same. -/
theorem Recognizes.agree (hr : Recognizes r G) (hr' : Recognizes r' G) : Agree r r' := by
  intro a c d
  rw [hr a c d, hr' a c d]

theorem Agree.parseAt (hr : Agree r r') {buffer : Octets} {offset : Nat} {a : α} {used : Nat} :
    parseAt r buffer offset = .ok (a, used) ↔ parseAt r' buffer offset = .ok (a, used) := by
  rw [parseAt_eq_ok_iff, parseAt_eq_ok_iff]
  refine and_congr_right fun _ => exists_congr fun d => ?_
  rw [hr a _ d]

end Reader

open Reader

namespace CompactSize

/-! ## The check -/

/-- **A length without a look at what remains.** -/
def unchecked : Transaction.LengthReader := fun _ => read

theorem readsCounts_unchecked : ReadsCounts unchecked := by
  intro α k G count item hk _
  exact (read_recognizes.bind hk).congr fun _ _ => counted_iff

/-- Behind a length nothing changes with the check, if the items take the room that it asks for. -/
theorem agree_unchecked {α : Type} {k : Nat → Reader α} {K : Nat → Grammar α} (item : Nat)
    (hk : ∀ n, Recognizes (k n) (K n))
    (hroom : ∀ n a form, K n a form → n * item ≤ form.length) :
    Agree (readLength item >>= k) (unchecked item >>= k) :=
  (recognizes_counted item hk hroom).agree (read_recognizes.bind hk)

variable {item n : Nat} {c d : Cursor}

/-- **The check compares the exact product with what remains**, though products are cut off at 64 bits:
what remains is never that much. -/
theorem readLength_eq_ok_iff_mul_le (hroom : c.remaining < 2 ^ 63) :
    readLength item c = .ok n d ↔ read c = .ok n d ∧ n * item ≤ d.remaining := by
  rw [readLength_eq_ok_iff]
  refine and_congr_right fun hread => ?_
  obtain ⟨form, -, hpass⟩ := (read_recognizes n c d).1 hread
  have hrem := hpass.remaining_eq
  -- what remains is below the largest word, so a product that is cut off is above it either way
  unfold maxNeeded
  constructor
  · intro hle
    omega
  · intro hle
    exact Nat.le_trans (Nat.min_le_left _ _) hle

/-- A length that fails the check is refused with what it asks for, as far as that is a 64-bit word. -/
theorem readLength_eq_truncated (hroom : c.remaining < 2 ^ 63) (hread : read c = .ok n d)
    (hlarge : d.remaining < n * item) :
    readLength item c = .error (.truncated (min (n * item) maxNeeded) d.remaining) d := by
  obtain ⟨form, -, hpass⟩ := (read_recognizes n c d).1 hread
  have hrem := hpass.remaining_eq
  have hfails : ¬ Octets.holds (min (n * item) maxNeeded) d.rest = true := by
    rw [Octets.holds_iff]
    change ¬ min (n * item) maxNeeded ≤ d.remaining
    unfold maxNeeded
    omega
  unfold readLength
  refine bind_eq_error_iff.2 (.inr ⟨n, d, hread, ?_⟩)
  refine bind_eq_error_iff.2 (.inr ⟨d, d, rfl, ?_⟩)
  rw [if_neg hfails]
  rfl

end CompactSize

/-! ## Transactions and blocks -/

theorem Transaction.readWith_agree : Agree Transaction.read (Transaction.readWith CompactSize.unchecked) :=
  read_recognizes.agree (readWith_recognizes CompactSize.readsCounts_unchecked)

namespace Sections

theorem readTransactions_agree (limit : Nat) :
    Agree (readTransactions CompactSize.readLength limit)
      (readTransactions CompactSize.unchecked limit) := by
  refine CompactSize.agree_unchecked 32 (hashes_recognizes limit) ?_
  rintro n hashes items ⟨-, rfl, hlisted⟩
  have hlen := hlisted.length
  omega

theorem readSignatures_agree :
    Agree (readSignatures CompactSize.readLength) (readSignatures CompactSize.unchecked) := by
  refine CompactSize.agree_unchecked 1 signature_recognizes ?_
  rintro n signature octets ⟨hlen, -⟩
  omega

theorem readWith_agree (limit : Nat) :
    Agree (Sections.read limit) (readWith CompactSize.unchecked limit) :=
  (Agree.refl Header.read).bind fun _ => (readTransactions_agree limit).optional.bind fun _ =>
    readSignatures_agree.optional.bind fun _ => .refl _

end Sections

/-- A block is made of the sections and the octets that they took, however lengths are read. -/
theorem Block.parseWith_eq_ok_iff {length : Transaction.LengthReader} {network : Network}
    {retain : Bool} {buffer : Octets} {offset : Nat} {b : Block} :
    parseWith length network retain buffer offset = .ok b ↔ ∃ s used,
      parseAt (Sections.readWith length network.maxBlockSize.toNat) buffer offset = .ok (s, used) ∧
        b = ofSections s ((buffer.drop offset).take used) retain := by
  unfold parseWith
  cases parseAt (Sections.readWith length network.maxBlockSize.toNat) buffer offset with
  | error e => simp
  | ok result => simp [Prod.ext_iff, and_assoc, eq_comm]

/-- **The look ahead changes nothing about what is accepted.** Where a transaction is parsed, it is also
parsed if lengths are read without a check of what remains, and the other way round, as the same
transaction of as many octets; and so is a block, as the same block. The check lets a length pass exactly
if the product of length and item is, as a number of any size, no more than the octets that remain, and
refuses it for want of octets if it is more. -/
theorem CompactSize.lookahead_changes_nothing (buffer : Octets) (offset : Nat) :
    (∀ t used, Transaction.parse buffer offset = .ok (t, used) ↔
      parseAt (Transaction.readWith unchecked) buffer offset = .ok (t, used)) ∧
    (∀ network retain b, Block.parse network retain buffer offset = .ok b ↔
      Block.parseWith unchecked network retain buffer offset = .ok b) ∧
    ∀ (item : Nat) (c : Cursor), c.remaining < 2 ^ 63 → ∀ n d,
      (readLength item c = .ok n d ↔ read c = .ok n d ∧ n * item ≤ d.remaining) ∧
      (read c = .ok n d → d.remaining < n * item →
        readLength item c = .error (.truncated (min (n * item) maxNeeded) d.remaining) d) := by
  refine ⟨fun t used => Transaction.readWith_agree.parseAt, fun network retain b => ?_,
    fun item c hroom n d => ⟨readLength_eq_ok_iff_mul_le hroom, readLength_eq_truncated hroom⟩⟩
  unfold Block.parse
  rw [Block.parseWith_eq_ok_iff, Block.parseWith_eq_ok_iff]
  refine exists_congr fun s => exists_congr fun used => ?_
  rw [(Sections.readWith_agree network.maxBlockSize.toNat).parseAt.symm]
  rfl

/-- A transaction whose output of least size stands at the end of what the check looks at, and the
largest count there is, whose product with the size of an input is cut off. -/
theorem CompactSize.lookahead_changes_nothing_largest_count :
    let buffer : Octets := [1, 0, 0, 0] ++ [0] ++ [1] ++ List.replicate 9 0 ++ List.replicate 16 0
    let t : Transaction := ⟨1, [], [⟨0, []⟩], 0, 0, 0, 0⟩
    let c : Cursor := ⟨0, List.replicate 9 0xFF ++ [1, 2, 3]⟩
    let d : Cursor := ⟨9, [1, 2, 3]⟩
    parseAt (Transaction.readWith unchecked) buffer 0 = .ok (t, 31) ∧
      c.remaining < 2 ^ 63 ∧ read c = .ok (2 ^ 64 - 1) d ∧ d.remaining < (2 ^ 64 - 1) * 41 ∧
      readLength 41 c = .error (.truncated (2 ^ 64 - 1) 3) d := by
  intro buffer t c d
  have hparse : Transaction.parse buffer 0 = .ok (t, 31) := by decide
  have hroom : c.remaining < 2 ^ 63 := by decide
  have hread : read c = .ok (2 ^ 64 - 1) d := rfl
  have hlarge : d.remaining < (2 ^ 64 - 1) * 41 := by decide
  obtain ⟨htransactions, -, hchecks⟩ := lookahead_changes_nothing buffer 0
  exact ⟨(htransactions t 31).1 hparse, hroom, hread, hlarge, (hchecks 41 c hroom _ d).2 hread hlarge⟩

end AnchoredLedger
