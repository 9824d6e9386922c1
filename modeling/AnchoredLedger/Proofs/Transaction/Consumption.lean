import AnchoredLedger.Proofs.Locality
import AnchoredLedger.Proofs.Transaction.Grammar

/-! # What the octets of a transaction determine

Parsing takes counts in any of their forms, and writing gives them in the shortest. So the octets that
were taken may be more than what would be written, and their number tells whether they are. Nothing else
in the buffer has a say in what is parsed.

* **`Transaction.form_of_parse`** — the octets that were taken are a form of the transaction.
* **`Transaction.parse_determined`** — what follows from that. -/

namespace AnchoredLedger.Transaction

open Reader

variable {buffer : Octets} {offset : Nat}

/-- **The octets that were taken are a form of the transaction.** -/
theorem form_of_parse {t : Transaction} {used : Nat} (h : parse buffer offset = .ok (t, used)) :
    FormWith CompactSize.Form t ((buffer.drop offset).take used) ∧
      ((buffer.drop offset).take used).length = used := by
  obtain ⟨-, form, rest, hrest, hform, rfl⟩ := read_recognizes.parseAt_eq_ok_iff.1 h
  rw [hrest, List.take_left]
  exact ⟨hform, rfl⟩

/-- **What parsing takes determines what it gives.** A refusal is for want of octets. Of the octets that
were taken there are no fewer than the size of the transaction, and as many only if they are what would
be written, which is if all counts in them are at their shortest. The same octets are parsed alike
wherever they stand, and no part of them short of the whole is enough. -/
theorem parse_determined (buffer : Octets) (offset : Nat) :
    (∀ e, parse buffer offset = .error e → e.IsTruncated) ∧
    ∀ t used, parse buffer offset = .ok (t, used) →
      let taken := (buffer.drop offset).take used
      taken.length = used ∧ FormWith CompactSize.Form t taken ∧ t.messageSize ≤ used ∧
      (t.messageSize = used ↔ t.encode = taken) ∧
      (t.messageSize = used ↔ FormWith CompactSize.Shortest t taken) ∧
      (∀ before behind, parse (before ++ taken ++ behind) before.length = .ok (t, used)) ∧
      ∀ n < used, ∃ e, parse (taken.take n) 0 = .error e ∧ e.IsTruncated := by
  refine ⟨fun e => read_refuses.parseAt_isTruncated, ?_⟩
  intro t used hparse taken
  obtain ⟨hform, hlen⟩ := form_of_parse hparse
  have hwritten : t.messageSize = used ↔ t.encode = taken := by
    rw [← length_encode, ← economical.length_eq_iff hform, hlen]
  refine ⟨hlen, hform, ?_, hwritten, ?_, fun before behind => ?_, fun n hn => ?_⟩
  · rw [← length_encode, ← hlen]
    exact economical.length_le hform
  · rw [hwritten]
    exact (economical.shortest_iff_eq hform).symm
  · have hread := read_recognizes.parseAt_append hform before behind
    rwa [hlen] at hread
  · obtain ⟨e, he⟩ := read_recognizes.exists_parseAt_take_eq_error hform (n := n) (by omega)
    exact ⟨e, he, read_refuses.parseAt_isTruncated he⟩

/-- A transaction without inputs whose count of inputs takes three octets instead of one, between other
octets. -/
theorem parse_determined_long_count :
    let taken : Octets := [1, 0, 0, 0] ++ [0xFD, 0, 0] ++ [0] ++ List.replicate 16 0
    let t : Transaction := ⟨1, [], [], 0, 0, 0, 0⟩
    parse ([7] ++ taken ++ [9]) 1 = .ok (t, 24) ∧ t.messageSize < 24 ∧ t.encode ≠ taken ∧
      ¬ FormWith CompactSize.Shortest t taken ∧ parse (taken ++ [5, 5]) 0 = .ok (t, 24) ∧
      ∃ e, parse (taken.take 23) 0 = .error e ∧ e.IsTruncated := by
  intro taken t
  have hparse : parse ([7] ++ taken ++ [9]) 1 = .ok (t, 24) := by decide
  obtain ⟨-, -, hle, hwritten, hshort, hanywhere, hcut⟩ :=
    (parse_determined ([7] ++ taken ++ [9]) 1).2 t 24 hparse
  have hsize : t.messageSize = 22 := by decide
  have hne : t.messageSize ≠ 24 := by rw [hsize]; decide
  exact ⟨hparse, Nat.lt_of_le_of_ne hle hne, fun h => hne (hwritten.2 h), fun h => hne (hshort.2 h),
    hanywhere [] [5, 5], hcut 23 (by decide)⟩

end AnchoredLedger.Transaction
