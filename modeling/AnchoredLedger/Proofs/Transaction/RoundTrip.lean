import AnchoredLedger.Proofs.Locality
import AnchoredLedger.Proofs.Transaction.Grammar

/-! # Transactions delimit themselves

What is written for a transaction says where it ends. So it is read back wherever it stands, no two
transactions are written alike, and transactions written one behind the other are told apart again.

* **`Transaction.form_encode`** — what is written is a form, if its length is a 64-bit word.
* **`Transaction.parse_append`** — a transaction between any octets.
* **`Transaction.parseSeries`** — parsing one after the other, each where the one before ended.
* **`Transaction.encode_delimits`** — all of it. -/

namespace AnchoredLedger.Transaction

open Reader

/-- What is written is a form of the transaction. -/
theorem form_encode {t : Transaction} (h : t.messageSize < 2 ^ 64) :
    FormWith CompactSize.Form t t.encode := by
  rw [← length_encode] at h
  exact economical.form_of_shortest (economical.written h)

/-- **A transaction is read back wherever it stands**, with the size that was added up. -/
theorem parse_append {t : Transaction} (h : t.messageSize < 2 ^ 64) (before behind : Octets) :
    parse (before ++ t.encode ++ behind) before.length = .ok (t, t.messageSize) := by
  have hparse := read_recognizes.parseAt_append (form_encode h) before behind
  rwa [length_encode] at hparse

/-- Transactions that are written alike are equal. -/
theorem encode_inj {t t' : Transaction} (h : t.messageSize < 2 ^ 64) (heq : t.encode = t'.encode) :
    t = t' := by
  have h' : t'.messageSize < 2 ^ 64 := by rwa [← length_encode, ← heq, length_encode]
  have hfront : t.encode ++ [] = t'.encode ++ [] := by rw [heq]
  exact (read_recognizes.unique (form_encode h) (form_encode h') hfront).1

/-- **Transactions one after the other**, each parsed where the one before it ended, with the octets that
all of them took. -/
def parseSeries (buffer : Octets) : Nat → Nat → Except WireError (List Transaction × Nat)
  | 0, _ => .ok ([], 0)
  | n + 1, offset =>
    match parse buffer offset with
    | .error e => .error e
    | .ok (t, used) =>
      match parseSeries buffer n (offset + used) with
      | .error e => .error e
      | .ok (ts, usedBehind) => .ok (t :: ts, used + usedBehind)

/-- **Transactions written one behind the other are told apart again.** -/
theorem parseSeries_append {ts : List Transaction} (h : ∀ t ∈ ts, t.messageSize < 2 ^ 64)
    (before behind : Octets) :
    parseSeries (before ++ ts.flatMap encode ++ behind) ts.length before.length =
      .ok (ts, (ts.flatMap encode).length) := by
  -- each transaction that was parsed goes to what stands before the others
  induction ts generalizing before with
  | nil => rfl
  | cons t ts ih =>
    obtain ⟨hfirst, hothers⟩ := List.forall_mem_cons.1 h
    have hsplit : before ++ (t :: ts).flatMap encode ++ behind =
        before ++ t.encode ++ (ts.flatMap encode ++ behind) := by
      simp [List.flatMap_cons]
    have hparse := parse_append hfirst before (ts.flatMap encode ++ behind)
    have hseries := ih hothers (before ++ t.encode)
    rw [List.append_assoc, List.length_append, length_encode] at hseries
    rw [hsplit, List.length_cons, parseSeries, hparse]
    simp only [hseries, List.flatMap_cons, List.length_append, length_encode]

/-- **What is written for a transaction delimits itself.** Its length is the size that is added up, and
between any octets it is read back as the transaction and that size. So transactions that are written
alike are equal, and transactions written one behind the other are parsed one after the other. -/
theorem encode_delimits :
    (∀ t : Transaction, t.messageSize = t.encode.length) ∧
    (∀ t : Transaction, t.messageSize < 2 ^ 63 → ∀ before behind,
      parse (before ++ t.encode ++ behind) before.length = .ok (t, t.messageSize)) ∧
    (∀ t t' : Transaction, t.messageSize < 2 ^ 63 → t.encode = t'.encode → t = t') ∧
    ∀ ts : List Transaction, (∀ t ∈ ts, t.messageSize < 2 ^ 63) → ∀ before behind,
      parseSeries (before ++ ts.flatMap encode ++ behind) ts.length before.length =
        .ok (ts, (ts.flatMap encode).length) := by
  have hword : ∀ t : Transaction, t.messageSize < 2 ^ 63 → t.messageSize < 2 ^ 64 := fun t h =>
    Nat.lt_trans h (by decide)
  exact ⟨fun t => t.length_encode.symm, fun t h => parse_append (hword t h),
    fun t t' h => encode_inj (hword t h),
    fun ts h => parseSeries_append fun t ht => hword t (h t ht)⟩

/-- A transaction whose script has a length of three octets, and one without inputs and outputs. -/
theorem encode_delimits_long_script :
    let input : Input := ⟨.zero, 0, List.replicate 253 0x51, Input.finalSequence⟩
    let t : Transaction := ⟨1, [input], [⟨5000, [0x51]⟩], 0, 1, 1500000000, 42⟩
    let bare : Transaction := ⟨1, [], [], 0, 0, 0, 0⟩
    t.messageSize < 2 ^ 63 ∧ bare.messageSize < 2 ^ 63 ∧ t.encode.length = 328 ∧
      parse ([7] ++ t.encode ++ [9]) 1 = .ok (t, 328) ∧ (t.encode = bare.encode → t = bare) ∧
      parseSeries ([7] ++ [t, bare].flatMap encode ++ [9]) 2 1 =
        .ok ([t, bare], ([t, bare].flatMap encode).length) := by
  intro input t bare
  obtain ⟨hsize, hparse, hinj, hseries⟩ := encode_delimits
  have ht : t.messageSize = 328 := by decide +kernel
  have hsmall : t.messageSize < 2 ^ 63 := by rw [ht]; decide
  have hbare : bare.messageSize < 2 ^ 63 := by decide
  have hboth : ∀ u ∈ [t, bare], u.messageSize < 2 ^ 63 :=
    List.forall_mem_cons.2 ⟨hsmall, List.forall_mem_singleton.2 hbare⟩
  refine ⟨hsmall, hbare, (hsize t).symm.trans ht, ?_, hinj t bare hsmall, hseries _ hboth [7] [9]⟩
  have hread := hparse t hsmall [7] [9]
  rwa [ht] at hread

end AnchoredLedger.Transaction
