import AnchoredLedger.Proofs.CompactSize
import AnchoredLedger.Proofs.Cursor.Indexed
import AnchoredLedger.Proofs.Locality

/-! # Sequences of reads

Reads of any kind follow one another over a buffer, and some are refused on the way. A read that succeeds
uses up the octets that determine what it gives. One that is refused leaves the cursor where it was, with a
single exception: a compact size is two reads, of which the first may succeed and the second be refused.

* **`Request.Form`** — the octets of what each kind of read gives; **`Request.Determines`** — octets that are
  enough for it wherever they stand, and no fewer of them.
* **`Request.form_of_outcome`**, **`Request.refusal_of_outcome`** — what a single read does.
* **`Request.run_stays_within`** — what any sequence of them does. -/

namespace AnchoredLedger

open Reader

namespace Request

variable {q : Request} {item : Item} {form buffer : Octets} {c d : Cursor} {e : WireError}

/-! ## What a read takes -/

/-- **The octets of what each kind of read gives.** -/
def Form : Request → Grammar Item
  | .octet, .octet b, form => form = [b]
  | .word32, .word32 w, form => form = Octets.word32 w
  | .word64, .word64 w, form => form = Octets.word64 w
  | .compactSize, .compactSize n, form => CompactSize.Form n form
  | .hash, .hash h, form => form = h.toWire
  | .planKey, .planKey k, form => form = k.toWire
  | .octets n, .octets bs, form => form.length = n ∧ bs = form
  | .array n, .octets bs, form => form.length = n ∧ bs = form
  | _, _, _ => False

theorem perform_recognizes (q : Request) : Recognizes q.perform q.Form := by
  cases q with
  | octet =>
    refine (octet_recognizes.map Item.octet).congr fun item form => ?_
    cases item <;> simp [Form]
  | word32 =>
    refine (word32_recognizes.map Item.word32).congr fun item form => ?_
    cases item <;> simp [Form]
  | word64 =>
    refine (word64_recognizes.map Item.word64).congr fun item form => ?_
    cases item <;> simp [Form]
  | compactSize =>
    refine (CompactSize.read_recognizes.map Item.compactSize).congr fun item form => ?_
    cases item <;> simp [Form]
  | hash =>
    refine ((fixed_recognizes 32).map Item.hash).congr fun item form => ?_
    cases item <;> simp [Form]
  | planKey =>
    refine ((fixed_recognizes 33).map Item.planKey).congr fun item form => ?_
    cases item <;> simp [Form]
  | octets n =>
    refine ((octets_recognizes n).map Item.octets).congr fun item form => ?_
    cases item <;> simp [Form]
  | array n =>
    refine ((octets_recognizes n).map Item.octets).congr fun item form => ?_
    cases item <;> simp [Form]

/-- **Octets determine what a read gives**: wherever they stand and whatever follows them, it is read and
they are used up, and no part of them short of the whole is enough. -/
structure Determines (q : Request) (item : Item) (form : Octets) : Prop where
  /-- They are read anywhere. -/
  read : ∀ position rest,
    q.outcome ⟨position, form ++ rest⟩ = (.ok item, ⟨position + form.length, rest⟩)
  /-- Fewer are refused. -/
  least : ∀ n < form.length, ∀ position, ∃ e d, q.outcome ⟨position, form.take n⟩ = (.error e, d)

theorem Form.determines (h : q.Form item form) : q.Determines item form where
  read position rest := outcome_eq_ok_iff.2 (q.perform_recognizes.read h position rest)
  least n hn position := by
    obtain ⟨e, d, hread⟩ := q.perform_recognizes.exists_take_eq_error h hn position
    exact ⟨e, d, outcome_eq_error_iff.2 hread⟩

/-! ## What a read does -/

/-- **A read that succeeds stops right behind the octets of what it gives.** -/
theorem form_of_outcome (h : q.outcome c = (.ok item, d)) : ∃ form, q.Form item form ∧ c.Passes form d :=
  (q.perform_recognizes item c d).1 (outcome_eq_ok_iff.1 h)

/-- Where the cursor stands after a refusal: behind the first octet of a compact size if there is one, and
else where it stood. -/
def afterRefusal (q : Request) (c : Cursor) : Cursor :=
  if q = .compactSize ∧ 0 < c.remaining then c.advance 1 else c

/-- Every read but that of a compact size is all or nothing. -/
theorem perform_atomic (hq : q ≠ .compactSize) : Atomic q.perform := by
  cases q with
  | octet => exact octet_atomic.map Item.octet
  | word32 => exact word32_atomic.map Item.word32
  | word64 => exact word64_atomic.map Item.word64
  | compactSize => exact absurd rfl hq
  | hash => exact (fixed_atomic 32).map Item.hash
  | planKey => exact (fixed_atomic 33).map Item.planKey
  | octets n => exact (octets_atomic n).map Item.octets
  | array n => exact (octets_atomic n).map Item.octets

/-- **A read that is refused wants more octets than remain where the cursor then stands.** -/
theorem refusal_of_outcome (h : q.outcome c = (.error e, d)) : d = q.afterRefusal c ∧ e.WantsAt d := by
  have hread := outcome_eq_error_iff.1 h
  unfold afterRefusal
  by_cases hq : q = .compactSize
  · -- two reads, of which the first stands if the second is refused
    subst hq
    simpa using CompactSize.read_eq_error (map_eq_error_iff.1 hread)
  · obtain ⟨rfl, hwants⟩ := perform_atomic hq e c d hread
    rw [if_neg fun hboth => hq hboth.1]
    exact ⟨rfl, hwants⟩

/-- No read moves the cursor backwards. -/
theorem position_le_outcome (q : Request) (c : Cursor) : c.position ≤ (q.outcome c).2.position := by
  rcases hout : q.outcome c with ⟨e | item, d⟩
  · obtain ⟨rfl, -⟩ := refusal_of_outcome hout
    unfold afterRefusal
    split
    · exact Nat.le_add_right _ _
    · exact Nat.le_refl _
  · obtain ⟨form, -, hpass⟩ := form_of_outcome hout
    exact Nat.le.intro hpass.2.symm

/-! ## What a sequence does -/

/-- No sequence of reads moves the cursor backwards. -/
theorem position_le_run (qs : List Request) (c : Cursor) : c.position ≤ (run qs c).position := by
  induction qs generalizing c with
  | nil => exact Nat.le_refl _
  | cons q qs ih => exact Nat.le_trans (position_le_outcome q c) (ih (q.outcome c).2)

/-- **Reads keep to their buffer.** After any reads from the start of a buffer or from an offset into it the
cursor stands in the buffer: what lies behind and what lies ahead make it up, and what remains is worked out
as a difference. No reads move it backwards. Whatever is read, by index no computation leaves its range and
the outcome is the same. If the read succeeds, the octets between the two cursors are a form of what it
gives: they determine it, wherever they stand, and no fewer of them would do. If it is refused, it is for
want of octets, more than remain where the cursor then stands: where it stood, or behind the first octet of a
compact size. -/
theorem run_stays_within {buffer : Octets} (hlen : buffer.length < 2 ^ 63) {start : Cursor}
    (hstart : start = .start buffer ∨ ∃ offset, Cursor.at? buffer offset = .ok start)
    (earlier : List Request) :
    let c := run earlier start
    c.Within buffer ∧ c.position + c.remaining = buffer.length ∧
    Indexed.difference buffer.length c.position = some c.remaining ∧
    Indexed.run buffer earlier start.position = some c.position ∧
    (∀ later, c.position ≤ (run later c).position) ∧
    ∀ q, Indexed.perform buffer q c.position = some ((q.outcome c).1, (q.outcome c).2.position) ∧
      (∀ item d, q.outcome c = (.ok item, d) → ∃ form, q.Form item form ∧ q.Determines item form ∧
        c.Passes form d ∧ form = (buffer.drop c.position).take (d.position - c.position)) ∧
      ∀ e d, q.outcome c = (.error e, d) → d = q.afterRefusal c ∧ e.WantsAt d := by
  intro c
  -- all of it rests on the place of the cursor, which both starts give and every read keeps
  have hwithin : start.Within buffer := by
    rcases hstart with rfl | ⟨offset, hat⟩
    · exact Cursor.within_start buffer
    · exact Cursor.within_of_at? hat
  obtain ⟨hc, hrun⟩ := Indexed.run_eq hlen earlier hwithin
  refine ⟨hc, hc.position_add_remaining, Indexed.difference_of_within hc, hrun,
    fun later => position_le_run later c, fun q => ⟨?_, fun item d hout => ?_, fun e d hout => ?_⟩⟩
  · exact (Indexed.perform_eq hlen q hc).2
  · obtain ⟨form, hform, hpass⟩ := form_of_outcome hout
    exact ⟨form, hform, hform.determines, hpass, hpass.eq_take hc⟩
  · exact refusal_of_outcome hout

/-- Behind the first octet a hash is refused and a word is read, and a compact size is refused that is cut
short behind its own first octet. -/
theorem run_stays_within_size_cut_short :
    let buffer : Octets := [0xAA, 1, 0, 0, 0, 0xFD, 0x34]
    let start : Cursor := ⟨1, [1, 0, 0, 0, 0xFD, 0x34]⟩
    let c := run [.hash] start
    let d := run [.hash, .word32] start
    let e := WireError.truncated 2 1
    buffer.length < 2 ^ 63 ∧ Cursor.at? buffer 1 = .ok start ∧ c = start ∧
      Request.word32.outcome c = (.ok (.word32 1), d) ∧
      Request.word32.Determines (.word32 1) [1, 0, 0, 0] ∧
      Request.compactSize.outcome d = (.error e, ⟨6, [0x34]⟩) ∧
      ⟨6, [0x34]⟩ = Request.compactSize.afterRefusal d ∧ e.WantsAt ⟨6, [0x34]⟩ ∧
      Indexed.perform buffer .compactSize d.position = some (.error e, 6) := by
  intro buffer start c d e
  have hlen : buffer.length < 2 ^ 63 := by decide
  have hat : Cursor.at? buffer 1 = .ok start := rfl
  have hword : Request.word32.outcome c = (.ok (.word32 1), d) := rfl
  have hsize : Request.compactSize.outcome d = (.error e, ⟨6, [0x34]⟩) := rfl
  obtain ⟨-, -, -, -, -, hreads⟩ := run_stays_within hlen (.inr ⟨1, hat⟩) [.hash]
  obtain ⟨-, -, -, -, -, hreads'⟩ := run_stays_within hlen (.inr ⟨1, hat⟩) [.hash, .word32]
  obtain ⟨form, -, hdetermines, -, rfl⟩ := (hreads .word32).2.1 _ _ hword
  obtain ⟨hindexed, -, hrefused⟩ := hreads' .compactSize
  obtain ⟨hafter, hwants⟩ := hrefused e _ hsize
  exact ⟨hlen, hat, rfl, hword, hdetermines, hsize, hafter, hwants, hindexed⟩

end Request

end AnchoredLedger
