import AnchoredLedger.Proofs.Recognition

/-! # What a read makes of a buffer

A read that recognizes a grammar looks at no more of a buffer than the form that it takes. So a form is
read wherever it stands and whatever surrounds it, and no part of it short of the whole is enough.

* **`Recognizes.parseAt_eq_ok_iff`** — what is read at an offset, in terms of the grammar.
* **`Recognizes.parseAt_append`** — a form between any octets.
* **`Recognizes.exists_take_eq_error`** — a form that is cut short.
* **`Refuses.parseAt_isTruncated`** — refusals at an offset. -/

namespace AnchoredLedger.Reader

variable {α : Type} {r : Reader α} {G : Grammar α} {a : α} {buffer form : Octets} {offset : Nat}

/-- **What is read at an offset is a form that stands there**, and as many octets as it has. -/
theorem Recognizes.parseAt_eq_ok_iff (h : Recognizes r G) {used : Nat} :
    parseAt r buffer offset = .ok (a, used) ↔ offset ≤ buffer.length ∧
      ∃ form rest, buffer.drop offset = form ++ rest ∧ G a form ∧ used = form.length := by
  rw [Reader.parseAt_eq_ok_iff]
  refine and_congr_right fun _ => ?_
  constructor
  · rintro ⟨d, hread, rfl⟩
    obtain ⟨form, hform, hrest, hpos⟩ := (h a _ d).1 hread
    refine ⟨form, d.rest, hrest, hform, ?_⟩
    rw [hpos, Nat.add_sub_cancel_left]
  · rintro ⟨form, rest, hrest, hform, rfl⟩
    refine ⟨⟨offset + form.length, rest⟩, (h a _ _).2 ⟨form, hform, hrest, rfl⟩, ?_⟩
    rw [Nat.add_sub_cancel_left]

/-- **A form is read wherever it stands**, and exactly it is used up. -/
theorem Recognizes.parseAt_append (h : Recognizes r G) (hform : G a form) (before behind : Octets) :
    parseAt r (before ++ form ++ behind) before.length = .ok (a, form.length) := by
  refine h.parseAt_eq_ok_iff.2 ⟨?_, form, behind, ?_, hform, rfl⟩
  · simp only [List.length_append]
    omega
  · rw [List.append_assoc, List.drop_left]

/-- **A form that is cut short is refused.** -/
theorem Recognizes.exists_take_eq_error (h : Recognizes r G) (hform : G a form) {n : Nat}
    (hn : n < form.length) (position : Nat) : ∃ e d, r ⟨position, form.take n⟩ = .error e d := by
  cases hread : r ⟨position, form.take n⟩ with
  | error e d => exact ⟨e, d, rfl⟩
  | ok b d =>
    -- what was read would be another form at the front of the same octets
    obtain ⟨other, hother, hrest, -⟩ := (h b _ d).1 hread
    have hsame : form ++ [] = other ++ (d.rest ++ form.drop n) := by
      rw [← List.append_assoc, ← hrest, List.take_append_drop, List.append_nil]
    obtain ⟨-, heq, -⟩ := h.unique hform hother hsame
    have hlen := congrArg List.length hrest
    rw [List.length_take, List.length_append, ← heq] at hlen
    omega

/-- A form that is cut short is refused whatever stands before it. -/
theorem Recognizes.exists_parseAt_append_take_eq_error (h : Recognizes r G) (hform : G a form) {n : Nat}
    (hn : n < form.length) (before : Octets) :
    ∃ e, parseAt r (before ++ form.take n) before.length = .error e := by
  obtain ⟨e, d, hread⟩ := h.exists_take_eq_error hform hn before.length
  refine ⟨e, parseAt_eq_error_iff.2 (.inr ⟨?_, d, ?_⟩)⟩
  · rw [List.length_append]
    omega
  · rwa [List.drop_left]

/-- A form that is cut short and stands alone. -/
theorem Recognizes.exists_parseAt_take_eq_error (h : Recognizes r G) (hform : G a form) {n : Nat}
    (hn : n < form.length) : ∃ e, parseAt r (form.take n) 0 = .error e :=
  h.exists_parseAt_append_take_eq_error hform hn []

/-- A read that refuses for want of octets only does so at every offset, also beyond the end. -/
theorem Refuses.parseAt_isTruncated (h : Refuses r WireError.IsTruncated) {e : WireError}
    (hparse : parseAt r buffer offset = .error e) : e.IsTruncated := by
  rcases parseAt_eq_error_iff.1 hparse with ⟨-, rfl⟩ | ⟨-, d, hread⟩
  · exact ⟨_, _, rfl⟩
  · exact h e _ d hread

end AnchoredLedger.Reader
