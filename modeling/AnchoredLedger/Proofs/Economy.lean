import AnchoredLedger.Proofs.CompactSize

/-! # Forms that differ in their compact sizes only

Where a wire form counts what it holds, it may do so in a longer form than needed; the rest of it leaves
no choice. So a grammar that is put together from counts and from parts with one form each has one form
for a value that is shorter than all others, and that is what is written.

* **`Grammar.Only`**, **`Grammar.Append`**, **`Grammar.Of`**, **`Grammar.Counted`** — parts with one form,
  parts behind one another, parts of a value, parts with a count in front. The grammar of the counts
  is a parameter: `CompactSize.Form` leaves them free, `CompactSize.Shortest` does not.
* **`Economical`** — what is written has the shortest counts, nothing else has, and all else is longer.
  It holds of the parts, and is kept by putting parts together: `economical_only`, `Economical.append`,
  `Economical.of`, `Economical.items`, `Economical.counted`.
* **`Economical.length_le`**, **`Economical.length_eq_iff`**, **`Economical.shortest_iff_eq`** — what the
  length of a form says about it.
* **`ReadsCounts`** — ways of reading counts that take any form of them. -/

namespace AnchoredLedger

/-! ## Putting grammars together -/

namespace Grammar

variable {α β : Type}

/-- **A part with one form**: what is written for it. -/
def Only (encode : α → Octets) : Grammar α := fun a form => form = encode a

/-- **Two parts, one behind the other.** -/
def Append (G H : Grammar α) : Grammar α := fun a form => ∃ xs ys, G a xs ∧ H a ys ∧ form = xs ++ ys

/-- **A part of a value.** -/
def Of (G : Grammar β) (part : α → β) : Grammar α := fun a form => G (part a) form

/-- **A part with a count in front.** -/
def Counted (sizes : Grammar Nat) (count : α → Nat) (G : Grammar α) : Grammar α :=
  (sizes.Of count).Append G

end Grammar

open CompactSize

variable {α β : Type}

/-! ## Economy -/

/-- **Writing is economical for a grammar.** The first argument says which counts a form may have. -/
structure Economical (G : Grammar Nat → Grammar α) (encode : α → Octets) : Prop where
  /-- What is written has the shortest counts, if its length is a 64-bit word. -/
  written : ∀ {a : α}, (encode a).length < 2 ^ 64 → G Shortest a (encode a)
  /-- What has any form can be written. -/
  rewritten : ∀ {a : α} {form : Octets}, G Form a form → G Shortest a (encode a)
  /-- Nothing else has the shortest counts. -/
  eq_of_shortest : ∀ {a : α} {form : Octets}, G Shortest a form → form = encode a
  /-- The shortest counts are counts. -/
  form_of_shortest : ∀ {a : α} {form : Octets}, G Shortest a form → G Form a form
  /-- All other forms are longer. -/
  eq_or_longer : ∀ {a : α} {form : Octets}, G Form a form →
    form = encode a ∨ (encode a).length < form.length

/-- A part with one form. -/
theorem economical_only (encode : α → Octets) : Economical (fun _ => Grammar.Only encode) encode where
  written := fun _ => rfl
  rewritten := fun _ => rfl
  eq_of_shortest := id
  form_of_shortest := id
  eq_or_longer := .inl

/-- Two parts, each of them as written or longer, make a whole that is as written or longer. -/
theorem append_eq_or_longer {xs ys xs' ys' : Octets} (hx : xs = xs' ∨ xs'.length < xs.length)
    (hy : ys = ys' ∨ ys'.length < ys.length) :
    xs ++ ys = xs' ++ ys' ∨ (xs' ++ ys').length < (xs ++ ys).length := by
  rw [List.length_append, List.length_append]
  rcases hx with rfl | hx
  · rcases hy with rfl | hy
    · exact .inl rfl
    · exact .inr (by omega)
  · rcases hy with rfl | hy
    · exact .inr (by omega)
    · exact .inr (by omega)

namespace Economical

variable {G H : Grammar Nat → Grammar α} {encode encode' : α → Octets} {a : α} {form : Octets}

/-- Parts behind one another. -/
theorem append (hG : Economical G encode) (hH : Economical H encode') :
    Economical (fun sizes => (G sizes).Append (H sizes)) fun a => encode a ++ encode' a where
  written := by
    intro a hlen
    rw [List.length_append] at hlen
    exact ⟨_, _, hG.written (by omega), hH.written (by omega), rfl⟩
  rewritten := by
    rintro a _ ⟨xs, ys, hxs, hys, -⟩
    exact ⟨_, _, hG.rewritten hxs, hH.rewritten hys, rfl⟩
  eq_of_shortest := by
    rintro a _ ⟨xs, ys, hxs, hys, rfl⟩
    rw [hG.eq_of_shortest hxs, hH.eq_of_shortest hys]
  form_of_shortest := by
    rintro a _ ⟨xs, ys, hxs, hys, rfl⟩
    exact ⟨xs, ys, hG.form_of_shortest hxs, hH.form_of_shortest hys, rfl⟩
  eq_or_longer := by
    rintro a _ ⟨xs, ys, hxs, hys, rfl⟩
    exact append_eq_or_longer (hG.eq_or_longer hxs) (hH.eq_or_longer hys)

/-- A part of a value. -/
theorem of (hG : Economical G encode) (part : β → α) :
    Economical (fun sizes => (G sizes).Of part) fun b => encode (part b) where
  written := hG.written
  rewritten := hG.rewritten
  eq_of_shortest := hG.eq_of_shortest
  form_of_shortest := hG.form_of_shortest
  eq_or_longer := hG.eq_or_longer

/-- Forms one after another. -/
theorem items (hG : Economical G encode) :
    Economical (fun sizes => (G sizes).Items) fun as => as.flatMap encode where
  written := by
    intro as hlen
    induction as with
    | nil => exact .nil
    | cons a as ih =>
      rw [List.flatMap_cons, List.length_append] at hlen
      exact .cons (hG.written (by omega)) (ih (by omega))
  rewritten := by
    intro as form h
    induction h with
    | nil => exact .nil
    | cons head _ ih => exact .cons (hG.rewritten head) ih
  eq_of_shortest := by
    intro as form h
    induction h with
    | nil => rfl
    | cons head _ ih => rw [List.flatMap_cons, hG.eq_of_shortest head, ih]
  form_of_shortest := by
    intro as form h
    induction h with
    | nil => exact .nil
    | cons head _ ih => exact .cons (hG.form_of_shortest head) ih
  eq_or_longer := by
    intro as form h
    induction h with
    | nil => exact .inl rfl
    | cons head _ ih =>
      rw [List.flatMap_cons]
      exact append_eq_or_longer (hG.eq_or_longer head) ih

/-- A count in front of something that is at least as long. -/
theorem counted (hG : Economical G encode) {count : α → Nat}
    (hcount : ∀ a, count a ≤ (encode a).length) :
    Economical (fun sizes => Grammar.Counted sizes count (G sizes))
      fun a => CompactSize.encode (count a) ++ encode a where
  written := by
    intro a hlen
    rw [List.length_append] at hlen
    have hsmall := hcount a
    exact ⟨_, _, shortest_iff.2 ⟨by omega, rfl⟩, hG.written (by omega), rfl⟩
  rewritten := by
    rintro a _ ⟨xs, ys, hxs, hys, -⟩
    exact ⟨_, _, shortest_iff.2 ⟨hxs.lt, rfl⟩, hG.rewritten hys, rfl⟩
  eq_of_shortest := by
    rintro a _ ⟨xs, ys, hxs, hys, rfl⟩
    rw [(shortest_iff.1 hxs).2, hG.eq_of_shortest hys]
  form_of_shortest := by
    rintro a _ ⟨xs, ys, hxs, hys, rfl⟩
    exact ⟨xs, ys, hxs.form, hG.form_of_shortest hys, rfl⟩
  eq_or_longer := by
    rintro a _ ⟨xs, ys, hxs, hys, rfl⟩
    have hx := hxs.eq_encode_or_longer
    rw [← length_encode] at hx
    exact append_eq_or_longer hx (hG.eq_or_longer hys)

/-! ## What the length of a form says -/

/-- **No form is shorter than what is written.** -/
theorem length_le (hG : Economical G encode) (h : G Form a form) :
    (encode a).length ≤ form.length := by
  rcases hG.eq_or_longer h with rfl | hlonger
  · exact Nat.le_refl _
  · exact Nat.le_of_lt hlonger

/-- **Of that length there is no other form.** -/
theorem length_eq_iff (hG : Economical G encode) (h : G Form a form) :
    (encode a).length = form.length ↔ encode a = form := by
  constructor
  · intro hlen
    exact ((hG.eq_or_longer h).resolve_right (by omega)).symm
  · rintro rfl
    rfl

/-- **A form with the shortest counts is what is written.** -/
theorem shortest_iff_eq (hG : Economical G encode) (h : G Form a form) :
    G Shortest a form ↔ encode a = form := by
  constructor
  · intro hshort
    exact (hG.eq_of_shortest hshort).symm
  · rintro rfl
    exact hG.rewritten h

end Economical

/-! ## Reading counts -/

open Reader

/-- **A way of reading counts that takes any form of them**, as long as what is counted takes no less
room than so many items of the given size. -/
def ReadsCounts (length : Nat → Reader Nat) : Prop :=
  ∀ {α : Type} {k : Nat → Reader α} {G : Grammar α} (count : α → Nat) (item : Nat),
    (∀ n, Recognizes (k n) fun a form => count a = n ∧ G a form) →
    (∀ a form, G a form → count a * item ≤ form.length) →
    Recognizes (length item >>= k) (Grammar.Counted Form count G)

/-- A count in front of items that are as many is the count of the items. -/
theorem counted_iff {count : α → Nat} {G : Grammar α} {a : α} {form : Octets} :
    CompactSize.Counted (fun n a items => count a = n ∧ G a items) a form ↔
      Grammar.Counted Form count G a form := by
  constructor
  · rintro ⟨n, xs, ys, hxs, ⟨rfl, hys⟩, rfl⟩
    exact ⟨xs, ys, hxs, hys, rfl⟩
  · rintro ⟨xs, ys, hxs, hys, rfl⟩
    exact ⟨_, xs, ys, hxs, ⟨rfl, hys⟩, rfl⟩

/-- Checking ahead that there is room for the items changes nothing about what is read. -/
theorem readsCounts_readLength : ReadsCounts readLength := by
  intro α k G count item hk hroom
  refine (recognizes_counted item hk ?_).congr fun _ _ => counted_iff
  rintro n a form ⟨rfl, hform⟩
  exact hroom a form hform

end AnchoredLedger
