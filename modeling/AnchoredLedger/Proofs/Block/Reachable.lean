import AnchoredLedger.Block.Draft
import AnchoredLedger.Block.Edit

/-! # Reachable blocks

The blocks that there can be: those that are made or read, and what edits turn them into.

* **`Block.Constructed`** — the blocks that are made from fields or drafts, or read from octets.
* **`Block.Reachable`** — these, and what any edit makes of a reachable block. `reachable_iff` says
  that a reachable block is a constructed one after a run of edits. -/

namespace AnchoredLedger.Block

/-- **The ways in which a block comes about** without another block. -/
inductive Constructed : Block → Prop
  /-- Made from its fields. -/
  | new (version : UInt32) (planKey : PlanKey) (prevBlock : Hash) (root? : Option Hash)
      (prevAnchor : Hash) (time : UInt32) (transactions : List Hash) :
      Constructed (new version planKey prevBlock root? prevAnchor time transactions)
  /-- Made as a bare header. -/
  | withVersion (version time : UInt32) : Constructed (withVersion version time)
  /-- Made from a draft. -/
  | drafted (entries : List Draft.Entry) (now : UInt32) :
      Constructed ((Draft.blank.enterAll entries).build now)
  /-- Read from a buffer. -/
  | parsed {network : Network} {retain : Bool} {buffer : Octets} {offset : Nat} {b : Block}
      (h : parse network retain buffer offset = .ok b) : Constructed b

/-- **The blocks that there can be**: constructed ones, and what edits make of reachable ones. -/
inductive Reachable : Block → Prop
  /-- A block that has just come about. -/
  | constructed {b : Block} (h : Constructed b) : Reachable b
  /-- A reachable block after one more edit. -/
  | edited {b : Block} (h : Reachable b) (e : Edit) : Reachable (b.apply e)

theorem Reachable.run {b : Block} (h : b.Reachable) (edits : List Edit) :
    (b.run edits).Reachable := by
  induction edits generalizing b with
  | nil => exact h
  | cons e es ih => exact ih (h.edited e)

/-- Reachable blocks are those at the end of a run of edits from a constructed one. -/
theorem reachable_iff {b : Block} :
    b.Reachable ↔ ∃ origin edits, Constructed origin ∧ b = origin.run edits := by
  constructor
  · intro h
    induction h with
    | @constructed b h => exact ⟨b, [], h, rfl⟩
    | edited _ e ih =>
      obtain ⟨origin, edits, horigin, rfl⟩ := ih
      exact ⟨origin, edits ++ [e], horigin, (run_append origin edits [e]).symm⟩
  · rintro ⟨origin, edits, horigin, rfl⟩
    exact (Reachable.constructed horigin).run edits

end AnchoredLedger.Block
