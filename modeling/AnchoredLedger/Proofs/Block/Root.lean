import AnchoredLedger.Proofs.Block.Verdicts

/-! # Where the root in force comes from

A block has one place for its root. A root that was supplied stands there, and so does one that was
worked out and remembered, and nothing tells the two apart. What does is the history of the block: which
root it was supplied with last, and whether its list was edited since.

* **`Block.Supplied`** — the ways in which a block comes about, with the root it is given there.
* **`Block.suppliedAfter`**, **`Block.suppliedDuring`** — the root supplied last, over edits.
* **`Block.RootFrom`** — the root at its place is the supplied one, or else none or the one of the list;
  every edit keeps this.
* **`Block.merkleRoot_of_history`** — the root in force, and what its check can find. -/

namespace AnchoredLedger

namespace Block

variable {b c : Block} {last : Option Hash}

/-! ## Roots that are supplied -/

/-- The root on the wire: the 32 octets behind the first 69, in reverse; zero where there are fewer. -/
def rootOnWire (octets : Octets) : Hash :=
  (FixedOctets.ofWire ((octets.drop 69).take 32)).toOption.getD .zero

/-- The root of a header stands at its place on the wire. -/
theorem rootOnWire_append {h : Header} {form : Octets} (hform : h.Form form) (rest : Octets) :
    rootOnWire (form ++ rest) = h.merkleRoot := by
  have hlen : form.length = 137 := hform.length
  -- the slice ends before the octets behind the header begin
  have hslice : ((form ++ rest).drop 69).take 32 = h.merkleRoot.toWire := by
    rw [FixedOctets.toWire_eq_iff.2 hform.merkleRoot, List.drop_append_of_le_length (by omega),
      List.take_append_of_le_length (by rw [List.length_drop]; omega)]
  rw [rootOnWire, hslice, FixedOctets.ofWire_toWire]
  rfl

/-- The root that an entry of a draft gives. -/
def entryRoot? : Draft.Entry → Option Hash
  | .merkleRoot root => some root
  | _ => none

/-- The root that entries of a draft give: that of the last one that gives any. -/
def draftedRoot? (entries : List Draft.Entry) : Option Hash :=
  (entries.filterMap entryRoot?).getLast?

theorem draftedRoot?_cons (e : Draft.Entry) (es : List Draft.Entry) :
    draftedRoot? (e :: es) = (draftedRoot? es).or (entryRoot? e) := by
  unfold draftedRoot?
  cases hroot : entryRoot? e with
  | none => rw [List.filterMap_cons_none hroot, Option.or_none]
  | some root =>
    rw [List.filterMap_cons_some hroot, List.getLast?_cons]
    cases (es.filterMap entryRoot?).getLast? <;> rfl

/-- A draft has the root that was entered last. -/
theorem merkleRoot_enterAll (d : Draft) (entries : List Draft.Entry) :
    (d.enterAll entries).merkleRoot = (draftedRoot? entries).or d.merkleRoot := by
  -- over any draft so far, whose root counts only if no later entry gives one
  induction entries generalizing d with
  | nil => rfl
  | cons e es ih =>
    have hfirst : (d.enter e).merkleRoot = (entryRoot? e).or d.merkleRoot := by
      cases e <;> rfl
    calc (d.enterAll (e :: es)).merkleRoot = ((d.enter e).enterAll es).merkleRoot := rfl
      _ = (draftedRoot? es).or (d.enter e).merkleRoot := ih (d.enter e)
      _ = (draftedRoot? (e :: es)).or d.merkleRoot := by
        rw [hfirst, draftedRoot?_cons, Option.or_assoc]

/-- **The ways in which a block comes about, with the root that it is supplied with**, if with any. -/
inductive Supplied : Block → Option Hash → Prop
  /-- Made from its fields. -/
  | new (version : UInt32) (planKey : PlanKey) (prevBlock : Hash) (root? : Option Hash)
      (prevAnchor : Hash) (time : UInt32) (transactions : List Hash) :
      Supplied (new version planKey prevBlock root? prevAnchor time transactions) root?
  /-- Made as a bare header. -/
  | withVersion (version time : UInt32) : Supplied (withVersion version time) none
  /-- Made from a draft. -/
  | drafted (entries : List Draft.Entry) (now : UInt32) :
      Supplied ((Draft.blank.enterAll entries).build now) (draftedRoot? entries)
  /-- Read from a buffer. -/
  | parsed {network : Network} {retain : Bool} {buffer : Octets} {offset : Nat} {b : Block}
      (h : parse network retain buffer offset = .ok b) :
      Supplied b (some (rootOnWire (buffer.drop offset)))

/-- Every way in which a block comes about supplies a root or none. -/
theorem constructed_iff_supplied : Constructed b ↔ ∃ given, Supplied b given := by
  constructor
  · rintro (⟨_, _, _, root?, _, _, _⟩ | ⟨_, _⟩ | ⟨_, _⟩ | h)
    · exact ⟨root?, .new ..⟩
    · exact ⟨none, .withVersion ..⟩
    · exact ⟨_, .drafted ..⟩
    · exact ⟨_, .parsed h⟩
  · rintro ⟨given, ⟨_, _, _, _, _, _, _⟩ | ⟨_, _⟩ | ⟨_, _⟩ | h⟩
    · exact .new ..
    · exact .withVersion ..
    · exact .drafted ..
    · exact .parsed h

/-- **The root that was supplied last after one more edit**, or none if the list was edited since. A
header that takes the place of the block is supplied with the root in force, and a block that is read
again with the root on the wire. -/
def suppliedAfter (b : Block) (last : Option Hash) : Edit → Option Hash
  | .setMerkleRoot root => some root
  | .addTransactionHash _ => none
  | .addTransaction _ => none
  | .setTransactions _ => none
  | .cloneAsHeader => some b.merkleRoot
  | .reparse network retain =>
    match parse network retain b.encode 0 with
    | .ok _ => some (rootOnWire b.encode)
    | .error _ => last
  | _ => last

/-- **The root that was supplied last after a run of edits**, or none if the list was edited since. -/
def suppliedDuring (b : Block) (last : Option Hash) : List Edit → Option Hash
  | [] => last
  | e :: es => (b.apply e).suppliedDuring (b.suppliedAfter last e) es

/-! ## The root at its place -/

/-- **The root at its place is the one that was supplied last.** If none was, or if the list was edited
since, the place is empty or has the root of the list. -/
def RootFrom (b : Block) : Option Hash → Prop
  | some root => b.root? = some root
  | none => b.root? = none ∨ b.root? = some b.calculateMerkleRoot

/-- The root in force is the one that was supplied last, or else that of the list. -/
theorem RootFrom.merkleRoot_eq (h : b.RootFrom last) :
    b.merkleRoot = last.getD b.calculateMerkleRoot := by
  unfold merkleRoot
  cases last with
  | some root =>
    have hroot : b.root? = some root := h
    rw [hroot, Option.getD_some]
  | none =>
    -- an empty place and one with the root of the list stand for the same
    rcases h with hroot | hroot
    · rw [hroot]
    · rw [hroot, Option.getD_some, Option.getD_none]

theorem RootFrom.congr (h : b.RootFrom last) (hroot : c.root? = b.root?)
    (htransactions : c.transactions = b.transactions) : c.RootFrom last := by
  cases last with
  | some root => exact hroot.trans h
  | none =>
    show c.root? = none ∨ c.root? = some c.calculateMerkleRoot
    rw [hroot, calculateMerkleRoot_congr htransactions]
    exact h

/-- Questions leave behind the root that was there, or the one in force. -/
theorem RootFrom.consult (h : b.RootFrom last) (q : Query) : (b.consult q).RootFrom last := by
  obtain ⟨root?, identity?, hconsult, hroot, -⟩ := b.exists_consult_eq q
  rw [hconsult]
  rcases hroot with rfl | rfl
  · exact h.congr rfl rfl
  · -- what is remembered is the root in force, and that is known from the history
    rw [h.merkleRoot_eq]
    cases last with
    | some root => exact rfl
    | none => exact .inr rfl

theorem RootFrom.sign (h : b.RootFrom last) (key : KeyPair) :
    ((b.sign key).toOption.getD b).RootFrom last := by
  rcases b.sign_cases key with ⟨e, -, hsign⟩ | ⟨signature, -, hsign⟩
  · rw [hsign]
    exact h
  · rw [hsign]
    exact (h.consult .hash).congr rfl rfl

/-- A block that is read has the root on the wire at its place. -/
theorem root?_of_parse {network : Network} {retain : Bool} {buffer : Octets} {offset : Nat}
    (h : parse network retain buffer offset = .ok b) :
    b.root? = some (rootOnWire (buffer.drop offset)) := by
  obtain ⟨-, s, used, rest, hrest, hform, rfl⟩ := parse_eq_ok_iff.1 h
  have hsplit : buffer.drop offset = used.take Header.size ++ (used.drop Header.size ++ rest) := by
    rw [← List.append_assoc, List.take_append_drop, hrest]
  rw [hsplit, rootOnWire_append hform.header]
  rfl

/-- **Every edit keeps the root at its place in step with the history.** -/
theorem RootFrom.apply (h : b.RootFrom last) (e : Edit) :
    (b.apply e).RootFrom (b.suppliedAfter last e) := by
  cases e with
  | setVersion v => exact h.congr rfl rfl
  | setTime t => exact h.congr rfl rfl
  | setPlanKey k => exact h.congr rfl rfl
  | setPrevBlock p => exact h.congr rfl rfl
  | setPrevAnchor p => exact h.congr rfl rfl
  | setMerkleRoot root => exact rfl
  | addTransactionHash t => exact .inl rfl
  | addTransaction t => exact .inl rfl
  | setTransactions hashes => exact .inl rfl
  | setSignatures signatures => exact h.congr rfl rfl
  | setAnchor anchor => exact h.congr rfl rfl
  | sign key => exact h.sign key
  | clone => exact h
  | cloneAsHeader => exact rfl
  | consult q => exact h.consult q
  | reparse network retain =>
    simp only [Block.apply, suppliedAfter]
    cases hparse : parse network retain b.encode 0 with
    | error e => exact h
    | ok c => exact root?_of_parse hparse

/-- **Every run keeps the root at its place in step with the history.** -/
theorem RootFrom.run (h : b.RootFrom last) (edits : List Edit) :
    (b.run edits).RootFrom (b.suppliedDuring last edits) := by
  -- block and history move on together, so both are general
  induction edits generalizing b last with
  | nil => exact h
  | cons e es ih => exact ih (h.apply e)

/-- A block that has just come about has the root that it was supplied with. -/
theorem Supplied.rootFrom {given : Option Hash} (h : Supplied b given) : b.RootFrom given := by
  cases h with
  | new version planKey prevBlock root? prevAnchor time transactions =>
    cases given with
    | some root => exact rfl
    | none => exact .inl rfl
  | withVersion version time => exact .inl rfl
  | drafted entries now =>
    -- a blank draft has no root, so the entries alone decide
    have hroot : ((Draft.blank.enterAll entries).build now).root? = draftedRoot? entries := by
      have hentered := merkleRoot_enterAll .blank entries
      rwa [show Draft.blank.merkleRoot = none from rfl, Option.or_none] at hentered
    cases hdrafted : draftedRoot? entries with
    | some root => exact hroot.trans hdrafted
    | none => exact .inl (hroot.trans hdrafted)
  | parsed h => exact root?_of_parse h

/-- Reachable blocks are those at the end of a run of edits from a block that was supplied with a root
or none. -/
theorem reachable_iff_supplied : b.Reachable ↔
    ∃ origin given edits, Supplied origin given ∧ b = origin.run edits := by
  rw [reachable_iff]
  constructor
  · rintro ⟨origin, edits, horigin, rfl⟩
    obtain ⟨given, hgiven⟩ := constructed_iff_supplied.1 horigin
    exact ⟨origin, given, edits, hgiven, rfl⟩
  · rintro ⟨origin, given, edits, horigin, rfl⟩
    exact ⟨origin, edits, constructed_iff_supplied.2 ⟨given, horigin⟩, rfl⟩

/-- **The root in force is the one that was supplied last**, if the list was not edited since; else it is
worked out from the list, and zero where there are no hashes. So the check of the root refuses a block
only if its root was supplied and it has a list. Every reachable block has a history, and this holds of
whichever it has. -/
theorem merkleRoot_of_history (b : Block) (hreachable : b.Reachable) :
    (∃ origin given edits, Supplied origin given ∧ b = origin.run edits) ∧
    ∀ origin given edits, Supplied origin given → b = origin.run edits →
      let last := origin.suppliedDuring given edits
      (∀ root, last = some root → b.merkleRoot = root) ∧
      (last = none → b.merkleRoot = b.calculateMerkleRoot ∧ Verdict.ofMerkleRoot b = .accepted) ∧
      (∀ hashes, b.transactions = some hashes → hashes ≠ [] →
        Merkle.root? hashes = some b.calculateMerkleRoot) ∧
      (b.transactions = none ∨ b.transactions = some [] → b.calculateMerkleRoot = .zero) ∧
      (Verdict.ofMerkleRoot b ≠ .accepted → last.isSome = true ∧ b.transactions.isSome = true) := by
  refine ⟨reachable_iff_supplied.1 hreachable, ?_⟩
  intro origin given edits horigin hrun last
  have hroot : b.merkleRoot = last.getD b.calculateMerkleRoot := by
    rw [hrun]
    exact (horigin.rootFrom.run edits).merkleRoot_eq
  have hworked : last = none → b.merkleRoot = b.calculateMerkleRoot := by
    intro hnone
    rw [hroot, hnone, Option.getD_none]
  have haccepted : last = none → Verdict.ofMerkleRoot b = .accepted := fun hnone =>
    Verdict.ofMerkleRoot_eq_accepted_iff.2 (.inr (hworked hnone).symm)
  refine ⟨?_, fun hnone => ⟨hworked hnone, haccepted hnone⟩,
    fun hashes hlist hne => root?_eq_calculateMerkleRoot hlist hne, ?_, fun hrefused => ⟨?_, ?_⟩⟩
  · intro root hsome
    rw [hroot, hsome, Option.getD_some]
  · rintro (habsent | hempty)
    · exact calculateMerkleRoot_eq_zero (by rw [habsent, Option.getD_none])
    · exact calculateMerkleRoot_eq_zero (by rw [hempty, Option.getD_some])
  · exact Option.isSome_iff_ne_none.2 fun hnone => hrefused (haccepted hnone)
  · exact Option.isSome_iff_ne_none.2 fun hnone => hrefused (Verdict.ofMerkleRoot_of_absent hnone)

/-- A drafted block with a root that is not that of its list: a header taken from it still has this
root, until it is given a list of its own. -/
theorem merkleRoot_of_history_header_given_list :
    let x : Hash := ⟨List.replicate 32 1, rfl⟩
    let origin := (Draft.blank.enterAll [.merkleRoot x, .addTransactionHash x]).build 0
    let b := origin.run [.consult .hash, .cloneAsHeader, .setTime 7, .consult .merkleRoot]
    let c := b.run [.setTransactions (some [])]
    b.Reachable ∧ c.Reachable ∧ Supplied origin (some x) ∧ b.merkleRoot = x ∧
      c.merkleRoot = .zero ∧ Verdict.ofMerkleRoot c = .accepted := by
  intro x origin b c
  have horigin : Supplied origin (some x) := .drafted [.merkleRoot x, .addTransactionHash x] 0
  have hb : b.Reachable := reachable_iff_supplied.2 ⟨origin, some x, _, horigin, rfl⟩
  have hc : c.Reachable := hb.run _
  have hroot := ((merkleRoot_of_history b hb).2 origin (some x) _ horigin rfl).1 x rfl
  obtain ⟨-, hworked, -, hzero, -⟩ := (merkleRoot_of_history c hc).2 origin (some x)
    [.consult .hash, .cloneAsHeader, .setTime 7, .consult .merkleRoot, .setTransactions (some [])]
    horigin rfl
  obtain ⟨hcalculated, haccepted⟩ := hworked rfl
  exact ⟨hb, hc, horigin, hroot, hcalculated.trans (hzero (.inr rfl)), haccepted⟩

end Block

end AnchoredLedger
