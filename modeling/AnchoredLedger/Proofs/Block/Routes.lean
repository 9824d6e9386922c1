import AnchoredLedger.Proofs.Block.Retention
import AnchoredLedger.Proofs.Block.Root
import AnchoredLedger.Proofs.Unwinding

/-! # Ways to one block

A block with given fields may be drafted, made at once, or made in some other way and then set field by
field; its list may be set at once or hash by hash, and questions may be asked meanwhile. The parts of a
block are set apart from each other, so the order of calls for different parts does not matter and the last
call for a part decides. Only the root depends on another part: a root that is supplied counts if the list
is not edited after it.

* **`Block.Part`**, **`Contents.part`** — the parts that calls set. `Contents.part_run` says that the calls
  for a part decide it.
* **`Block.suppliedDuring_eq`** — the last call for the root or the list decides which root is supplied.
* **`Contents.part_enterAll`** — drafts have their parts in the same way.
* **`Block.Choice`** — the fields that a block is to have; **`Choice.Gives`** — calls that give it a part.
* **`Choice.Makes`** — the ways to a block with the chosen fields.
* **`Block.makes_agree`** — all ways lead to one header and to one wire form. -/

namespace AnchoredLedger.Block

variable {b d : Block}

/-! ## The parts of a block -/

/-- **The parts of a block that are set apart from each other.** The root is none of them, for it depends
on the list. -/
inductive Part where
  /-- Version number. -/
  | version
  /-- Second signer of the redemption path. -/
  | planKey
  /-- Identity of the previous block. -/
  | prevBlock
  /-- The transaction that anchors the previous block. -/
  | prevAnchor
  /-- Seconds since the epoch. -/
  | time
  /-- Hashes of the transactions. -/
  | list
  /-- The signature. -/
  | signatures
deriving DecidableEq

/-- What a part may be. -/
def Part.Value : Part → Type
  | .version => UInt32
  | .planKey => PlanKey
  | .prevBlock => Hash
  | .prevAnchor => Hash
  | .time => UInt32
  | .list => Option (List Hash)
  | .signatures => Option Octets

/-- **A part of what a block says.** -/
def Contents.part (k : Contents) : (p : Part) → p.Value
  | .version => k.header.version
  | .planKey => k.header.planKey
  | .prevBlock => k.header.prevBlock
  | .prevAnchor => k.header.prevAnchor
  | .time => k.header.time
  | .list => k.transactions
  | .signatures => k.signatures

/-- The part that an edit sets, if it sets one. -/
def Edit.part? : Edit → Option Part
  | .setVersion _ => some .version
  | .setTime _ => some .time
  | .setPlanKey _ => some .planKey
  | .setPrevBlock _ => some .prevBlock
  | .setPrevAnchor _ => some .prevAnchor
  | .addTransactionHash _ => some .list
  | .addTransaction _ => some .list
  | .setTransactions _ => some .list
  | .setSignatures _ => some .signatures
  | _ => none

/-- **A setter**, for a part or for the root or the anchor, or a copy or a question, which set nothing. -/
def Edit.IsSetter : Edit → Prop
  | .sign _ => False
  | .cloneAsHeader => False
  | .reparse _ _ => False
  | _ => True

theorem Edit.IsSetter.isLocal {e : Edit} (h : e.IsSetter) : e.IsLocal := by
  cases e with
  | reparse network retain => exact h.elim
  | _ => trivial

/-- A setter for the list or the signature rewrites the body. -/
theorem Edit.rewrites_of_part {e : Edit} (h : e.part? = some .list ∨ e.part? = some .signatures) :
    b.Rewrites e := by
  cases e with
  | addTransactionHash t => trivial
  | addTransaction t => trivial
  | setTransactions hashes => trivial
  | setSignatures signatures => trivial
  | _ => rcases h with h | h <;> cases h

theorem rewritesDuring_of_mem {e : Edit} {edits : List Edit} (he : e ∈ edits)
    (h : e.part? = some .list ∨ e.part? = some .signatures) : b.RewritesDuring edits := by
  induction edits generalizing b with
  | nil => cases he
  | cons first rest ih =>
    rcases List.mem_cons.1 he with rfl | hlater
    · exact .inl (Edit.rewrites_of_part h)
    · exact .inr (ih hlater)

/-- The edits of a run that set a part. -/
def Part.calls (p : Part) (edits : List Edit) : List Edit := edits.filter fun e => e.part? = some p

namespace Contents

variable {k l : Contents} {p : Part} {edits : List Edit}

/-- A setter for something else leaves a part as it is. -/
theorem part_apply_of_ne {e : Edit} (hsetter : e.IsSetter) (hother : e.part? ≠ some p) :
    (k.apply e).part p = k.part p := by
  cases e with
  | sign key => exact hsetter.elim
  | cloneAsHeader => exact hsetter.elim
  | reparse network retain => exact hsetter.elim
  | _ => cases p <;> first | rfl | exact absurd rfl hother

/-- What a setter makes of its part depends on nothing else. -/
theorem part_apply_congr {e : Edit} (hpart : e.part? = some p) (h : k.part p = l.part p) :
    (k.apply e).part p = (l.apply e).part p := by
  cases e with
  | addTransactionHash t =>
    cases hpart
    exact congrArg (fun list : Option (List Hash) => some (list.getD [] ++ [t])) h
  | addTransaction t =>
    cases hpart
    exact congrArg (fun list : Option (List Hash) => some (list.getD [] ++ [t.txid])) h
  | _ => cases hpart <;> rfl

/-- Setters for something else are not seen in a part. -/
theorem part_unwinding (p : Part) :
    Unwinding apply (part · p) (fun e => e.part? = some p) Edit.IsSetter fun _ => True where
  keep _ _ _ := trivial
  unseen k e _ hsetter hunseen := part_apply_of_ne hsetter (of_decide_eq_false hunseen)
  congr k l e _ _ hsetter h := by
    by_cases hpart : e.part? = some p
    · exact part_apply_congr hpart h
    · rw [part_apply_of_ne hsetter hpart, part_apply_of_ne hsetter hpart, h]

/-- **The calls for a part decide it**: the others may be left out. -/
theorem part_run (hsetters : ∀ e ∈ edits, e.IsSetter) (h : k.part p = l.part p) :
    (k.run edits).part p = (l.run (p.calls edits)).part p :=
  (part_unwinding p).foldl_filter hsetters trivial trivial h

end Contents

/-! ## The root -/

/-- What an edit has to say about the root that is supplied: this one, or none where it edits the list. -/
def Edit.supplies? : Edit → Option (Option Hash)
  | .setMerkleRoot root => some (some root)
  | .addTransactionHash _ => some none
  | .addTransaction _ => some none
  | .setTransactions _ => some none
  | _ => none

theorem suppliedAfter_eq {e : Edit} (hsetter : e.IsSetter) (last : Option Hash) :
    b.suppliedAfter last e = e.supplies?.getD last := by
  cases e with
  | cloneAsHeader => exact hsetter.elim
  | reparse network retain => exact hsetter.elim
  | _ => rfl

/-- **The last call for the root or the list decides which root is supplied.** -/
theorem suppliedDuring_eq {edits : List Edit} (hsetters : ∀ e ∈ edits, e.IsSetter) (last : Option Hash) :
    b.suppliedDuring last edits = (edits.filterMap Edit.supplies?).getLast?.getD last := by
  induction edits generalizing b last with
  | nil => rfl
  | cons e es ih =>
    obtain ⟨hfirst, hothers⟩ := List.forall_mem_cons.1 hsetters
    show (b.apply e).suppliedDuring (b.suppliedAfter last e) es = _
    rw [ih hothers, suppliedAfter_eq hfirst]
    cases hroot : e.supplies? with
    | none => rw [List.filterMap_cons_none hroot, Option.getD_none]
    | some given =>
      rw [List.filterMap_cons_some hroot, List.getLast?_cons, Option.getD_some]
      cases (es.filterMap Edit.supplies?).getLast? <;> rfl

/-! ## Drafts -/

/-- **The edit that does to a block what an entry does to its draft.** -/
def Edit.ofEntry : Draft.Entry → Edit
  | .version v => .setVersion v
  | .planKey k => .setPlanKey k
  | .prevBlock h => .setPrevBlock h
  | .merkleRoot h => .setMerkleRoot h
  | .prevAnchor h => .setPrevAnchor h
  | .time t => .setTime t
  | .addTransactionHash h => .addTransactionHash h
  | .transactions hashes => .setTransactions (some hashes)
  | .headerOnly => .setTransactions none
  | .signatures octets => .setSignatures (some octets)
  | .anchor h => .setAnchor (some h)

theorem Edit.isSetter_of_mem_map_ofEntry {entries : List Draft.Entry} :
    ∀ e ∈ entries.map ofEntry, e.IsSetter := by
  intro e he
  obtain ⟨entry, -, rfl⟩ := List.mem_map.1 he
  cases entry <;> trivial

/-- An entry does to the parts what its edit does. -/
theorem Contents.part_enter (draft : Draft) (entry : Draft.Entry) (now : UInt32) (p : Part) :
    ((draft.enter entry).build now).contents.part p =
      ((draft.build now).contents.apply (.ofEntry entry)).part p := by
  cases entry <;> cases p <;> rfl

/-- **So do entries one after the other.** -/
theorem Contents.part_enterAll (draft : Draft) (entries : List Draft.Entry) (now : UInt32) (p : Part) :
    ((draft.enterAll entries).build now).contents.part p =
      ((draft.build now).contents.run (p.calls (entries.map Edit.ofEntry))).part p := by
  induction entries generalizing draft with
  | nil => rfl
  | cons entry rest ih =>
    have hrest : ∀ e ∈ rest.map Edit.ofEntry, e.IsSetter := Edit.isSetter_of_mem_map_ofEntry
    have hall : ∀ e ∈ (entry :: rest).map Edit.ofEntry, e.IsSetter := Edit.isSetter_of_mem_map_ofEntry
    calc ((draft.enterAll (entry :: rest)).build now).contents.part p
      _ = (((draft.enter entry).build now).contents.run (p.calls (rest.map Edit.ofEntry))).part p :=
        ih (draft.enter entry)
      _ = (((draft.build now).contents.apply (.ofEntry entry)).run (rest.map Edit.ofEntry)).part p :=
        (part_run hrest (part_enter draft entry now p).symm).symm
      _ = ((draft.build now).contents.run (p.calls ((entry :: rest).map Edit.ofEntry))).part p :=
        part_run hall rfl

/-! ## The fields that are chosen -/

/-- **The fields that a block is to have.** -/
structure Choice where
  /-- Version number. -/
  version : UInt32
  /-- Second signer of the redemption path. -/
  planKey : PlanKey
  /-- Identity of the previous block. -/
  prevBlock : Hash
  /-- The root, if it is supplied. -/
  root? : Option Hash
  /-- The transaction that anchors the previous block. -/
  prevAnchor : Hash
  /-- Seconds since the epoch. -/
  time : UInt32
  /-- Hashes of the transactions; absent where the block is to be only a header. -/
  transactions : Option (List Hash)
  /-- The signature, if there is to be one. -/
  signatures : Option Octets

namespace Choice

/-- The header, with the root that is supplied or else that of the list. -/
def header (c : Choice) : Header where
  version := c.version
  planKey := c.planKey
  prevBlock := c.prevBlock
  merkleRoot := c.root?.getD ((Merkle.root? (c.transactions.getD [])).getD .zero)
  prevAnchor := c.prevAnchor
  time := c.time

/-- What a block with these fields says. -/
def contents (c : Choice) : Contents where
  header := c.header
  transactions := c.transactions
  signatures := c.signatures
  anchor := none

/-- The setter that gives a part its value at once. -/
def setter (c : Choice) : Part → Edit
  | .version => .setVersion c.version
  | .planKey => .setPlanKey c.planKey
  | .prevBlock => .setPrevBlock c.prevBlock
  | .prevAnchor => .setPrevAnchor c.prevAnchor
  | .time => .setTime c.time
  | .list => .setTransactions c.transactions
  | .signatures => .setSignatures c.signatures

/-- **Calls that give a part its value**: none where it is there already, its setter behind any earlier
calls, or the hashes one by one behind calls that leave none. -/
inductive Gives (c : Choice) (k : Contents) : Part → List Edit → Prop
  /-- The part has the value already. -/
  | held {p : Part} (h : k.part p = c.contents.part p) : Gives c k p []
  /-- The setter is called last. -/
  | set {p : Part} (earlier : List Edit) : Gives c k p (earlier ++ [c.setter p])
  /-- The hashes of the list are added in their order. -/
  | added (earlier : List Edit) {hashes : List Hash} (hlist : c.transactions = some hashes)
      (hne : hashes ≠ []) (hempty : (k.run earlier).transactions.getD [] = []) :
      Gives c k .list (earlier ++ hashes.map .addTransactionHash)

/-- **The ways to a block with these fields.** -/
inductive Makes (c : Choice) : Block → Prop
  /-- It is drafted, from entries that give all parts and, if one is supplied, the root. -/
  | drafted {entries : List Draft.Entry} {now : UInt32}
      (hparts : ∀ p, c.Gives (Draft.blank.build now).contents p (p.calls (entries.map Edit.ofEntry)))
      (hroot : draftedRoot? entries = c.root?) : Makes c ((Draft.blank.enterAll entries).build now)
  /-- It is made at once with its list, and given its signature. -/
  | new {hashes : List Hash} (hlist : c.transactions = some hashes) :
      Makes c ((new c.version c.planKey c.prevBlock c.root? c.prevAnchor c.time hashes).setSignatures
        c.signatures)
  /-- It comes about in any way and is set part by part, with questions in between. The last call for the
  root or the list supplies the root if one is chosen, and is one for the list if none is; without such a
  call the root is as it was given. The body is as it would be written from the start, or list or signature
  are set. -/
  | edited {origin : Block} {given : Option Hash} {edits : List Edit} (horigin : Supplied origin given)
      (hsetters : ∀ e ∈ edits, e.IsSetter)
      (hparts : ∀ p, c.Gives origin.contents p (p.calls edits))
      (hroot : (edits.filterMap Edit.supplies?).getLast?.getD given = c.root?)
      (hanew : origin.WrittenAnew ∨ ∃ e ∈ edits, e.part? = some .list ∨ e.part? = some .signatures) :
      Makes c (origin.run edits)

variable {c : Choice} {k : Contents}

/-! ## What the ways have in common -/

/-- The setter of a part gives it its value. -/
theorem part_apply_setter (c : Choice) (k : Contents) (p : Part) :
    (k.apply (c.setter p)).part p = c.contents.part p := by
  cases p <;> rfl

/-- Hashes that are added one by one stand behind those that are there. -/
theorem transactions_run_map_addTransactionHash {listed : List Hash} (h : k.transactions = some listed)
    (hashes : List Hash) :
    (k.run (hashes.map .addTransactionHash)).transactions = some (listed ++ hashes) := by
  induction hashes generalizing k listed with
  | nil => rw [List.append_nil, ← h]; rfl
  | cons x rest ih =>
    have hfirst : (k.apply (.addTransactionHash x)).transactions = some (listed ++ [x]) := by
      show some (k.transactions.getD [] ++ [x]) = _
      rw [h, Option.getD_some]
    rw [List.append_cons]
    exact ih hfirst

/-- **Calls that give a part its value do so.** -/
theorem Gives.part_run {p : Part} {calls : List Edit} (h : c.Gives k p calls) :
    (k.run calls).part p = c.contents.part p := by
  cases h with
  | held h => exact h
  | set earlier =>
    unfold Contents.run
    rw [List.foldl_append]
    exact c.part_apply_setter _ p
  | added earlier hlist hne hempty =>
    obtain ⟨x, rest, rfl⟩ := List.exists_cons_of_ne_nil hne
    have hfirst : ((k.run earlier).apply (.addTransactionHash x)).transactions = some [x] := by
      show some ((k.run earlier).transactions.getD [] ++ [x]) = some [x]
      rw [hempty, List.nil_append]
    show (k.run (earlier ++ (x :: rest).map .addTransactionHash)).transactions = c.transactions
    unfold Contents.run
    rw [List.foldl_append, hlist]
    exact transactions_run_map_addTransactionHash hfirst rest

/-- **A block as it was chosen**: it has all the fields, and its body is as it would be written. -/
structure Describes (c : Choice) (b : Block) : Prop where
  /-- What is kept of it agrees with the fields. -/
  coherent : b.Coherent
  /-- The parts are the chosen ones. -/
  parts : ∀ p, b.contents.part p = c.contents.part p
  /-- The root in force is the one that is supplied, or else that of the list. -/
  merkleRoot : b.merkleRoot = c.root?.getD b.calculateMerkleRoot
  /-- The body is as it would be written. -/
  anew : b.WrittenAnew

/-- **All ways lead to a block as it was chosen.** -/
theorem Makes.describes (h : c.Makes b) : c.Describes b := by
  cases h with
  | @drafted entries now hparts hroot =>
    have hsupplied : Supplied ((Draft.blank.enterAll entries).build now) (draftedRoot? entries) := .drafted ..
    refine ⟨coherent_of_fresh rfl rfl, fun p => ?_, ?_, writtenAnew_of_none rfl⟩
    · rw [Contents.part_enterAll, (hparts p).part_run]
    · rw [hsupplied.rootFrom.merkleRoot_eq, hroot]
  | @new hashes hlist =>
    refine ⟨coherent_of_fresh rfl rfl, fun p => ?_, rfl, writtenAnew_of_none rfl⟩
    cases p with
    | list => exact hlist.symm
    | _ => rfl
  | @edited origin given edits horigin hsetters hparts hroot hanew =>
    have hcoherent : origin.Coherent := (constructed_iff_supplied.2 ⟨given, horigin⟩).coherent
    have hlocal : ∀ e ∈ edits, e.IsLocal := fun e he => (hsetters e he).isLocal
    refine ⟨hcoherent.run edits, fun p => ?_, ?_, ?_⟩
    · rw [hcoherent.contents_run hlocal, Contents.part_run hsetters rfl, (hparts p).part_run]
    · rw [(horigin.rootFrom.run edits).merkleRoot_eq, suppliedDuring_eq hsetters, hroot]
    · rcases hanew with hanew | ⟨e, he, hpart⟩
      · exact hanew.run hlocal
      · exact writtenAnew_run_of_rewrites hlocal (rewritesDuring_of_mem he hpart)

/-- Such a block has the chosen header, the root included. -/
theorem Describes.header_eq (h : c.Describes b) : b.header = c.header := by
  have hversion : b.version = c.version := h.parts .version
  have hplanKey : b.planKey = c.planKey := h.parts .planKey
  have hprevBlock : b.prevBlock = c.prevBlock := h.parts .prevBlock
  have hprevAnchor : b.prevAnchor = c.prevAnchor := h.parts .prevAnchor
  have htime : b.time = c.time := h.parts .time
  have hlist : b.transactions = c.transactions := h.parts .list
  unfold Block.header Choice.header
  rw [h.merkleRoot, calculateMerkleRoot_eq_getD, hversion, hplanKey, hprevBlock, hprevAnchor, htime, hlist]

/-- Such a block has the wire form that would be written for the fields. -/
theorem Describes.encode_eq (h : c.Describes b) :
    b.encode = c.header.encode ++ encodeBody c.transactions c.signatures := by
  have hlist : b.transactions = c.transactions := h.parts .list
  have hsig : b.signatures = c.signatures := h.parts .signatures
  rw [h.coherent.encode_eq, h.header_eq, show b.bodyOctets = _ from h.anew, hlist, hsig]

end Choice

/-! ## All ways agree -/

/-- **All ways to a block with chosen fields lead to one block**, as far as its identity, its header, its
wire form and both lengths go. The header has the chosen fields, and the wire form is written for them. -/
theorem makes_agree (c : Choice) (b d : Block) (hb : c.Makes b) (hd : c.Makes d) :
    b.hash = d.hash ∧ b.header = d.header ∧ b.encode = d.encode ∧ b.messageSize = d.messageSize ∧
      b.optimalSize = d.optimalSize ∧ b.header = c.header ∧
      b.encode = c.header.encode ++ encodeBody c.transactions c.signatures := by
  have hb := hb.describes
  have hd := hd.describes
  have hheader : b.header = d.header := hb.header_eq.trans hd.header_eq.symm
  have hencode : b.encode = d.encode := hb.encode_eq.trans hd.encode_eq.symm
  have hlist : b.transactions = d.transactions := (hb.parts .list).trans (hd.parts .list).symm
  have hsig : b.signatures = d.signatures := (hb.parts .signatures).trans (hd.parts .signatures).symm
  refine ⟨?_, hheader, hencode, ?_, ?_, hb.header_eq, hb.encode_eq⟩
  · rw [hb.coherent.hash_eq, hd.coherent.hash_eq, hheader]
  · rw [hb.coherent.messageSize_eq, hd.coherent.messageSize_eq, hencode]
  · rw [b.optimalSize_eq, d.optimalSize_eq, hlist, hsig]

/-- A signed block with two transactions and a root of its own: drafted with the root first, made as a bare
header and set with the hashes one by one, made at once, and read with a long count and then set. -/
theorem makes_agree_on_signed_list :
    let x : Hash := ⟨List.replicate 32 1, rfl⟩
    let c : Choice := ⟨2, .zero, x, some x, .zero, 7, some [x, x], some [9]⟩
    let drafted := (Draft.blank.enterAll [.signatures [9], .merkleRoot x, .addTransactionHash x, .time 7,
      .prevBlock x, .addTransactionHash x, .version 2]).build 0
    let header := (withVersion 2 0).run [.addTransactionHash x, .consult .hash, .setTime 7,
      .addTransactionHash x, .setMerkleRoot x, .consult .encode, .setPrevBlock x, .setSignatures (some [9])]
    let whole := (new 2 .zero x (some x) .zero 7 [x, x]).setSignatures (some [9])
    let edits : List Edit := [.setSignatures (some [9]), .setVersion 2, .setPlanKey .zero,
      .setTransactions (some [x, x]), .consult .merkleRoot, .setTime 7, .setMerkleRoot x, .setPrevBlock x,
      .setPrevAnchor .zero]
    ∃ p, parse .main true (List.replicate 137 0 ++ [0xFD, 0, 0]) 0 = .ok p ∧
      c.Makes drafted ∧ c.Makes header ∧ c.Makes whole ∧ c.Makes (p.run edits) ∧
      drafted.encode = (p.run edits).encode ∧ header.encode = (p.run edits).encode ∧
      whole.encode = (p.run edits).encode := by
  intro x c drafted header whole edits
  have hevaluated : ((parse .main true (List.replicate 137 0 ++ [0xFD, 0, 0]) 0).toOption.any
      fun _ => true) = true := by decide +kernel
  obtain ⟨p, hparse, -⟩ := exists_of_toOption_any hevaluated
  have hdrafted : c.Makes drafted := by
    refine .drafted (fun part => ?_) rfl
    cases part with
    | list => exact .added [] rfl (List.cons_ne_nil x [x]) rfl
    | planKey => exact .held rfl
    | prevAnchor => exact .held rfl
    | _ => exact .set []
  have hheader : c.Makes header := by
    refine .edited (.withVersion 2 0) (by simp [Edit.IsSetter]) (fun part => ?_) rfl
      (.inl (writtenAnew_of_none rfl))
    cases part with
    | list => exact .added [] rfl (List.cons_ne_nil x [x]) rfl
    | version => exact .held rfl
    | planKey => exact .held rfl
    | prevAnchor => exact .held rfl
    | _ => exact .set []
  have hwhole : c.Makes whole := .new rfl
  have hparsed : c.Makes (p.run edits) := by
    refine .edited (.parsed hparse) (by simp [edits, Edit.IsSetter]) (fun part => ?_) rfl
      (.inr ⟨_, List.mem_cons_self, .inr rfl⟩)
    cases part <;> exact .set []
  obtain ⟨-, -, hfirst, -⟩ := makes_agree c drafted _ hdrafted hparsed
  obtain ⟨-, -, hsecond, -⟩ := makes_agree c header _ hheader hparsed
  obtain ⟨-, -, hthird, -⟩ := makes_agree c whole _ hwhole hparsed
  exact ⟨p, hparse, hdrafted, hheader, hwhole, hparsed, hfirst, hsecond, hthird⟩

end AnchoredLedger.Block
