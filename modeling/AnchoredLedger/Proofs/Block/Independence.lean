import AnchoredLedger.Proofs.Block.Retention
import AnchoredLedger.Proofs.Unwinding

/-! # What the identity does not depend on

Signatures and anchors are no part of the identity of a block, and questions are no part of the block at
all. So two runs that differ only in these lead to one header, whatever else happens: a signature puts an
empty list in front of itself when it is written, but that is no list to the root. Runs that differ only in
anchors and questions lead to one wire form as well.

* **`Block.Core`** — the part of a block that its header depends on; `Coherent.core_run` says that edits act
  on it alone.
* **`Edit.reachesIdentity`**, **`Edit.reachesWire`** — the edits that may change the identity, or the wire
  form.
* **`Block.wireState`** — what the wire form depends on; `Coherent.wireState_congr` says that edits act on
  it alone.
* **`Block.run_independent`** — both for reachable blocks. -/

namespace AnchoredLedger.Block

variable {b c : Block}

/-! ## The part that the identity depends on -/

/-- **The part of a block that its identity depends on.** Whether a list without hashes is there makes no
difference to it. -/
structure Core where
  /-- The header, with the root in force. -/
  header : Header
  /-- Hashes of the transactions. -/
  hashes : List Hash

/-- The part of a record that the identity depends on. -/
def Contents.core (c : Contents) : Core := ⟨c.header, c.transactions.getD []⟩

/-- The part of the block that its identity depends on. -/
def core (b : Block) : Core := b.contents.core

namespace Core

/-- The part with other hashes and their root. -/
def withHashes (c : Core) (hashes : List Hash) : Core :=
  ⟨{ c.header with merkleRoot := (Merkle.root? hashes).getD .zero }, hashes⟩

/-- **The part after an edit.** It has no signature and no anchor, and reading the wire form gives it
back. -/
def apply (c : Core) : Edit → Core
  | .setVersion v => { c with header := { c.header with version := v } }
  | .setTime t => { c with header := { c.header with time := t } }
  | .setPlanKey k => { c with header := { c.header with planKey := k } }
  | .setPrevBlock h => { c with header := { c.header with prevBlock := h } }
  | .setPrevAnchor h => { c with header := { c.header with prevAnchor := h } }
  | .setMerkleRoot h => { c with header := { c.header with merkleRoot := h } }
  | .addTransactionHash h => c.withHashes (c.hashes ++ [h])
  | .addTransaction t => c.withHashes (c.hashes ++ [t.txid])
  | .setTransactions hashes => c.withHashes (hashes.getD [])
  | .cloneAsHeader => { c with hashes := [] }
  | .setSignatures _ => c
  | .setAnchor _ => c
  | .sign _ => c
  | .clone => c
  | .consult _ => c
  | .reparse _ _ => c

/-- The part after a run of edits. -/
def run (c : Core) (edits : List Edit) : Core := edits.foldl apply c

end Core

/-- An absent list has the root of a list without hashes. -/
theorem Contents.core_withTransactions (c : Contents) (transactions : Option (List Hash)) :
    (c.withTransactions transactions).core = c.core.withHashes (transactions.getD []) := by
  cases transactions with
  | none =>
    unfold Core.withHashes
    rw [Option.getD_none, Merkle.root?]
    rfl
  | some hashes => rfl

theorem Contents.core_apply (c : Contents) (e : Edit) : (c.apply e).core = c.core.apply e := by
  cases e with
  | setVersion v => rfl
  | setTime t => rfl
  | setPlanKey k => rfl
  | setPrevBlock p => rfl
  | setPrevAnchor p => rfl
  | setMerkleRoot root => rfl
  | addTransactionHash t => exact c.core_withTransactions _
  | addTransaction t => exact c.core_withTransactions _
  | setTransactions hashes => exact c.core_withTransactions hashes
  | setSignatures signatures => rfl
  | setAnchor anchor => rfl
  | sign key =>
    show (c.signed (key.sign c.header.hash.octets)).core = c.core
    generalize key.sign c.header.hash.octets = made
    cases made <;> rfl
  | clone => rfl
  | cloneAsHeader => rfl
  | consult q => rfl
  | reparse network retain => rfl

/-- What is read from the wire form has the same part, for the list that is put in front of a signature
has no hashes. -/
theorem Coherent.core_reparse (h : b.Coherent) (hsized : b.Sized) (network : Network) (retain : Bool) :
    (b.apply (.reparse network retain)).core = b.core := by
  show ((parse network retain b.encode 0).toOption.getD b).core = b.core
  cases hparse : parse network retain b.encode 0 with
  | error e => rfl
  | ok c =>
    rw [h.eq_of_parse_encode hsized hparse]
    show Core.mk b.header ((writtenTransactions b.transactions b.signatures).getD []) = b.core
    rw [getD_writtenTransactions]
    rfl

/-- **Edits act on the part that the identity depends on alone.** -/
theorem Coherent.core_apply (h : b.Coherent) (hsized : b.Sized) (e : Edit) :
    (b.apply e).core = b.core.apply e := by
  by_cases hlocal : e.IsLocal
  · unfold core
    rw [h.contents_apply hlocal, Contents.core_apply]
  · cases e with
    | reparse network retain => exact h.core_reparse hsized network retain
    | _ => exact absurd trivial hlocal

/-- **Every block of a run has lengths that are 64-bit words.** -/
def SizedDuring (b : Block) : List Edit → Prop
  | [] => b.Sized
  | e :: es => b.Sized ∧ (b.apply e).SizedDuring es

instance decidableSizedDuring (b : Block) : (edits : List Edit) → Decidable (b.SizedDuring edits)
  | [] => inferInstanceAs (Decidable b.Sized)
  | e :: es =>
    have := decidableSizedDuring (b.apply e) es
    inferInstanceAs (Decidable (b.Sized ∧ (b.apply e).SizedDuring es))

/-- **So do runs of edits.** -/
theorem Coherent.core_run (h : b.Coherent) {edits : List Edit} (hsized : b.SizedDuring edits) :
    (b.run edits).core = b.core.run edits := by
  induction edits generalizing b with
  | nil => rfl
  | cons e es ih =>
    obtain ⟨hfirst, hothers⟩ := hsized
    rw [run_cons, ih (h.apply e) hothers, h.core_apply hfirst]
    rfl

/-! ## Edits that do not reach the identity -/

/-- Whether an edit may change the identity: no signature, no anchor and no question does. -/
def Edit.reachesIdentity : Edit → Bool
  | .setSignatures _ => false
  | .sign _ => false
  | .setAnchor _ => false
  | .consult _ => false
  | _ => true

/-- The part is all that is seen of itself. -/
theorem Core.unwinding : Unwinding Core.apply id Edit.reachesIdentity (fun _ => True) fun _ => True where
  keep _ _ _ := trivial
  unseen c e _ _ hunseen := by
    cases e with
    | setSignatures signatures => rfl
    | setAnchor anchor => rfl
    | sign key => rfl
    | consult q => rfl
    | _ => cases hunseen
  congr c d e _ _ _ h := congrArg (Core.apply · e) h

/-- **The other edits may be left out of a run.** -/
theorem Core.run_filter (c : Core) (edits : List Edit) :
    c.run edits = c.run (edits.filter Edit.reachesIdentity) :=
  Core.unwinding.foldl_filter (fun _ _ => trivial) trivial trivial rfl

/-! ## Edits that do not reach the wire form -/

/-- Whether an edit may change the wire form: no anchor and no question does. -/
def Edit.reachesWire : Edit → Bool
  | .setAnchor _ => false
  | .consult _ => false
  | _ => true

/-- The record without its anchor. -/
def Contents.unanchored (c : Contents) : Contents := { c with anchor := none }

/-- **What the wire form depends on**: the octets that are kept, and what the block says but for its
anchor. -/
def wireState (b : Block) : Retained × Contents := (b.retained, b.contents.unanchored)

/-- What edits do to a record does not depend on its anchor. -/
theorem Contents.unanchored_apply (c : Contents) (e : Edit) :
    (c.apply e).unanchored = (c.unanchored.apply e).unanchored := by
  cases e with
  | sign key =>
    show (c.signed (key.sign c.header.hash.octets)).unanchored =
      (c.unanchored.signed (key.sign c.header.hash.octets)).unanchored
    generalize key.sign c.header.hash.octets = made
    cases made <;> rfl
  | _ => rfl

/-- What edits do to the octets that are kept does not depend on anything else, but that a signing may
fail. -/
theorem retained_apply_congr (hretained : b.retained = c.retained) (hhash : b.hash = c.hash) {e : Edit}
    (hlocal : e.IsLocal) : (b.apply e).retained = (c.apply e).retained := by
  cases e with
  | setVersion v => exact congrArg Retained.dropHeader hretained
  | setTime t => exact congrArg Retained.dropHeader hretained
  | setPlanKey k => exact congrArg Retained.dropHeader hretained
  | setPrevBlock p => exact congrArg Retained.dropHeader hretained
  | setPrevAnchor p => exact congrArg Retained.dropHeader hretained
  | setMerkleRoot root => exact congrArg Retained.dropHeader hretained
  | addTransactionHash t => exact congrArg (·.dropBody.dropHeader) hretained
  | addTransaction t => exact congrArg (·.dropBody.dropHeader) hretained
  | setTransactions hashes => exact congrArg (·.dropBody.dropHeader) hretained
  | setSignatures signatures => exact congrArg Retained.dropBody hretained
  | setAnchor anchor => exact hretained
  | sign key =>
    show ((b.sign key).toOption.getD b).retained = ((c.sign key).toOption.getD c).retained
    rcases b.sign_cases key with ⟨e, hmade, hsign⟩ | ⟨signature, hmade, hsign⟩
    · rcases c.sign_cases key with ⟨e', hmade', hsign'⟩ | ⟨signature', hmade', hsign'⟩
      · rw [hsign, hsign']
        exact hretained
      · rw [← hhash, hmade] at hmade'
        cases hmade'
    · rcases c.sign_cases key with ⟨e', hmade', hsign'⟩ | ⟨signature', hmade', hsign'⟩
      · rw [← hhash, hmade] at hmade'
        cases hmade'
      · rw [hsign, hsign']
        show (b.consult .hash).retained.dropBody = (c.consult .hash).retained.dropBody
        rw [b.retained_consult, c.retained_consult, hretained]
  | clone => exact hretained
  | cloneAsHeader => rfl
  | consult q => rw [show b.apply (.consult q) = b.consult q from rfl, b.retained_consult,
      show c.apply (.consult q) = c.consult q from rfl, c.retained_consult, hretained]
  | reparse network retain => exact hlocal.elim

section WireState

variable (hb : b.Coherent) (hc : c.Coherent) (h : b.wireState = c.wireState)

include hb hc h

/-- Blocks with one wire state are alike but for their anchors. -/
theorem Coherent.alike_setAnchor : Alike b (c.setAnchor b.anchor) := by
  have hcontents : b.contents.unanchored = c.contents.unanchored := congrArg Prod.snd h
  exact hb.alike (hc.apply (.setAnchor b.anchor))
    (congrArg (fun k : Contents => { k with anchor := b.anchor }) hcontents)

/-- Blocks with one wire state have one wire form. -/
theorem Coherent.encode_congr : b.encode = c.encode := by
  have halike := hb.alike_setAnchor hc h
  have hretained : b.retained = c.retained := congrArg Prod.fst h
  have hlist : b.transactions = c.transactions := halike.transactions
  have hsig : b.signatures = c.signatures := halike.signatures
  have hheader : b.header = c.header := halike.header
  rw [hb.encode_eq, hc.encode_eq, hheader]
  unfold bodyOctets
  rw [hretained, hlist, hsig]

/-- **Edits act on the wire state alone.** -/
theorem Coherent.wireState_congr (e : Edit) : (b.apply e).wireState = (c.apply e).wireState := by
  by_cases hlocal : e.IsLocal
  · have hcontents : b.contents.unanchored = c.contents.unanchored := congrArg Prod.snd h
    have hretained : b.retained = c.retained := congrArg Prod.fst h
    have hhash : b.hash = c.hash := (hb.alike_setAnchor hc h).hash
    refine Prod.ext (retained_apply_congr hretained hhash hlocal) ?_
    show (b.apply e).contents.unanchored = (c.apply e).contents.unanchored
    rw [hb.contents_apply hlocal, hc.contents_apply hlocal, Contents.unanchored_apply, hcontents,
      ← Contents.unanchored_apply]
  · cases e with
    | reparse network retain =>
      -- both wire forms are the same octets, which are read or refused
      show ((parse network retain b.encode 0).toOption.getD b).wireState =
        ((parse network retain c.encode 0).toOption.getD c).wireState
      rw [hb.encode_congr hc h]
      cases parse network retain c.encode 0 with
      | error e => exact h
      | ok p => rfl
    | _ => exact absurd trivial hlocal

end WireState

/-- Anchors and questions are not seen in the wire state. -/
theorem wireState_unwinding :
    Unwinding Block.apply wireState Edit.reachesWire (fun _ => True) Coherent where
  keep b e h := h.apply e
  unseen b e _ _ hunseen := by
    cases e with
    | setAnchor anchor => rfl
    | consult q =>
      show ((b.consult q).retained, (b.consult q).contents.unanchored) = b.wireState
      rw [b.retained_consult, b.contents_consult]
      rfl
    | _ => cases hunseen
  congr b c e hb hc _ h := hb.wireState_congr hc h e

/-- **Anchors and questions may be left out of a run.** -/
theorem Coherent.wireState_run_filter (h : b.Coherent) (edits : List Edit) :
    (b.run edits).wireState = (b.run (edits.filter Edit.reachesWire)).wireState :=
  wireState_unwinding.foldl_filter (fun _ _ => trivial) h h rfl

/-! ## Runs that differ in such edits only -/

/-- **Signatures, anchors and questions are not seen in the identity, nor anchors and questions in the wire
form.** Two runs of a reachable block in which the same edits remain when signatures, anchors and questions
are left out lead to one identity, one header and one root. If the same edits remain when only anchors and
questions are left out, they lead to one wire form and to the same verdicts as well. As this is said of all
runs, it holds after each of the edits that remain. -/
theorem run_independent (b : Block) (hreachable : b.Reachable) (edits edits' : List Edit) :
    (b.SizedDuring edits → b.SizedDuring edits' →
      edits.filter Edit.reachesIdentity = edits'.filter Edit.reachesIdentity →
      (b.run edits).hash = (b.run edits').hash ∧ (b.run edits).header = (b.run edits').header ∧
      (b.run edits).headerOctets = (b.run edits').headerOctets ∧
      (b.run edits).merkleRoot = (b.run edits').merkleRoot) ∧
    (edits.filter Edit.reachesWire = edits'.filter Edit.reachesWire →
      (b.run edits).encode = (b.run edits').encode ∧
      (b.run edits).messageSize = (b.run edits').messageSize ∧
      (b.run edits).hash = (b.run edits').hash ∧ (b.run edits).header = (b.run edits').header ∧
      (b.run edits).headerOctets = (b.run edits').headerOctets ∧
      (b.run edits).merkleRoot = (b.run edits').merkleRoot ∧
      ∀ (v : Verifier) (height : Option UInt64) (flags : UInt32),
        v.verify (b.run edits) height flags = v.verify (b.run edits') height flags ∧
        v.verifyHeader (b.run edits) = v.verifyHeader (b.run edits') ∧
        Verdict.ofMerkleRoot (b.run edits) = Verdict.ofMerkleRoot (b.run edits') ∧
        Verdict.ofTransactions (b.run edits) height flags =
          Verdict.ofTransactions (b.run edits') height flags) := by
  have hcoherent := hreachable.coherent
  have hrun := hcoherent.run edits
  have hrun' := hcoherent.run edits'
  constructor
  · intro hsized hsized' hremain
    have hcore : (b.run edits).core = (b.run edits').core := by
      rw [hcoherent.core_run hsized, hcoherent.core_run hsized', Core.run_filter, hremain,
        ← Core.run_filter]
    have hheader : (b.run edits).header = (b.run edits').header := congrArg Core.header hcore
    refine ⟨?_, hheader, ?_, congrArg Header.merkleRoot hheader⟩
    · rw [hrun.hash_eq, hrun'.hash_eq, hheader]
    · rw [hrun.headerOctets_eq, hrun'.headerOctets_eq, hheader]
  · intro hremain
    have hstate : (b.run edits).wireState = (b.run edits').wireState := by
      rw [hcoherent.wireState_run_filter edits, hremain, ← hcoherent.wireState_run_filter edits']
    have halike := hrun.alike_setAnchor hrun' hstate
    have hencode := hrun.encode_congr hrun' hstate
    refine ⟨hencode, ?_, halike.hash, halike.header, halike.headerOctets, halike.merkleRoot, ?_⟩
    · rw [hrun.messageSize_eq, hrun'.messageSize_eq, hencode]
    · intro v height flags
      exact ⟨halike.verify v height flags, halike.verifyHeader v, halike.ofMerkleRoot,
        halike.ofTransactions height flags⟩

/-- A signed header that is read again has an empty list, and one without a signature has none. The same
hash is added to both, and signatures of several lengths come and go: there is one identity. Where only the
anchor and the questions differ there is one wire form. -/
theorem run_independent_signed_header_given_list :
    let x : Hash := ⟨List.replicate 32 1, rfl⟩
    let b := withVersion 1 0
    let signed : List Edit := [.setSignatures (some [7]), .consult .hash, .reparse .main true,
      .addTransactionHash x, .consult .encode, .setTime 7]
    let plain : List Edit := [.reparse .main true, .addTransactionHash x, .setAnchor (some x), .setTime 7,
      .setSignatures (some [7, 8])]
    let anchored : List Edit := .setAnchor (some x) :: signed
    b.Reachable ∧ (b.SizedDuring signed ∧ b.SizedDuring plain) ∧
      signed.filter Edit.reachesIdentity = plain.filter Edit.reachesIdentity ∧
      anchored.filter Edit.reachesWire = signed.filter Edit.reachesWire ∧
      (b.run signed).encode ≠ (b.run plain).encode ∧ (b.run signed).hash = (b.run plain).hash ∧
      (b.run anchored).encode = (b.run signed).encode := by
  intro x b signed plain anchored
  have hreachable : b.Reachable := .constructed (.withVersion 1 0)
  have hsized : b.SizedDuring signed ∧ b.SizedDuring plain := by decide +kernel
  have hdiffer : (b.run signed).encode ≠ (b.run plain).encode := by decide +kernel
  obtain ⟨hidentity, -⟩ := (run_independent b hreachable signed plain).1 hsized.1 hsized.2 rfl
  obtain ⟨hwire, -⟩ := (run_independent b hreachable anchored signed).2 rfl
  exact ⟨hreachable, hsized, rfl, rfl, hdiffer, hidentity, hwire⟩

end AnchoredLedger.Block
