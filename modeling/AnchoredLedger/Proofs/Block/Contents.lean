import AnchoredLedger.Proofs.Block.RoundTrip

/-! # What a block says

A block keeps octets and remembers a root and an identity only to save work. What it says is its header
with the root in force, its list, its signature and its anchor; edits act on that alone, and everything
but the wire form is a function of it. So a block stands for a plain record whose root is worked out
anew whenever the list changes.

* **`Block.Contents`** — the plain record; **`Contents.apply`** — an edit of it.
* **`Coherent.contents_apply`**, **`Coherent.contents_run`** — a block after edits says what the record
  says after them.
* **`Coherent.messageSize_eq`** — the length of the wire form, known without writing it. -/

namespace AnchoredLedger.Block

variable {b c : Block}

/-! ## The plain record -/

/-- **What a block says.** -/
structure Contents where
  /-- The header, with the root in force. -/
  header : Header
  /-- Hashes of the transactions; absent where the block is only a header. -/
  transactions : Option (List Hash)
  /-- The signature. -/
  signatures : Option Octets
  /-- The transaction that anchors the block. -/
  anchor : Option Hash

/-- What the block says. -/
def contents (b : Block) : Contents where
  header := b.header
  transactions := b.transactions
  signatures := b.signatures
  anchor := b.anchor

namespace Contents

/-- The record with another list, whose root is worked out at once; it is zero where there are no
hashes. -/
def withTransactions (c : Contents) (transactions : Option (List Hash)) : Contents :=
  let root :=
    match transactions with
    | none => .zero
    | some hashes => (Merkle.root? hashes).getD .zero
  { c with header := { c.header with merkleRoot := root }, transactions }

/-- The record with the signature that was made; nothing happens where none was. -/
def signed (c : Contents) : Except KeyError Octets → Contents
  | .ok signature => { c with signatures := some signature }
  | .error _ => c

/-- **The record after an edit.** Nothing is kept or remembered here, so there is nothing to forget,
and questions and copies change nothing. Reading the wire form again is not an edit of the record. -/
def apply (c : Contents) : Edit → Contents
  | .setVersion v => { c with header := { c.header with version := v } }
  | .setTime t => { c with header := { c.header with time := t } }
  | .setPlanKey k => { c with header := { c.header with planKey := k } }
  | .setPrevBlock h => { c with header := { c.header with prevBlock := h } }
  | .setPrevAnchor h => { c with header := { c.header with prevAnchor := h } }
  | .setMerkleRoot h => { c with header := { c.header with merkleRoot := h } }
  | .addTransactionHash h => c.withTransactions (some (c.transactions.getD [] ++ [h]))
  | .addTransaction t => c.withTransactions (some (c.transactions.getD [] ++ [t.txid]))
  | .setTransactions hashes => c.withTransactions hashes
  | .setSignatures signatures => { c with signatures }
  | .setAnchor anchor => { c with anchor }
  | .sign key => c.signed (key.sign c.header.hash.octets)
  | .clone => c
  | .cloneAsHeader => { c with transactions := none, signatures := none, anchor := none }
  | .consult _ => c
  | .reparse _ _ => c

/-- The record after a run of edits. -/
def run (c : Contents) (edits : List Edit) : Contents := edits.foldl apply c

end Contents

/-! ## Edits act on what a block says -/

/-- **An edit of the block itself**: any but reading its wire form again. -/
def Edit.IsLocal : Edit → Prop
  | .reparse _ _ => False
  | _ => True

/-- Questions change nothing of what a block says. -/
theorem contents_consult (b : Block) (q : Query) : (b.consult q).contents = b.contents := by
  obtain ⟨root?, identity?, hconsult, hroot, -⟩ := b.exists_consult_eq q
  rw [hconsult]
  -- a root that is remembered is the one in force already
  rcases hroot with rfl | rfl <;> rfl

/-- Signing puts the signature of the identity of the header into the record. -/
theorem Coherent.contents_sign (h : b.Coherent) (key : KeyPair) :
    ((b.sign key).toOption.getD b).contents = b.contents.apply (.sign key) := by
  show ((b.sign key).toOption.getD b).contents =
    b.contents.signed (key.sign b.header.hash.octets)
  rw [← h.hash_eq]
  rcases b.sign_cases key with ⟨e, hresult, hsign⟩ | ⟨signature, hresult, hsign⟩
  · rw [hresult, hsign]
    rfl
  · rw [hresult, hsign]
    show { (b.consult .hash).contents with signatures := some signature } =
      { b.contents with signatures := some signature }
    rw [b.contents_consult .hash]

/-- **A signed block** says what it said before, but for the signature, which is that of its identity. -/
theorem Coherent.of_sign_eq_ok (h : b.Coherent) {key : KeyPair} (hsign : b.sign key = .ok c) :
    ∃ signature, key.sign b.hash.octets = .ok signature ∧ c.Coherent ∧
      c.contents = { b.contents with signatures := some signature } ∧ c.hash = b.hash := by
  rcases b.sign_cases key with ⟨e, -, hfails⟩ | ⟨signature, hresult, hgives⟩
  · rw [hfails] at hsign
    cases hsign
  · rw [hgives] at hsign
    cases hsign
    have hcoherent := (h.consult .hash).setSignatures (some signature)
    have hcontents : ((b.consult .hash).setSignatures (some signature)).contents =
        { b.contents with signatures := some signature } := by
      rw [← b.contents_consult .hash]
      rfl
    refine ⟨signature, hresult, hcoherent, hcontents, ?_⟩
    rw [hcoherent.hash_eq, h.hash_eq]
    exact congrArg (fun c => c.header.hash) hcontents

/-- **A block after an edit says what its record says after it.** -/
theorem Coherent.contents_apply (h : b.Coherent) {e : Edit} (hlocal : e.IsLocal) :
    (b.apply e).contents = b.contents.apply e := by
  cases e with
  | setVersion v => rfl
  | setTime t => rfl
  | setPlanKey k => rfl
  | setPrevBlock p => rfl
  | setPrevAnchor p => rfl
  | setMerkleRoot root => rfl
  | addTransactionHash t => rfl
  | addTransaction t => rfl
  | setTransactions hashes => rfl
  | setSignatures signatures => rfl
  | setAnchor anchor => rfl
  | sign key => exact h.contents_sign key
  | clone => rfl
  | cloneAsHeader => rfl
  | consult q => exact b.contents_consult q
  | reparse network retain => exact hlocal.elim

/-- **A block after a run of edits says what its record says after it.** -/
theorem Coherent.contents_run (h : b.Coherent) {edits : List Edit}
    (hlocal : ∀ e ∈ edits, e.IsLocal) : (b.run edits).contents = b.contents.run edits := by
  induction edits generalizing b with
  | nil => rfl
  | cons e es ih =>
    obtain ⟨hfirst, hothers⟩ := List.forall_mem_cons.1 hlocal
    rw [run_cons, ih (h.apply e) hothers, h.contents_apply hfirst]
    rfl

/-! ## The length of the wire form -/

theorem length_encodeTransactions (hashes : List Hash) :
    (encodeTransactions hashes).length = CompactSize.size hashes.length + 32 * hashes.length := by
  have hitems := (Hash.listed_iff.2 (rfl : hashes.flatMap FixedOctets.toWire = _)).length
  unfold encodeTransactions
  rw [List.length_append, CompactSize.length_encode, hitems]

theorem length_encodeSignatures (signatures : Octets) :
    (encodeSignatures signatures).length =
      CompactSize.size signatures.length + signatures.length := by
  unfold encodeSignatures
  rw [List.length_append, CompactSize.length_encode, List.length_reverse]

/-- The length at best is that of a header and of a body that is written anew. -/
theorem optimalSize_eq (b : Block) :
    b.optimalSize = Header.size + (encodeBody b.transactions b.signatures).length := by
  unfold optimalSize encodeBody
  cases b.transactions with
  | none =>
    cases b.signatures with
    | none => rfl
    | some signature =>
      -- the list written in front of the signature is the octet zero
      have hempty : (encodeTransactions []).length = 1 := rfl
      simp only [List.length_append, length_encodeSignatures, hempty, Option.isSome_some, if_true]
      omega
  | some hashes =>
    cases b.signatures with
    | none => simp only [length_encodeTransactions, Nat.add_zero]
    | some signature =>
      simp only [List.length_append, length_encodeTransactions, length_encodeSignatures]
      omega

/-- **The length of the wire form is known without writing it.** -/
theorem Coherent.messageSize_eq (h : b.Coherent) : b.messageSize = b.encode.length := by
  rw [h.encode_eq, List.length_append, b.header.length_encode]
  unfold messageSize
  cases hwhole : b.retained.whole? with
  | some octets =>
    obtain ⟨⟨-, hbody⟩, hkept⟩ := Retained.whole?_eq_some.1 hwhole
    have hlong := h.long octets hkept
    unfold bodyOctets
    rw [Retained.body?_eq_some hkept hlong hbody, Option.getD_some, List.length_drop]
    show octets.length = Header.size + (octets.length - Header.size)
    omega
  | none =>
    unfold bodyOctets
    cases b.retained.body? with
    | some body => rfl
    | none => exact b.optimalSize_eq

end AnchoredLedger.Block
