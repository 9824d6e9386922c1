import AnchoredLedger.Proofs.Block.Coherence

/-! # Wire round trips

Writing a block and reading it again meet at the grammar. Whatever mixture of kept and newly written
octets the wire form of a block is, it is a form of the block; and reading takes every form.

* **`Block.written`** — the sections that the wire form of a block stands for.
* **`Coherent.form_encode`** — the wire form is a form of these sections; `Coherent.parse_encode` says
  which block is read from it, wherever it stands in a buffer.
* **`Coherent.eq_of_parse_encode`** — the block that is read under any limit, if one is.
* **`Block.parse_encode_of_reachable`** — the round trip of reachable blocks. -/

namespace AnchoredLedger.Block

variable {b : Block}

/-! ## What is written -/

/-- The length of the signature is a 64-bit word, as it is of whatever can be stored. -/
def Storable (b : Block) : Prop := ∀ signature, b.signatures = some signature →
  signature.length < 2 ^ 64

theorem Storable.congr {c : Block} (h : b.Storable) (hsignatures : c.signatures = b.signatures) :
    c.Storable := by
  unfold Storable
  rw [hsignatures]
  exact h

/-- **List and signature have lengths that are 64-bit words.** -/
structure Sized (b : Block) : Prop where
  /-- The number of transactions is one. -/
  list : b.transactionCount < 2 ^ 64
  /-- The length of the signature is one. -/
  signature : (b.signatures.getD []).length < 2 ^ 64

theorem sized_iff : b.Sized ↔ b.transactionCount < 2 ^ 64 ∧ (b.signatures.getD []).length < 2 ^ 64 :=
  ⟨fun h => ⟨h.list, h.signature⟩, fun h => ⟨h.1, h.2⟩⟩

instance (b : Block) : Decidable b.Sized := decidable_of_iff _ sized_iff.symm

theorem Sized.length_lt (h : b.Sized) {hashes : List Hash} (hlist : b.transactions = some hashes) :
    hashes.length < 2 ^ 64 := by
  rw [← transactionCount_eq_length hlist]
  exact h.list

theorem Sized.storable (h : b.Sized) : b.Storable := by
  intro signature hsome
  have hlen := h.signature
  rwa [hsome, Option.getD_some] at hlen

theorem Storable.sized (h : b.Storable) (hlist : b.transactionCount < 2 ^ 64) : b.Sized where
  list := hlist
  signature := by
    cases hsome : b.signatures with
    | none => exact (by decide : ([] : Octets).length < 2 ^ 64)
    | some signature => exact h signature hsome

/-- The list in front of a signature is there even if the block has none. -/
def writtenTransactions : Option (List Hash) → Option Octets → Option (List Hash)
  | transactions, none => transactions
  | transactions, some _ => some (transactions.getD [])

/-- **The sections that are written**: those of the block, with an empty list in front of a signature
that has no list before it. -/
def written (b : Block) : Sections where
  header := b.header
  transactions := writtenTransactions b.transactions b.signatures
  signatures := b.signatures

theorem getD_writtenTransactions (transactions : Option (List Hash)) (signatures : Option Octets) :
    (writtenTransactions transactions signatures).getD [] = transactions.getD [] := by
  cases signatures <;> rfl

theorem listForm_encodeTransactions {hashes : List Hash} (h : hashes.length < 2 ^ 64) :
    ListForm hashes (encodeTransactions hashes) :=
  ⟨_, _, _, CompactSize.form_encode h, ⟨rfl, Hash.listed_iff.2 rfl⟩, rfl⟩

theorem signatureForm_encodeSignatures {signature : Octets} (h : signature.length < 2 ^ 64) :
    SignatureForm signature (encodeSignatures signature) := by
  refine ⟨_, _, signature.reverse, CompactSize.form_encode h, ⟨List.length_reverse, ?_⟩, rfl⟩
  rw [List.reverse_reverse]

/-- What is written anew is a form of the list and the signature. -/
theorem bodyForm_encodeBody {transactions : Option (List Hash)} {signatures : Option Octets}
    (hlist : ∀ hashes, transactions = some hashes → hashes.length < 2 ^ 64)
    (hsig : ∀ signature, signatures = some signature → signature.length < 2 ^ 64) :
    BodyForm (writtenTransactions transactions signatures) signatures
      (encodeBody transactions signatures) := by
  cases transactions with
  | none =>
    cases signatures with
    | none => exact .absent
    | some signature =>
      -- the list that is written here is the empty one
      exact .signed (listForm_encodeTransactions (by decide))
        (signatureForm_encodeSignatures (hsig signature rfl))
  | some hashes =>
    have hform := listForm_encodeTransactions (hlist hashes rfl)
    cases signatures with
    | none => exact .listed hform
    | some signature => exact .signed hform (signatureForm_encodeSignatures (hsig signature rfl))

/-- A form has a list in front of every signature. -/
theorem BodyForm.writtenTransactions_eq {transactions : Option (List Hash)}
    {signatures : Option Octets} {body : Octets} (h : BodyForm transactions signatures body) :
    writtenTransactions transactions signatures = transactions := by
  cases h <;> rfl

/-- The octets after the header, kept or written anew, are a form of the list and the signature. -/
theorem Coherent.bodyForm_bodyOctets (h : b.Coherent) (hsized : b.Sized) :
    BodyForm b.written.transactions b.written.signatures b.bodyOctets := by
  unfold bodyOctets
  cases hholds : b.retained.bodyHolds with
  | false =>
    rw [Retained.body?_eq_none hholds, Option.getD_none]
    exact bodyForm_encodeBody (fun _ => hsized.length_lt) hsized.storable
  | true =>
    obtain ⟨octets, hkept⟩ := h.exists_of_bodyHolds hholds
    have hbody := h.body octets hkept hholds
    rw [Retained.body?_eq_some hkept (h.long octets hkept) hholds, Option.getD_some]
    unfold written
    rw [hbody.writtenTransactions_eq]
    exact hbody

/-- The wire form is the header and what comes after it, also where all of it is kept. -/
theorem Coherent.encode_eq (h : b.Coherent) : b.encode = b.header.encode ++ b.bodyOctets := by
  unfold encode
  cases hwhole : b.retained.whole? with
  | none => rw [h.headerOctets_eq]
  | some octets =>
    obtain ⟨⟨hheader, hbody⟩, hkept⟩ := Retained.whole?_eq_some.1 hwhole
    unfold bodyOctets
    rw [Retained.body?_eq_some hkept (h.long octets hkept) hbody, Option.getD_some,
      ← h.header octets hkept hheader, List.take_append_drop]

/-! ## Reading it again -/

/-- **The wire form is a form of the sections that are written**, with anything behind a signature. -/
theorem Coherent.form_encode (h : b.Coherent) (hsized : b.Sized) {limit : Nat} {behind : Octets}
    (hfits : Header.size + 32 * b.transactionCount ≤ limit)
    (hlast : b.signatures = none → behind = []) : b.written.Form limit b.encode behind := by
  rw [h.encode_eq]
  refine .of_parts (Header.form_encode b.header) (h.bodyForm_bodyOctets hsized) ?_ hlast
  intro hashes hwritten
  have hlist : hashes = b.transactions.getD [] := by
    rw [← getD_writtenTransactions b.transactions b.signatures]
    exact (congrArg (Option.getD · []) hwritten).symm
  rwa [hlist, ← transactionCount_eq_length_getD]

/-- **The block that is read from a wire form**, behind any octets, and before any if it is signed. -/
theorem Coherent.parse_encode (h : b.Coherent) (hsig : b.Storable) {network : Network}
    (hfits : Header.size + 32 * b.transactionCount ≤ network.maxBlockSize.toNat) (retain : Bool)
    {before behind : Octets} (hlast : b.signatures = none → behind = []) :
    parse network retain (before ++ b.encode ++ behind) before.length =
      .ok (ofSections b.written b.encode retain) := by
  -- the limit is a 64-bit word, so the length of a list within it is one as well
  have hlimit := UInt64.toNat_lt network.maxBlockSize
  have hform := h.form_encode (hsig.sized (by omega)) hfits hlast
  refine parse_eq_ok_iff.2 ⟨?_, b.written, b.encode, behind, ?_, hform, rfl⟩
  · simp only [List.length_append]
    omega
  · rw [List.append_assoc, List.drop_left]

/-- The wire form alone is read as the sections that were written. -/
theorem Coherent.parse_encode_self (h : b.Coherent) (hsig : b.Storable) {network : Network}
    (hfits : Header.size + 32 * b.transactionCount ≤ network.maxBlockSize.toNat) (retain : Bool) :
    parse network retain b.encode 0 = .ok (ofSections b.written b.encode retain) := by
  have hparse : parse network retain ([] ++ b.encode ++ []) 0 = _ :=
    h.parse_encode hsig hfits retain fun _ => rfl
  rwa [List.append_nil] at hparse

/-- **Whatever the limit, the wire form is read as the sections that were written**, or not at all. -/
theorem Coherent.eq_of_parse_encode (h : b.Coherent) (hsized : b.Sized) {network : Network}
    {retain : Bool} {c : Block} (hparse : parse network retain b.encode 0 = .ok c) :
    c = ofSections b.written b.encode retain := by
  obtain ⟨-, s, used, rest, hused, hform, rfl⟩ := parse_eq_ok_iff.1 hparse
  rw [List.drop_zero] at hused
  -- under a limit that is large enough for both, the octets have one reading
  let limit := max network.maxBlockSize.toNat (Header.size + 32 * b.transactionCount)
  have hread : Sections.read limit (.start b.encode) = .ok s ⟨used.length, rest⟩ :=
    (hform.mono (Nat.le_max_left _ _)).read ⟨hused, (Nat.zero_add _).symm⟩
  have hwritten : Sections.read limit (.start b.encode) = .ok b.written ⟨b.encode.length, []⟩ :=
    (h.form_encode hsized (Nat.le_max_right _ _) fun _ => rfl).read
      ⟨(List.append_nil _).symm, (Nat.zero_add _).symm⟩
  obtain ⟨rfl, hend⟩ := EStateM.Result.ok.inj (hread.symm.trans hwritten)
  have hrest : rest = [] := congrArg Cursor.rest hend
  rw [hused, hrest, List.append_nil]

theorem hash_ofSections (s : Sections) (octets : Octets) (retain : Bool) :
    (ofSections s octets retain).hash = .ofTwice (octets.take Header.size) := rfl

/-- The block that is read from a wire form has the same identity. -/
theorem Coherent.hash_ofSections_encode (h : b.Coherent) (retain : Bool) :
    (ofSections b.written b.encode retain).hash = b.hash := by
  rw [hash_ofSections, h.encode_eq, List.take_left' b.header.length_encode, h.hash_eq, Header.hash]

/-- **The wire round trip of reachable blocks.** The wire form of a block within the limit is read as
a block with the same header, identity and signature, the list that was written, no anchor, and the
same wire form. If there is a signature, the same block is read wherever the wire form stands. -/
theorem parse_encode_of_reachable (b : Block) (hreachable : b.Reachable) (hsig : b.Storable)
    (network : Network)
    (hfits : Header.size + 32 * b.transactionCount ≤ network.maxBlockSize.toNat) :
    ∃ p, parse network true b.encode 0 = .ok p ∧ p.header = b.header ∧ p.hash = b.hash ∧
      p.signatures = b.signatures ∧
      p.transactions =
        (if b.signatures.isSome then some (b.transactions.getD []) else b.transactions) ∧
      p.anchor = none ∧ p.encode = b.encode ∧
      (b.signatures.isSome = true → ∀ before behind,
        parse network true (before ++ b.encode ++ behind) before.length = .ok p) := by
  have hcoherent := hreachable.coherent
  have hlist : b.written.transactions =
      if b.signatures.isSome then some (b.transactions.getD []) else b.transactions := by
    unfold written writtenTransactions
    cases b.signatures <;> rfl
  refine ⟨ofSections b.written b.encode true, hcoherent.parse_encode_self hsig hfits true, rfl,
    hcoherent.hash_ofSections_encode true, rfl, hlist, rfl, rfl, fun hsigned before behind => ?_⟩
  refine hcoherent.parse_encode hsig hfits true fun hnone => ?_
  rw [hnone] at hsigned
  cases hsigned

/-- A header with a signature: what is read has an empty list. -/
theorem parse_encode_of_reachable_signed_header :
    let b := (withVersion 1 0).run [.setSignatures (some [7])]
    b.Reachable ∧ b.Storable ∧
      Header.size + 32 * b.transactionCount ≤ Network.main.maxBlockSize.toNat ∧
      ∃ p, parse .main true b.encode 0 = .ok p ∧ p.transactions = some [] ∧ p.hash = b.hash := by
  intro b
  have hreachable : b.Reachable := (Reachable.constructed (.withVersion 1 0)).run _
  have hsig : b.Storable := by
    rintro signature hsome
    cases hsome
    decide
  have hfits : Header.size + 32 * b.transactionCount ≤ Network.main.maxBlockSize.toNat := by decide
  obtain ⟨p, hparse, -, hhash, -, hlist, -⟩ :=
    parse_encode_of_reachable b hreachable hsig .main hfits
  exact ⟨hreachable, hsig, hfits, p, hparse, hlist, hhash⟩

end AnchoredLedger.Block
