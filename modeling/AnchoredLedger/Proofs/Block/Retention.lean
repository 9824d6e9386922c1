import AnchoredLedger.Proofs.Block.Contents
import AnchoredLedger.Proofs.Block.Verdicts

/-! # Keeping octets is an optimization

A block may be read with or without keeping the octets. Both say the same, and edits act on what they
say alike, so no question tells them apart but that for the octets behind the header. Those may differ
in one way only: a kept body may have compact sizes in a longer form than they would be written in.
Where there are none, or once an edit has given up the body, the wire forms are equal as well.

* **`Block.Alike`** — blocks that no question tells apart but for the body; `Coherent.alike` says that
  coherent blocks with the same contents are.
* **`Block.ShortestBody`** — a body whose compact sizes are at their shortest; `BodyForm.eq_encodeBody`
  says that this is what would be written.
* **`Block.WrittenAnew`** — the body of a block is what would be written. Edits keep this, and
  **`Block.Rewrites`** says which of them bring it about.
* **`Block.parse_alike`** — the block that keeps its octets and the one that does not, over any run. -/

namespace AnchoredLedger.Block

variable {b c : Block}

/-! ## Blocks that no question tells apart -/

/-- **Blocks that no question tells apart**, but for the octets behind the header. -/
structure Alike (b c : Block) : Prop where
  /-- They have one identity. -/
  hash : b.hash = c.hash
  /-- They have one header. -/
  header : b.header = c.header
  /-- They have the same header octets. -/
  headerOctets : b.headerOctets = c.headerOctets
  /-- They have one root. -/
  merkleRoot : b.merkleRoot = c.merkleRoot
  /-- They have the same list. -/
  transactions : b.transactions = c.transactions
  /-- They have the same signature. -/
  signatures : b.signatures = c.signatures
  /-- They have the same anchor. -/
  anchor : b.anchor = c.anchor
  /-- They have the same length at best. -/
  optimalSize : b.optimalSize = c.optimalSize
  /-- All checks together have the same outcome. -/
  verify : ∀ (v : Verifier) (height : Option UInt64) (flags : UInt32),
    v.verify b height flags = v.verify c height flags
  /-- The check of the time has the same outcome. -/
  verifyHeader : ∀ v : Verifier, v.verifyHeader b = v.verifyHeader c
  /-- The check of the root has the same outcome. -/
  ofMerkleRoot : Verdict.ofMerkleRoot b = Verdict.ofMerkleRoot c
  /-- The check of the transactions has the same outcome. -/
  ofTransactions : ∀ (height : Option UInt64) (flags : UInt32),
    Verdict.ofTransactions b height flags = Verdict.ofTransactions c height flags
  /-- The wire forms begin alike. -/
  front : b.encode.take Header.size = c.encode.take Header.size

/-- The wire form begins with the header. -/
theorem Coherent.take_encode (h : b.Coherent) : b.encode.take Header.size = b.header.encode := by
  rw [h.encode_eq, List.take_left' b.header.length_encode]

/-- **Coherent blocks that say the same are alike**, whatever they keep and remember. -/
theorem Coherent.alike (hb : b.Coherent) (hc : c.Coherent) (h : b.contents = c.contents) :
    Alike b c := by
  have hheader : b.header = c.header := congrArg Contents.header h
  have htransactions : b.transactions = c.transactions := congrArg Contents.transactions h
  have hsignatures : b.signatures = c.signatures := congrArg Contents.signatures h
  have hanchor : b.anchor = c.anchor := congrArg Contents.anchor h
  have hroot : b.merkleRoot = c.merkleRoot := congrArg Header.merkleRoot hheader
  have hverdict : Verdict.ofMerkleRoot b = Verdict.ofMerkleRoot c :=
    Verdict.ofMerkleRoot_congr htransactions hroot
  have htime : ∀ v : Verifier, v.verifyHeader b = v.verifyHeader c := fun v =>
    v.verifyHeader_congr (congrArg Header.time hheader)
  refine ⟨?_, hheader, ?_, hroot, htransactions, hsignatures, hanchor, ?_, ?_, htime, hverdict,
    fun _ _ => rfl, ?_⟩
  · rw [hb.hash_eq, hc.hash_eq, hheader]
  · rw [hb.headerOctets_eq, hc.headerOctets_eq, hheader]
  · rw [b.optimalSize_eq, c.optimalSize_eq, htransactions, hsignatures]
  · intro v height flags
    rw [v.verify_eq_andThen, v.verify_eq_andThen, htime v, hverdict]
  · rw [hb.take_encode, hc.take_encode, hheader]

/-! ## Bodies with the shortest compact sizes -/

/-- **A body whose compact sizes are at their shortest.** -/
inductive ShortestBody : Octets → Prop
  /-- There is none. -/
  | absent : ShortestBody []
  /-- The count of the list is. -/
  | listed {n : Nat} {count items : Octets} (hcount : CompactSize.Shortest n count)
      (hitems : items.length = 32 * n) : ShortestBody (count ++ items)
  /-- The count of the list and the length of the signature are. -/
  | signed {n m : Nat} {count items length signature : Octets}
      (hcount : CompactSize.Shortest n count) (hitems : items.length = 32 * n)
      (hlength : CompactSize.Shortest m length) (hsignature : signature.length = m) :
      ShortestBody (count ++ items ++ (length ++ signature))

/-- A list at the front whose count is at its shortest is what would be written. -/
theorem ListForm.eq_encodeTransactions {hashes : List Hash} {list count items rest rest' : Octets}
    {n : Nat} (h : ListForm hashes list) (hcount : CompactSize.Shortest n count)
    (hitems : items.length = 32 * n) (heq : list ++ rest = count ++ items ++ rest') :
    list = encodeTransactions hashes ∧ rest = rest' := by
  obtain ⟨_, count', items', hcount', ⟨rfl, hlisted⟩, rfl⟩ := h
  rw [List.append_assoc, List.append_assoc] at heq
  -- the count is cut off in one way only, and it says how many octets the hashes take
  obtain ⟨rfl, rfl, hbehind⟩ := CompactSize.read_recognizes.unique hcount' hcount.form heq
  have hlen : items'.length = items.length := hlisted.length.trans hitems.symm
  obtain ⟨-, hrest⟩ := List.append_inj hbehind hlen
  refine ⟨?_, hrest⟩
  rw [encodeTransactions, ← (CompactSize.shortest_iff.1 hcount).2, ← Hash.listed_iff.1 hlisted]

/-- A signature whose length is at its shortest is what would be written. -/
theorem SignatureForm.eq_encodeSignatures {signature blob length octets : Octets} {m : Nat}
    (h : SignatureForm signature blob) (hlength : CompactSize.Shortest m length)
    (heq : blob = length ++ octets) : blob = encodeSignatures signature := by
  obtain ⟨_, length', octets', hlength', ⟨rfl, rfl⟩, rfl⟩ := h
  obtain ⟨rfl, rfl, -⟩ := CompactSize.read_recognizes.unique hlength' hlength.form heq
  rw [encodeSignatures, List.length_reverse, List.reverse_reverse,
    ← (CompactSize.shortest_iff.1 hlength).2]

/-- **A body whose compact sizes are at their shortest is what would be written.** -/
theorem BodyForm.eq_encodeBody {transactions : Option (List Hash)} {signatures : Option Octets}
    {body : Octets} (h : BodyForm transactions signatures body) (hshort : ShortestBody body) :
    body = encodeBody transactions signatures := by
  cases h with
  | absent => rfl
  | listed hlist =>
    cases hshort with
    | absent => exact absurd rfl hlist.ne_nil
    | @listed n count items hcount hitems =>
      have heq : count ++ items ++ [] = count ++ items ++ ([] : Octets) := rfl
      exact (hlist.eq_encodeTransactions hcount hitems heq).1
    | signed hcount hitems hlength hsignature =>
      -- the list alone would have to end before the length of a signature
      obtain ⟨-, hnil⟩ := hlist.eq_encodeTransactions hcount hitems (List.append_nil _)
      exact absurd (List.append_eq_nil_iff.1 hnil.symm).1 hlength.form.ne_nil
  | @signed hashes signature list blob hlist hsig =>
    generalize hbody : list ++ blob = octets at hshort
    cases hshort with
    | absent => exact absurd (List.append_eq_nil_iff.1 hbody).1 hlist.ne_nil
    | listed hcount hitems =>
      have heq := hbody.trans (List.append_nil _).symm
      obtain ⟨-, hnil⟩ := hlist.eq_encodeTransactions hcount hitems heq
      exact absurd hnil hsig.ne_nil
    | signed hcount hitems hlength hsignature =>
      obtain ⟨hlisted, hblob⟩ := hlist.eq_encodeTransactions hcount hitems hbody
      rw [← hbody, hlisted, hsig.eq_encodeSignatures hlength hblob]
      rfl

/-! ## Bodies as they would be written -/

/-- **The body of the block is what would be written.** -/
def WrittenAnew (b : Block) : Prop := b.bodyOctets = encodeBody b.transactions b.signatures

/-- A body that is not kept is written. -/
theorem writtenAnew_of_none (h : b.retained.body? = none) : b.WrittenAnew := by
  unfold WrittenAnew bodyOctets
  rw [h, Option.getD_none]

/-- The body depends on what is kept of it, the list and the signature. -/
theorem WrittenAnew.congr (h : b.WrittenAnew) (hkept : c.retained.body? = b.retained.body?)
    (htransactions : c.transactions = b.transactions) (hsignatures : c.signatures = b.signatures) :
    c.WrittenAnew := by
  unfold WrittenAnew bodyOctets at h ⊢
  rw [hkept, htransactions, hsignatures]
  exact h

/-- The body of a block that was read with its compact sizes at their shortest is as it would be
written. -/
theorem writtenAnew_ofSections {limit : Nat} {s : Sections} {used rest : Octets}
    (hform : s.Form limit used rest) (hshort : ShortestBody (used.drop Header.size)) :
    (ofSections s used true).WrittenAnew := by
  have hcoherent : (ofSections s used true).Coherent := coherent_ofSections hform
  have hlong : Header.size ≤ used.length := hcoherent.long used rfl
  have hkept : (ofSections s used true).retained.body? = some (used.drop Header.size) :=
    Retained.body?_eq_some rfl hlong rfl
  unfold WrittenAnew bodyOctets
  rw [hkept, Option.getD_some]
  exact hform.body.eq_encodeBody hshort

/-- A question leaves what is kept as it is. -/
theorem retained_consult (b : Block) (q : Query) : (b.consult q).retained = b.retained := by
  obtain ⟨root?, identity?, hconsult, -⟩ := b.exists_consult_eq q
  rw [hconsult]

/-- **An edit after which the body is written**: one of the list or the signature, a signing that
succeeds, or a turn into a header. -/
def Rewrites (b : Block) : Edit → Prop
  | .addTransactionHash _ => True
  | .addTransaction _ => True
  | .setTransactions _ => True
  | .setSignatures _ => True
  | .sign key => ∃ signature, key.sign b.hash.octets = .ok signature
  | .cloneAsHeader => True
  | _ => False

/-- **Some edit of a run is one after which the body is written.** -/
def RewritesDuring (b : Block) : List Edit → Prop
  | [] => False
  | e :: es => b.Rewrites e ∨ (b.apply e).RewritesDuring es

/-- After such an edit the body is as it would be written. -/
theorem writtenAnew_of_rewrites {e : Edit} (h : b.Rewrites e) : (b.apply e).WrittenAnew := by
  have hlist : b.forgetTransactions.retained.body? = none :=
    congrArg Retained.body? b.retained.dropHeader_dropBody
  cases e with
  | addTransactionHash t => exact writtenAnew_of_none hlist
  | addTransaction t => exact writtenAnew_of_none hlist
  | setTransactions hashes => exact writtenAnew_of_none hlist
  | setSignatures signatures => exact writtenAnew_of_none b.retained.body?_dropBody
  | sign key =>
    obtain ⟨made, hmade⟩ := h
    show ((b.sign key).toOption.getD b).WrittenAnew
    rcases b.sign_cases key with ⟨e, hfailed, -⟩ | ⟨signature, -, hsign⟩
    · rw [hmade] at hfailed
      cases hfailed
    · rw [hsign]
      exact writtenAnew_of_none (b.consult .hash).retained.body?_dropBody
  | cloneAsHeader => exact writtenAnew_of_none rfl
  | _ => exact h.elim

/-- A body as it would be written stays one. -/
theorem WrittenAnew.apply (h : b.WrittenAnew) {e : Edit} (hlocal : e.IsLocal) :
    (b.apply e).WrittenAnew := by
  have hheader : b.forgetHeader.retained.body? = b.retained.body? := b.retained.body?_dropHeader
  cases e with
  | setVersion v => exact h.congr hheader rfl rfl
  | setTime t => exact h.congr hheader rfl rfl
  | setPlanKey k => exact h.congr hheader rfl rfl
  | setPrevBlock p => exact h.congr hheader rfl rfl
  | setPrevAnchor p => exact h.congr hheader rfl rfl
  | setMerkleRoot root => exact h.congr hheader rfl rfl
  | setAnchor anchor => exact h.congr rfl rfl rfl
  | sign key =>
    rcases b.sign_cases key with ⟨e, -, hsign⟩ | ⟨signature, hmade, -⟩
    · -- a signing that fails leaves the block as it is
      show ((b.sign key).toOption.getD b).WrittenAnew
      rw [hsign]
      exact h
    · exact writtenAnew_of_rewrites ⟨signature, hmade⟩
  | clone => exact h
  | consult q =>
    have hsame := b.contents_consult q
    exact h.congr (congrArg Retained.body? (b.retained_consult q))
      (congrArg Contents.transactions hsame) (congrArg Contents.signatures hsame)
  | reparse network retain => exact hlocal.elim
  | addTransactionHash t => exact writtenAnew_of_rewrites trivial
  | addTransaction t => exact writtenAnew_of_rewrites trivial
  | setTransactions hashes => exact writtenAnew_of_rewrites trivial
  | setSignatures signatures => exact writtenAnew_of_rewrites trivial
  | cloneAsHeader => exact writtenAnew_of_rewrites trivial

theorem WrittenAnew.run (h : b.WrittenAnew) {edits : List Edit}
    (hlocal : ∀ e ∈ edits, e.IsLocal) : (b.run edits).WrittenAnew := by
  induction edits generalizing b with
  | nil => exact h
  | cons e es ih =>
    obtain ⟨hfirst, hothers⟩ := List.forall_mem_cons.1 hlocal
    exact ih (h.apply hfirst) hothers

/-- **After a run that rewrites it the body is as it would be written.** -/
theorem writtenAnew_run_of_rewrites {edits : List Edit} (hlocal : ∀ e ∈ edits, e.IsLocal)
    (h : b.RewritesDuring edits) : (b.run edits).WrittenAnew := by
  induction edits generalizing b with
  | nil => exact h.elim
  | cons e es ih =>
    obtain ⟨-, hothers⟩ := List.forall_mem_cons.1 hlocal
    -- once the body is as it would be written, the other edits leave it so
    rcases h with hrewrites | hlater
    · exact (writtenAnew_of_rewrites hrewrites).run hothers
    · exact ih hothers hlater

/-- Alike blocks with bodies as they would be written have one wire form. -/
theorem Coherent.encode_eq_of_writtenAnew (hb : b.Coherent) (hc : c.Coherent) (halike : Alike b c)
    (hbody : b.WrittenAnew) (hbody' : c.WrittenAnew) : b.encode = c.encode := by
  unfold WrittenAnew at hbody hbody'
  rw [hb.encode_eq, hc.encode_eq, hbody, hbody', halike.header, halike.transactions,
    halike.signatures]

/-! ## Keeping octets or not -/

/-- **Keeping the octets of a block changes nothing but the form of its body.** Where parsing accepts, it
does so with and without keeping the octets. After any run of edits of both blocks no question tells
them apart, up to the octets behind the header. If the compact sizes there were at their shortest, or
if the run rewrote the body, the wire forms and their lengths are equal as well. -/
theorem parse_alike (network : Network) (retain : Bool) (buffer : Octets) (offset : Nat) (b : Block)
    (h : parse network retain buffer offset = .ok b) :
    ∃ keeping plain used rest,
      parse network true buffer offset = .ok keeping ∧
      parse network false buffer offset = .ok plain ∧
      buffer.drop offset = used ++ rest ∧
      keeping.retained = .all used ∧ plain.retained = .nothing ∧
      ∀ edits : List Edit, (∀ e ∈ edits, e.IsLocal) →
        Alike (keeping.run edits) (plain.run edits) ∧
        (ShortestBody (used.drop Header.size) ∨ keeping.RewritesDuring edits →
          (keeping.run edits).encode = (plain.run edits).encode ∧
          (keeping.run edits).messageSize = (plain.run edits).messageSize) := by
  obtain ⟨hle, s, used, rest, hrest, hform, -⟩ := parse_eq_ok_iff.1 h
  have hparse : ∀ retain, parse network retain buffer offset = .ok (ofSections s used retain) :=
    fun retain => parse_eq_ok_iff.2 ⟨hle, s, used, rest, hrest, hform, rfl⟩
  refine ⟨_, _, used, rest, hparse true, hparse false, hrest, rfl, rfl, fun edits hlocal => ?_⟩
  have hcoherent : ∀ retain, ((ofSections s used retain).run edits).Coherent := fun retain =>
    ((Reachable.constructed (.parsed (hparse retain))).run edits).coherent
  -- both start with the same contents, and runs act on these alone
  have hsame : ((ofSections s used true).run edits).contents =
      ((ofSections s used false).run edits).contents := by
    rw [(coherent_ofSections hform).contents_run hlocal, (coherent_ofSections hform).contents_run hlocal]
    rfl
  have halike := (hcoherent true).alike (hcoherent false) hsame
  refine ⟨halike, fun hbody => ?_⟩
  have hkeeping : ((ofSections s used true).run edits).WrittenAnew := by
    rcases hbody with hshort | hrewrites
    · exact (writtenAnew_ofSections hform hshort).run hlocal
    · exact writtenAnew_run_of_rewrites hlocal hrewrites
  have hplain : ((ofSections s used false).run edits).WrittenAnew :=
    (writtenAnew_of_none rfl).run hlocal
  have hencode := (hcoherent true).encode_eq_of_writtenAnew (hcoherent false) halike hkeeping hplain
  exact ⟨hencode, by rw [(hcoherent true).messageSize_eq, (hcoherent false).messageSize_eq, hencode]⟩

/-- An empty list whose count takes three octets instead of one: once the block has been given a
signature, it has one wire form whether its octets were kept or not. -/
theorem parse_alike_long_count :
    let buffer : Octets := List.replicate 137 0 ++ [0xFD, 0, 0]
    let edits : List Edit := [.setTime 7, .consult .hash, .setSignatures (some [9])]
    (∃ b, parse .main true buffer 0 = .ok b) ∧ (∀ e ∈ edits, e.IsLocal) ∧
      ∃ keeping plain, parse .main true buffer 0 = .ok keeping ∧
        parse .main false buffer 0 = .ok plain ∧ keeping.RewritesDuring edits ∧
        Alike (keeping.run edits) (plain.run edits) ∧
        (keeping.run edits).encode = (plain.run edits).encode := by
  intro buffer edits
  have hcount : CompactSize.Form (Octets.toNatLE [0, 0]) [0xFD, 0, 0] := .marked16 rfl
  have hitems : ([] : Octets).length = 32 * Octets.toNatLE [0, 0] := rfl
  have hwire : WireForm Network.main.maxBlockSize.toNat (buffer.drop 0) :=
    .listed List.length_replicate hcount hitems (by decide)
  obtain ⟨s, used, rest, hrest, hform⟩ := wireForm_iff.1 hwire
  have hparse : parse .main true buffer 0 = .ok (ofSections s used true) :=
    parse_eq_ok_iff.2 ⟨Nat.zero_le _, s, used, rest, hrest, hform, rfl⟩
  have hlocal : ∀ e ∈ edits, e.IsLocal := by simp [edits, Edit.IsLocal]
  obtain ⟨keeping, plain, _, _, hkeeping, hplain, -, -, -, hrun⟩ :=
    parse_alike .main true buffer 0 _ hparse
  have hrewrites : keeping.RewritesDuring edits := .inr (.inr (.inl trivial))
  obtain ⟨halike, hencode⟩ := hrun edits hlocal
  exact ⟨⟨_, hparse⟩, hlocal, keeping, plain, hkeeping, hplain, hrewrites, halike,
    (hencode (.inr hrewrites)).1⟩

end AnchoredLedger.Block
