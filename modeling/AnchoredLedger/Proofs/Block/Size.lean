import AnchoredLedger.Proofs.Block.Retention
import AnchoredLedger.Proofs.Economy

/-! # The length of wire forms

How long the wire form of a block is, and how long it is at best, is worked out without writing it. The
two differ only by compact sizes that were read in a longer form than needed and are still kept.

* **`BodyForm.eq_or_longer`** — a body is what would be written, or longer; `BodyForm.shortestBody_iff`
  says that the first is the case exactly where its compact sizes are at their shortest.
* **`Block.ShortestForm`** — the wire forms of a block with all compact sizes at their shortest;
  `shortestForm_iff` says that there is one.
* **`Block.messageSize_optimalSize`** — both lengths of a reachable block. -/

namespace AnchoredLedger.Block

variable {b : Block}

/-! ## Bodies and what would be written for them -/

/-- A list is what would be written, or longer. -/
theorem ListForm.eq_or_longer {hashes : List Hash} {form : Octets} (h : ListForm hashes form) :
    form = encodeTransactions hashes ∨ (encodeTransactions hashes).length < form.length := by
  obtain ⟨_, count, items, hcount, ⟨rfl, hlisted⟩, rfl⟩ := h
  have hfront := hcount.eq_encode_or_longer
  rw [← CompactSize.length_encode] at hfront
  exact append_eq_or_longer hfront (.inl (Hash.listed_iff.1 hlisted))

/-- A signature is what would be written, or longer. -/
theorem SignatureForm.eq_or_longer {signature form : Octets} (h : SignatureForm signature form) :
    form = encodeSignatures signature ∨ (encodeSignatures signature).length < form.length := by
  obtain ⟨_, length, octets, hlength, ⟨rfl, rfl⟩, rfl⟩ := h
  have hfront := hlength.eq_encode_or_longer
  rw [← CompactSize.length_encode] at hfront
  unfold encodeSignatures
  rw [List.length_reverse, List.reverse_reverse]
  exact append_eq_or_longer hfront (.inl rfl)

variable {transactions : Option (List Hash)} {signatures : Option Octets} {body : Octets}

/-- **A body is what would be written, or longer.** -/
theorem BodyForm.eq_or_longer (h : BodyForm transactions signatures body) :
    body = encodeBody transactions signatures ∨
      (encodeBody transactions signatures).length < body.length := by
  cases h with
  | absent => exact .inl rfl
  | listed hlist => exact hlist.eq_or_longer
  | signed hlist hsig => exact append_eq_or_longer hlist.eq_or_longer hsig.eq_or_longer

/-- What has a form has lengths that are 64-bit words. -/
theorem BodyForm.lengths_lt (h : BodyForm transactions signatures body) :
    (∀ hashes, transactions = some hashes → hashes.length < 2 ^ 64) ∧
      ∀ signature, signatures = some signature → signature.length < 2 ^ 64 := by
  have hlist : ∀ {hashes form}, ListForm hashes form → hashes.length < 2 ^ 64 := by
    rintro _ _ ⟨_, count, items, hcount, ⟨rfl, -⟩, -⟩
    exact hcount.lt
  cases h with
  | absent => exact ⟨nofun, nofun⟩
  | listed hform => exact ⟨fun _ heq => Option.some.inj heq ▸ hlist hform, nofun⟩
  | signed hform hblob =>
    refine ⟨fun _ heq => Option.some.inj heq ▸ hlist hform, fun _ heq => Option.some.inj heq ▸ ?_⟩
    obtain ⟨_, length, octets, hlength, ⟨rfl, rfl⟩, -⟩ := hblob
    rw [List.length_reverse]
    exact hlength.lt

/-- What is written has its compact sizes at their shortest. -/
theorem shortestBody_encodeBody (hlist : ∀ hashes, transactions = some hashes → hashes.length < 2 ^ 64)
    (hsig : ∀ signature, signatures = some signature → signature.length < 2 ^ 64) :
    ShortestBody (encodeBody transactions signatures) := by
  have hcounted : ∀ hashes : List Hash, (hashes.flatMap FixedOctets.toWire).length =
      32 * hashes.length := fun hashes => (Hash.listed_iff.2 rfl).length
  have hshort : ∀ {n}, n < 2 ^ 64 → CompactSize.Shortest n (CompactSize.encode n) := fun hlt =>
    CompactSize.shortest_iff.2 ⟨hlt, rfl⟩
  cases transactions with
  | none =>
    cases signatures with
    | none => exact .absent
    | some signature =>
      -- the list in front of the signature is the empty one
      exact .signed (hshort (by decide)) (hcounted []) (hshort (hsig signature rfl))
        List.length_reverse
  | some hashes =>
    have hcount := hshort (hlist hashes rfl)
    cases signatures with
    | none => exact .listed hcount (hcounted hashes)
    | some signature =>
      exact .signed hcount (hcounted hashes) (hshort (hsig signature rfl)) List.length_reverse

/-- **The compact sizes of a body are at their shortest exactly if it is what would be written.** -/
theorem BodyForm.shortestBody_iff (h : BodyForm transactions signatures body) :
    ShortestBody body ↔ body = encodeBody transactions signatures := by
  constructor
  · exact h.eq_encodeBody
  · -- what has a form has lengths that can be written, so their shortest forms are there
    intro heq
    obtain ⟨hlist, hsig⟩ := h.lengths_lt
    rw [heq]
    exact shortestBody_encodeBody hlist hsig

/-! ## The wire form at best -/

/-- **A wire form with all compact sizes at their shortest**: a form of the sections that are written, and
no compact size in it is longer than needed. -/
structure ShortestForm (b : Block) (octets : Octets) : Prop where
  /-- The first 137 octets are the header. -/
  header : b.header.Form (octets.take Header.size)
  /-- The others are the list and the signature, as far as they are written. -/
  body : BodyForm b.written.transactions b.written.signatures (octets.drop Header.size)
  /-- The compact sizes in front of them are at their shortest. -/
  shortest : ShortestBody (octets.drop Header.size)

/-- The list that is put in front of a signature is written as such. -/
theorem encodeBody_written (b : Block) :
    encodeBody b.written.transactions b.written.signatures = encodeBody b.transactions b.signatures := by
  show encodeBody (writtenTransactions b.transactions b.signatures) b.signatures = _
  cases b.transactions <;> cases b.signatures <;> rfl

/-- **There is one wire form at best**: the one that is written anew. -/
theorem Sized.shortestForm_iff (h : b.Sized) {octets : Octets} :
    b.ShortestForm octets ↔ octets = b.header.encode ++ encodeBody b.transactions b.signatures := by
  constructor
  · rintro ⟨hheader, hbody, hshort⟩
    rw [← List.take_append_drop Header.size octets, hheader.eq_encode,
      hbody.shortestBody_iff.1 hshort, encodeBody_written]
  · rintro rfl
    have hform := bodyForm_encodeBody (fun _ => h.length_lt) h.storable
    have hshort := shortestBody_encodeBody (fun _ => h.length_lt) h.storable
    have hfront := b.header.length_encode
    refine ⟨?_, ?_, ?_⟩
    · rw [List.take_left' hfront]
      exact Header.form_encode b.header
    · rw [List.drop_left' hfront]
      exact hform
    · rw [List.drop_left' hfront]
      exact hshort

/-! ## Both lengths -/

/-- The octets behind the header are what would be written, or longer. -/
theorem Coherent.bodyOctets_eq_or_longer (h : b.Coherent) (hsized : b.Sized) :
    b.WrittenAnew ∨ (encodeBody b.transactions b.signatures).length < b.bodyOctets.length := by
  have hbody := (h.bodyForm_bodyOctets hsized).eq_or_longer
  rwa [encodeBody_written] at hbody

/-- The compact sizes of a wire form are at their shortest exactly if its body is what would be written. -/
theorem Coherent.shortestBody_iff (h : b.Coherent) (hsized : b.Sized) :
    ShortestBody (b.encode.drop Header.size) ↔ b.WrittenAnew := by
  rw [h.encode_eq, List.drop_left' b.header.length_encode,
    (h.bodyForm_bodyOctets hsized).shortestBody_iff, encodeBody_written]
  exact Iff.rfl

/-- **The lengths of a reachable block.** The length that is worked out is that of the wire form. The
length at best is that of the wire form with all compact sizes at their shortest, of which there is one.
It is never larger, and equal exactly if no compact size in the wire form is longer than needed. -/
theorem messageSize_optimalSize (b : Block) (hreachable : b.Reachable) (hsized : b.Sized) :
    b.messageSize = b.encode.length ∧
    (∃ octets, (∀ other, b.ShortestForm other ↔ other = octets) ∧ b.optimalSize = octets.length) ∧
    b.optimalSize ≤ b.messageSize ∧
    (b.optimalSize = b.messageSize ↔ ShortestBody (b.encode.drop Header.size)) := by
  have hcoherent := hreachable.coherent
  have hsize : b.messageSize = Header.size + b.bodyOctets.length := by
    rw [hcoherent.messageSize_eq, hcoherent.encode_eq, List.length_append, b.header.length_encode]
  have hbest := b.optimalSize_eq
  have hlonger := hcoherent.bodyOctets_eq_or_longer hsized
  refine ⟨hcoherent.messageSize_eq, ⟨_, fun other => hsized.shortestForm_iff, ?_⟩, ?_, ?_⟩
  · rw [hbest, List.length_append, b.header.length_encode]
  · rcases hlonger with hanew | hlonger
    · rw [hsize, hbest, show b.bodyOctets = _ from hanew]
    · omega
  · rw [hcoherent.shortestBody_iff hsized]
    constructor
    · intro heq
      exact hlonger.resolve_right (by omega)
    · intro hanew
      rw [hsize, hbest, show b.bodyOctets = _ from hanew]

/-- A block with an empty list whose count was read from three octets, after another time was set: its
wire form still has the long count, and is two octets longer than at best. -/
theorem messageSize_optimalSize_long_count :
    let buffer : Octets := List.replicate 137 0 ++ [0xFD, 0, 0]
    ∃ p, parse .main true buffer 0 = .ok p ∧
      let b := p.run [.setTime 7, .consult .hash]
      b.Reachable ∧ b.Sized ∧ b.messageSize = b.encode.length ∧ b.messageSize = 140 ∧
        b.optimalSize = 138 ∧ ¬ ShortestBody (b.encode.drop Header.size) := by
  intro buffer
  have hevaluated : ((parse .main true buffer 0).toOption.any fun p =>
      let b := p.run [.setTime 7, .consult .hash]
      b.Sized ∧ b.messageSize = 140 ∧ b.optimalSize = 138) = true := by decide +kernel
  obtain ⟨p, hparse, hlengths⟩ := exists_of_toOption_any hevaluated
  obtain ⟨hsized, hsize, hbest⟩ := of_decide_eq_true hlengths
  have hreachable := (Reachable.constructed (.parsed hparse)).run [.setTime 7, .consult .hash]
  obtain ⟨hlength, -, -, hshortest⟩ := messageSize_optimalSize _ hreachable hsized
  refine ⟨p, hparse, hreachable, hsized, hlength, hsize, hbest, fun hshort => ?_⟩
  have hequal := hshortest.2 hshort
  omega

end AnchoredLedger.Block
