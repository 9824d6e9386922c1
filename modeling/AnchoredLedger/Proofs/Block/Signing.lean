import AnchoredLedger.Proofs.Block.Contents
import AnchoredLedger.Proofs.Signature

/-! # How long a signature stays valid

A signature of a block is one of its identity, and stands behind the list on the wire. It stays valid as
long as the header stays the same, whatever is forgotten, written and read again meanwhile: a field that is
set to what it was gives the same octets, and a list that is put in front of the signature is no part of the
identity.

* **`KeyPair.SignsValidly`** — a key pair that makes a signature of a message that is valid under its own
  public key.
* **`Block.isHarmless`**, **`Block.isHarmlessDuring`** — edits that leave header and signature as they are;
  `Coherent.header_signatures_apply` and `Coherent.header_signatures_run` say so.
* **`Block.Coherent.exists_of_sign`** — what signing does, and which keys match then, for any key pair.
* **`Block.signature_stays_valid`** — signing a reachable block, and what becomes of the signature. -/

namespace AnchoredLedger

/-- **A key pair signs a message validly**: its secret makes a signature, and this one is valid under the
public key that the pair holds. -/
def KeyPair.SignsValidly (k : KeyPair) (message : Octets) : Prop :=
  ∃ signature, k.sign message = .ok signature ∧ k.verifies message signature = true

namespace Block

variable {b c : Block}

/-! ## Edits that leave header and signature as they are -/

/-- **An edit that leaves header and signature as they are**: a field of the header is set to what it was,
with the root in force for a root; the anchor is set; a copy is made or a question asked; the wire form is
read again within the limit. -/
def isHarmless (b : Block) : Edit → Bool
  | .setVersion v => v = b.version
  | .setTime t => t = b.time
  | .setPlanKey k => k = b.planKey
  | .setPrevBlock h => h = b.prevBlock
  | .setPrevAnchor h => h = b.prevAnchor
  | .setMerkleRoot h => h = b.merkleRoot
  | .setAnchor _ => true
  | .clone => true
  | .consult _ => true
  | .reparse network _ => Header.size + 32 * b.transactionCount ≤ network.maxBlockSize.toNat
  | _ => false

/-- **All edits of a run leave header and signature as they are.** -/
def isHarmlessDuring (b : Block) : List Edit → Bool
  | [] => true
  | e :: es => b.isHarmless e && (b.apply e).isHarmlessDuring es

/-- **Such an edit does leave them as they are.** -/
theorem Coherent.header_signatures_apply (h : b.Coherent) (hsig : b.Storable) {e : Edit}
    (hharmless : b.isHarmless e = true) :
    (b.apply e).header = b.header ∧ (b.apply e).signatures = b.signatures := by
  cases e with
  | setVersion v =>
    obtain rfl : v = b.version := of_decide_eq_true hharmless
    exact ⟨rfl, rfl⟩
  | setTime t =>
    obtain rfl : t = b.time := of_decide_eq_true hharmless
    exact ⟨rfl, rfl⟩
  | setPlanKey k =>
    obtain rfl : k = b.planKey := of_decide_eq_true hharmless
    exact ⟨rfl, rfl⟩
  | setPrevBlock p =>
    obtain rfl : p = b.prevBlock := of_decide_eq_true hharmless
    exact ⟨rfl, rfl⟩
  | setPrevAnchor p =>
    obtain rfl : p = b.prevAnchor := of_decide_eq_true hharmless
    exact ⟨rfl, rfl⟩
  | setMerkleRoot root =>
    -- the root is now a given one, and the same
    obtain rfl : root = b.merkleRoot := of_decide_eq_true hharmless
    exact ⟨rfl, rfl⟩
  | setAnchor anchor => exact ⟨rfl, rfl⟩
  | clone => exact ⟨rfl, rfl⟩
  | consult q =>
    have hsame := b.contents_consult q
    exact ⟨congrArg Contents.header hsame, congrArg Contents.signatures hsame⟩
  | reparse network retain =>
    have hparse := h.parse_encode_self hsig (of_decide_eq_true hharmless) retain
    show ((parse network retain b.encode 0).toOption.getD b).header = b.header ∧
      ((parse network retain b.encode 0).toOption.getD b).signatures = b.signatures
    rw [hparse]
    exact ⟨rfl, rfl⟩
  | _ => cases hharmless

/-- **So does a run of them.** -/
theorem Coherent.header_signatures_run (h : b.Coherent) (hsig : b.Storable) {edits : List Edit}
    (hharmless : b.isHarmlessDuring edits = true) :
    (b.run edits).header = b.header ∧ (b.run edits).signatures = b.signatures := by
  -- the signature stays one that can be stored, so the wire form can be read after each edit
  induction edits generalizing b with
  | nil => exact ⟨rfl, rfl⟩
  | cons e es ih =>
    obtain ⟨hfirst, hothers⟩ := Bool.and_eq_true_iff.1 hharmless
    obtain ⟨hheader, hsignatures⟩ := h.header_signatures_apply hsig hfirst
    obtain ⟨hheader', hsignatures'⟩ := ih (h.apply e) (hsig.congr hsignatures) hothers
    exact ⟨hheader'.trans hheader, hsignatures'.trans hsignatures⟩

/-! ## What a signature is checked against -/

/-- The check of a signature depends on the header and on the signature. -/
theorem Coherent.signatureMatches_congr (hb : b.Coherent) (hc : c.Coherent)
    (hheader : b.header = c.header) (hsignatures : b.signatures = c.signatures) (key : Octets) :
    b.signatureMatches key = c.signatureMatches key := by
  unfold signatureMatches
  rw [hb.hash_eq, hc.hash_eq, hheader, hsignatures]

/-- What is read from the wire form matches the same keys. -/
theorem Coherent.signatureMatches_ofSections_encode (h : b.Coherent) (retain : Bool) (key : Octets) :
    (ofSections b.written b.encode retain).signatureMatches key = b.signatureMatches key := by
  unfold signatureMatches
  rw [h.hash_ofSections_encode retain]
  rfl

/-- No key matches a block without a signature. -/
theorem signatureMatches_eq_false (h : b.signatures = none) (key : Octets) :
    b.signatureMatches key = false := by
  unfold signatureMatches
  rw [h]

/-- **Signing succeeds with every key pair that makes a signature of the identity.** It changes nothing but
the signature, and the new one can be stored. Whatever public key the pair holds, the keys that match are
those under which the signature is valid. -/
theorem Coherent.exists_of_sign (h : b.Coherent) {key : KeyPair} {signature : Octets}
    (hmade : key.sign b.hash.octets = .ok signature) :
    ∃ c, b.sign key = .ok c ∧ c.Coherent ∧ c.Storable ∧ c.hash = b.hash ∧
      c.contents = { b.contents with signatures := some signature } ∧
      ∀ other, c.signatureMatches other = Signature.verifies b.hash.octets signature other := by
  have hsucceeds : ∃ c, b.sign key = .ok c := by
    rcases b.sign_cases key with ⟨e, hfailed, -⟩ | ⟨_, -, hsign⟩
    · rw [hmade] at hfailed
      cases hfailed
    · exact ⟨_, hsign⟩
  obtain ⟨c, hsign⟩ := hsucceeds
  obtain ⟨made, hmade', hcoherent, hcontents, hhash⟩ := h.of_sign_eq_ok hsign
  cases hmade.symm.trans hmade'
  have hsigned : c.signatures = some signature := congrArg Contents.signatures hcontents
  refine ⟨c, hsign, hcoherent, ?_, hhash, hcontents, fun other => ?_⟩
  · -- a signature is short, so that its length can be written
    intro stored hstored
    cases hsigned.symm.trans hstored
    exact Nat.lt_of_le_of_lt (KeyPair.length_le_of_sign hmade) (by decide)
  · unfold signatureMatches
    rw [hsigned, hhash]

/-- The public key of a pair matches what the pair has signed exactly if it signs validly. -/
theorem Coherent.signatureMatches_publicOctets_iff (h : b.Coherent) {key : KeyPair}
    (hsign : b.sign key = .ok c) :
    c.signatureMatches key.publicOctets = true ↔ key.SignsValidly b.hash.octets := by
  obtain ⟨made, hmade, -⟩ := h.of_sign_eq_ok hsign
  obtain ⟨c', hsign', -, -, -, -, hkeys⟩ := h.exists_of_sign hmade
  cases hsign.symm.trans hsign'
  rw [hkeys]
  constructor
  · intro hverifies
    exact ⟨made, hmade, hverifies⟩
  · rintro ⟨signature, hsignature, hverifies⟩
    cases hmade.symm.trans hsignature
    exact hverifies

/-- **Signing looks at the secret of a pair only**: beside another public key the same secret signs alike. -/
theorem sign_congr (b : Block) {key other : KeyPair} (h : other.secret = key.secret) :
    b.sign other = b.sign key := by
  unfold sign
  rw [KeyPair.sign_congr h]

/-- **Edits that leave header and signature as they are leave the identity, and the keys that match.** -/
theorem Coherent.signatureMatches_run (h : b.Coherent) (hsig : b.Storable) {edits : List Edit}
    (hharmless : b.isHarmlessDuring edits = true) :
    (b.run edits).hash = b.hash ∧
      ∀ key, (b.run edits).signatureMatches key = b.signatureMatches key := by
  obtain ⟨hheader, hsignatures⟩ := h.header_signatures_run hsig hharmless
  refine ⟨?_, (h.run edits).signatureMatches_congr h hheader hsignatures⟩
  rw [(h.run edits).hash_eq, h.hash_eq, hheader]

/-! ## Signing and what comes after -/

/-- **A signature stays valid while the header does.** Signing a reachable block succeeds with a key pair
that signs its identity validly, and changes nothing but the signature. The signature matches the key of the
pair then, and also after any run of edits that leave header and signature as they are; the wire form can
then be read again within the limit, and what is read matches as well. All the while the keys that match are
those under which the signature is valid, and no others. No key matches what is left without the
signature. -/
theorem signature_stays_valid (b : Block) (hreachable : b.Reachable) (key : KeyPair)
    (hvalid : key.SignsValidly b.hash.octets) :
    ∃ c signature, b.sign key = .ok c ∧ key.sign b.hash.octets = .ok signature ∧ c.hash = b.hash ∧
      c.header = b.header ∧ c.transactions = b.transactions ∧ c.anchor = b.anchor ∧
      c.signatureMatches key.publicOctets = true ∧
      ∀ edits, c.isHarmlessDuring edits = true →
        let d := c.run edits
        d.hash = b.hash ∧ d.signatureMatches key.publicOctets = true ∧
        (∀ other, d.signatureMatches other = Signature.verifies b.hash.octets signature other) ∧
        (∀ (network : Network) (retain : Bool),
          Header.size + 32 * d.transactionCount ≤ network.maxBlockSize.toNat →
          ∃ p, parse network retain d.encode 0 = .ok p ∧ p.hash = b.hash ∧
            p.signatureMatches key.publicOctets = true ∧
            ∀ other, p.signatureMatches other = d.signatureMatches other) ∧
        ∀ other, d.cloneAsHeader.signatureMatches other = false ∧
          (d.setSignatures none).signatureMatches other = false := by
  obtain ⟨signature, hmade, hverifies⟩ := hvalid
  obtain ⟨c, hsign, hcoherent, hstorable, hhash, hcontents, hkeys⟩ :=
    hreachable.coherent.exists_of_sign hmade
  have hmatches : c.signatureMatches key.publicOctets = true := (hkeys _).trans hverifies
  refine ⟨c, signature, hsign, hmade, hhash, congrArg Contents.header hcontents,
    congrArg Contents.transactions hcontents, congrArg Contents.anchor hcontents, hmatches, ?_⟩
  intro edits hharmless d
  have hafter : d.Coherent := hcoherent.run edits
  have hstored : d.Storable := hstorable.congr (hcoherent.header_signatures_run hstorable hharmless).2
  obtain ⟨hidentity, hsame⟩ := hcoherent.signatureMatches_run hstorable hharmless
  have hmatched : d.signatureMatches key.publicOctets = true := (hsame _).trans hmatches
  refine ⟨hidentity.trans hhash, hmatched, fun other => (hsame other).trans (hkeys other),
    fun network retain hfits => ?_, fun other => ?_⟩
  · have hread := hafter.signatureMatches_ofSections_encode retain
    refine ⟨_, hafter.parse_encode_self hstored hfits retain, ?_, (hread _).trans hmatched, hread⟩
    rw [hafter.hash_ofSections_encode, hidentity, hhash]
  · exact ⟨signatureMatches_eq_false rfl other, signatureMatches_eq_false rfl other⟩

/-- A header that is signed, then read again with an empty list in front of the signature and set to the
root and the time that it has. The same secret beside another public key signs the header alike, but not
validly, and that key does not match. -/
theorem signature_stays_valid_signed_header :
    let b := withVersion 1 7
    let key : KeyPair := .ofSecret ⟨0xb7, by decide, by decide⟩
    let other : KeyPair := { key with publicKey := Curve.generator }
    let edits : List Edit := [.setTime 7, .consult .hash, .reparse .main true, .setMerkleRoot .zero,
      .setAnchor (some .zero), .reparse .main false, .clone]
    b.Reachable ∧ key.SignsValidly b.hash.octets ∧ ¬ other.SignsValidly b.hash.octets ∧
      ∃ c, b.sign key = .ok c ∧ c.isHarmlessDuring edits = true ∧ (c.run edits).transactions = some [] ∧
        (c.run edits).signatureMatches key.publicOctets = true ∧
        (c.run edits).cloneAsHeader.signatureMatches key.publicOctets = false ∧
        b.sign other = .ok c ∧ c.signatureMatches other.publicOctets = false := by
  intro b key other edits
  have hreachable : b.Reachable := .constructed (.withVersion 1 7)
  have hevaluated : ((b.sign key).toOption.any fun c =>
      c.isHarmlessDuring edits && (c.run edits).transactions = some [] &&
        c.signatureMatches key.publicOctets && c.signatureMatches other.publicOctets == false) = true := by
    decide +kernel
  obtain ⟨c, hsign, hchecked⟩ := exists_of_toOption_any hevaluated
  obtain ⟨hmatched, hother⟩ := Bool.and_eq_true_iff.1 hchecked
  obtain ⟨hrun, hmatches⟩ := Bool.and_eq_true_iff.1 hmatched
  obtain ⟨hharmless, hlist⟩ := Bool.and_eq_true_iff.1 hrun
  have hvalid := (hreachable.coherent.signatureMatches_publicOctets_iff hsign).1 hmatches
  have hsecret : other.secret = key.secret := rfl
  have hsign' : b.sign other = .ok c := (b.sign_congr hsecret).trans hsign
  have hunmatched : c.signatureMatches other.publicOctets = false := eq_of_beq hother
  have hinvalid : ¬ other.SignsValidly b.hash.octets := by
    intro hvalid'
    have hmatched' := (hreachable.coherent.signatureMatches_publicOctets_iff hsign').2 hvalid'
    rw [hunmatched] at hmatched'
    cases hmatched'
  obtain ⟨c', _, hsign'', -, -, -, -, -, -, hafter⟩ := signature_stays_valid b hreachable key hvalid
  cases hsign.symm.trans hsign''
  obtain ⟨-, hmatched, -, -, hnone⟩ := hafter edits hharmless
  exact ⟨hreachable, hvalid, hinvalid, c, hsign, hharmless, of_decide_eq_true hlist, hmatched,
    (hnone _).1, hsign', hunmatched⟩

end Block

end AnchoredLedger
