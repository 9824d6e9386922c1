import AnchoredLedger.Command
import AnchoredLedger.Proofs.Block.Contents
import AnchoredLedger.Proofs.Block.Verdicts
import AnchoredLedger.Proofs.Signature
import Mathlib.Data.List.Forall2

/-! # What a build request asks for

A request names the fields of a block by texts and leaves some of them out. Where a block is built for it,
all texts were read, and the block says what they show and has a default for the rest.

* **`mapM_eq_ok_iff`** and others — computations that may fail, from what they gave.
* **`BuildRequest.Describes`** — the header and the list that a request asks for.
* **`BuildRequest.exists_of_draft_eq_ok`**, **`describes_build`** — the draft of a request, and its block.
* **`BuildRequest.Signs`**, **`of_block_eq_ok`** — the block of a request, signed or not. -/

namespace AnchoredLedger.Command

/-! ## Computations that may fail -/

section Except

variable {ε ε' α β : Type}

theorem bind_eq_ok_iff {x : Except ε α} {next : α → Except ε β} {b : β} :
    (x >>= next) = .ok b ↔ ∃ a, x = .ok a ∧ next a = .ok b := by
  cases x <;> simp [bind, Except.bind]

theorem map_eq_ok_iff {x : Except ε α} {f : α → β} {b : β} :
    x.map f = .ok b ↔ ∃ a, x = .ok a ∧ b = f a := by
  cases x <;> simp [Except.map, eq_comm]

theorem mapError_eq_ok_iff {x : Except ε α} {f : ε → ε'} {a : α} :
    x.mapError f = .ok a ↔ x = .ok a := by
  cases x <;> simp [Except.mapError]

theorem toOption_eq_some_iff {x : Except ε α} {a : α} : x.toOption = some a ↔ x = .ok a := by
  cases x <;> simp [Except.toOption]

/-- A list of computations gives the list of what they give. -/
theorem mapM_eq_ok_iff {f : α → Except ε β} {as : List α} {bs : List β} :
    as.mapM f = .ok bs ↔ List.Forall₂ (fun a b => f a = .ok b) as bs := by
  induction as generalizing bs with
  | nil =>
    rw [List.mapM_nil, List.forall₂_nil_left_iff]
    exact ⟨fun h => (Except.ok.inj h).symm, fun h => by rw [h]; rfl⟩
  | cons a as ih =>
    rw [List.mapM_cons, List.forall₂_cons_left_iff]
    simp only [bind_eq_ok_iff, ih, pure, Except.pure, Except.ok.injEq]
    constructor
    · rintro ⟨b, hb, rest, hrest, rfl⟩
      exact ⟨b, rest, hb, hrest, rfl⟩
    · rintro ⟨b, rest, hb, hrest, rfl⟩
      exact ⟨b, hb, rest, hrest, rfl⟩

end Except

/-! ## What texts show -/

/-- **What an optional text shows**, with a default where there is none. -/
def Shows {n : Nat} (text : Option String) (default value : FixedOctets n) : Prop :=
  match text with
  | none => value = default
  | some s => FixedOctets.ofHex s = .ok value

theorem readHash_eq_ok_iff {s : String} {h : Hash} :
    readHash s = .ok h ↔ FixedOctets.ofHex s = .ok h :=
  mapError_eq_ok_iff

theorem readHashOrZero_eq_ok_iff {s : Option String} {h : Hash} :
    readHashOrZero s = .ok h ↔ Shows s .zero h := by
  cases s with
  | none => exact ⟨fun heq => (Except.ok.inj heq).symm, fun heq => congrArg Except.ok (Eq.symm heq)⟩
  | some s => exact readHash_eq_ok_iff

/-- Entering a text changes nothing where there is none. -/
theorem enterText_eq_ok_iff {α : Type} {d d' : Draft} {s : Option String}
    {read : String → Except CommandError α} {entry : α → Draft.Entry} :
    enterText d s read entry = .ok d' ↔
      (s = none ∧ d' = d) ∨ ∃ t a, s = some t ∧ read t = .ok a ∧ d' = d.enter (entry a) := by
  cases s with
  | none => simp [enterText, eq_comm]
  | some t => simp [enterText, map_eq_ok_iff]

namespace BuildRequest

variable {r : BuildRequest} {d : Draft} {b : Block} {now : UInt32}

/-- The texts of the transactions that count: none where only a header is wanted. -/
def listed (r : BuildRequest) : List String := if r.headerOnly then [] else r.transactions

/-- **The header and the list that a request asks for.** What is left out is the first version, a zero
key or hash, the root of the list, or any time. -/
structure Describes (r : BuildRequest) (header : Header) (hashes : List Hash) : Prop where
  /-- The version. -/
  version : header.version = r.version.getD 1
  /-- The plan key. -/
  planKey : Shows r.planKey .zero header.planKey
  /-- The previous block. -/
  prevBlock : Shows r.prevBlock .zero header.prevBlock
  /-- The root. -/
  merkleRoot : Shows r.merkleRoot ((Merkle.root? hashes).getD .zero) header.merkleRoot
  /-- The previous anchor. -/
  prevAnchor : Shows r.prevAnchor .zero header.prevAnchor
  /-- The time. -/
  time : ∀ time, r.time = some time → header.time = time
  /-- The transactions. -/
  transactions : List.Forall₂ (fun s hash => FixedOctets.ofHex s = .ok hash) r.listed hashes

/-! ## The draft -/

theorem enterAll_version (d : Draft) (version : Option UInt32) :
    d.enterAll (version.toList.map .version) = { d with version := version.getD d.version } := by
  cases version <;> rfl

theorem enterAll_time (d : Draft) (time : Option UInt32) :
    d.enterAll (time.toList.map .time) = { d with time := time.or d.time } := by
  cases time <;> rfl

/-- The plan key that is entered is the one that the text shows. -/
theorem exists_of_enterText_planKey {d' : Draft} {s : Option String}
    (h : enterText d s (fun s => (FixedOctets.ofHex s).mapError .wire) .planKey = .ok d') :
    ∃ planKey, Shows s d.planKey planKey ∧ d' = { d with planKey } := by
  rcases enterText_eq_ok_iff.1 h with ⟨rfl, rfl⟩ | ⟨t, planKey, rfl, hread, rfl⟩
  · exact ⟨d'.planKey, rfl, rfl⟩
  · exact ⟨planKey, mapError_eq_ok_iff.1 hread, rfl⟩

/-- The root that is entered is the one that the text shows, and if none was there before there is none
without a text. -/
theorem exists_of_enterText_merkleRoot {d' : Draft} {s : Option String} (hnone : d.merkleRoot = none)
    (h : enterText d s readHash .merkleRoot = .ok d') :
    ∃ root?, (∀ default, Shows s default (root?.getD default)) ∧ d' = { d with merkleRoot := root? } := by
  rcases enterText_eq_ok_iff.1 h with ⟨rfl, rfl⟩ | ⟨t, root, rfl, hread, rfl⟩
  · refine ⟨d'.merkleRoot, fun default => ?_, rfl⟩
    rw [hnone]
    rfl
  · exact ⟨some root, fun default => readHash_eq_ok_iff.1 hread, rfl⟩

/-- The list that is entered is the one that the texts show. -/
theorem exists_of_enter_transactions {d' : Draft}
    (h : (if r.headerOnly then pure (d.enter .headerOnly)
      else do
        let hashes ← r.transactions.mapM readHash
        pure (d.enter (.transactions hashes)) : Except CommandError Draft) = .ok d') :
    ∃ transactions : Option (List Hash), List.Forall₂ (fun s hash => FixedOctets.ofHex s = .ok hash)
      r.listed (transactions.getD []) ∧ d' = { d with transactions } := by
  unfold listed
  cases hheader : r.headerOnly with
  | true =>
    rw [if_pos hheader] at h
    exact ⟨none, .nil, (Except.ok.inj h).symm⟩
  | false =>
    rw [hheader] at h
    obtain ⟨hashes, hhashes, h⟩ := bind_eq_ok_iff.1 h
    refine ⟨some hashes, ?_, (Except.ok.inj h).symm⟩
    exact (mapM_eq_ok_iff.1 hhashes).imp fun _ _ => readHash_eq_ok_iff.1

/-- **The draft of a request**, when it comes about. -/
theorem exists_of_draft_eq_ok (h : r.draft = .ok d) : ∃ planKey prevBlock root? prevAnchor transactions,
    d = { version := r.version.getD 1, planKey, prevBlock, merkleRoot := root?, prevAnchor,
          time := r.time, transactions, signatures := none, anchor := none } ∧
    Shows r.planKey .zero planKey ∧ Shows r.prevBlock .zero prevBlock ∧
    (∀ default, Shows r.merkleRoot default (root?.getD default)) ∧
    Shows r.prevAnchor .zero prevAnchor ∧
    List.Forall₂ (fun s hash => FixedOctets.ofHex s = .ok hash) r.listed (transactions.getD []) := by
  unfold draft at h
  simp only [enterAll_version, enterAll_time] at h
  obtain ⟨prevBlock, hprevBlock, h⟩ := bind_eq_ok_iff.1 h
  obtain ⟨prevAnchor, hprevAnchor, h⟩ := bind_eq_ok_iff.1 h
  obtain ⟨keyed, hkeyed, h⟩ := bind_eq_ok_iff.1 h
  obtain ⟨planKey, hplanKey, rfl⟩ := exists_of_enterText_planKey hkeyed
  obtain ⟨rooted, hrooted, h⟩ := bind_eq_ok_iff.1 h
  obtain ⟨root?, hroot, rfl⟩ := exists_of_enterText_merkleRoot rfl hrooted
  obtain ⟨transactions, hlist, rfl⟩ := exists_of_enter_transactions h
  refine ⟨planKey, prevBlock, root?, prevAnchor, transactions, ?_, hplanKey,
    readHashOrZero_eq_ok_iff.1 hprevBlock, hroot, readHashOrZero_eq_ok_iff.1 hprevAnchor, hlist⟩
  have htime : r.time.or none = r.time := Option.or_none
  show Draft.mk _ _ _ _ _ (r.time.or none) _ _ _ = _
  rw [htime]
  rfl

/-! ## The block -/

/-- **The block of a draft is as the request asks.** -/
theorem describes_build (h : r.draft = .ok d) (now : UInt32) :
    r.Describes (d.build now).header ((d.build now).transactions.getD []) := by
  obtain ⟨planKey, prevBlock, root?, prevAnchor, transactions, rfl, hplanKey, hprevBlock, hroot,
    hprevAnchor, hlist⟩ := exists_of_draft_eq_ok h
  constructor
  · rfl
  · exact hplanKey
  · exact hprevBlock
  · rw [← Block.calculateMerkleRoot_eq_getD]
    exact hroot _
  · exact hprevAnchor
  · intro time htime
    show r.time.getD now = time
    rw [htime, Option.getD_some]
  · exact hlist

/-- **The signature that a request asks for**: none, or that of the identity under the given secret. -/
def Signs (r : BuildRequest) (b : Block) : Prop :=
  match r.signKey with
  | none => b.signatures = none
  | some secret => ∃ key signature, KeyPair.ofHex secret = .ok key ∧
      key.sign b.hash.octets = .ok signature ∧ b.signatures = some signature

/-- A signature that was asked for has a length that can be written. -/
theorem Signs.storable (h : r.Signs b) : b.Storable := by
  intro signature hsome
  unfold Signs at h
  split at h
  · rw [h] at hsome
    cases hsome
  · obtain ⟨key, made, -, hmade, hsigned⟩ := h
    rw [hsigned] at hsome
    cases hsome
    exact Nat.lt_of_le_of_lt (KeyPair.length_le_of_sign hmade) (by decide)

/-- The signature that signing makes is valid if the one of the block is, for it is the same. -/
theorem Signs.valid (h : r.Signs b) {secret : String} (hsome : r.signKey = some secret) {key : KeyPair}
    (hkey : KeyPair.ofHex secret = .ok key) (hmatches : b.signatureMatches key.publicOctets = true)
    {signature : Octets} (hmade : key.sign b.hash.octets = .ok signature) :
    Signature.verifies b.hash.octets signature key.publicOctets = true := by
  unfold Signs at h
  rw [hsome] at h
  obtain ⟨key', signature', hkey', hmade', hsigned⟩ := h
  cases hkey.symm.trans hkey'
  cases hmade.symm.trans hmade'
  unfold Block.signatureMatches at hmatches
  rwa [hsigned] at hmatches

/-- **The block of a request is as the request asks**, and keeps nothing that speaks against it. -/
theorem of_block_eq_ok (h : r.block now = .ok b) :
    b.Coherent ∧ r.Describes b.header (b.transactions.getD []) ∧ r.Signs b := by
  unfold block at h
  obtain ⟨d, hdraft, h⟩ := bind_eq_ok_iff.1 h
  have hfresh : (d.build now).Coherent := Block.coherent_of_fresh rfl rfl
  have hdescribes := describes_build hdraft now
  unfold Signs
  cases hkey : r.signKey with
  | none =>
    rw [hkey] at h
    cases h
    obtain ⟨planKey, prevBlock, root?, prevAnchor, transactions, rfl, -⟩ := exists_of_draft_eq_ok hdraft
    exact ⟨hfresh, hdescribes, rfl⟩
  | some secret =>
    rw [hkey] at h
    obtain ⟨key, hsecret, h⟩ := bind_eq_ok_iff.1 h
    obtain ⟨signature, hmade, hcoherent, hcontents, hhash⟩ :=
      hfresh.of_sign_eq_ok (mapError_eq_ok_iff.1 h)
    have hheader : b.header = (d.build now).header := congrArg Block.Contents.header hcontents
    have hlist : b.transactions = (d.build now).transactions :=
      congrArg Block.Contents.transactions hcontents
    refine ⟨hcoherent, ?_, key, signature, mapError_eq_ok_iff.1 hsecret, ?_,
      congrArg Block.Contents.signatures hcontents⟩
    · rw [hheader, hlist]
      exact hdescribes
    · rw [hhash]
      exact hmade

end BuildRequest

end AnchoredLedger.Command
