import AnchoredLedger.Proofs.Block.Parse
import AnchoredLedger.Proofs.Block.Reachable

/-! # What a block keeps is never stale

A block keeps the octets it was read from, its root and its identity, and each edit gives up a part
of them. Whatever is left describes the block as it is.

* **`Block.Coherent`** — what is kept agrees with the fields.
* **`coherent_of_nothing`**, **`Coherent.of_dropHeader`**, **`of_dropBody`**, **`of_remember`** — what
  an edit may do to what is kept; every edit does one of the four, which gives `Coherent.apply`.
* **`exists_consult_eq`**, **`sign_cases`** — all that questions and signing can do to a block.
* **`Coherent.headerOctets_eq`**, **`Coherent.hash_eq`** — header octets and identity, kept or not.
* **`Block.kept_describes_block`** — all of it for reachable blocks. -/

namespace AnchoredLedger

/-! ## The parts of what is kept -/

namespace Retained

variable {r : Retained} {octets : Octets}

/-- Without the header the octets are kept for the body. -/
theorem octets?_dropHeader_eq_some :
    r.dropHeader.octets? = some octets ↔ r.bodyHolds = true ∧ r.octets? = some octets := by
  unfold dropHeader
  cases r.bodyHolds <;> simp

/-- Without the body the octets are kept for the header. -/
theorem octets?_dropBody_eq_some :
    r.dropBody.octets? = some octets ↔ r.headerHolds = true ∧ r.octets? = some octets := by
  unfold dropBody
  cases r.headerHolds <;> simp

/-- Without both nothing is kept. -/
@[simp] theorem dropHeader_dropBody (r : Retained) : r.dropBody.dropHeader = nothing := by
  simp [dropBody, dropHeader, nothing]

/-- All is kept only while both parts hold. -/
theorem whole?_eq_some : r.whole? = some octets ↔
    (r.headerHolds = true ∧ r.bodyHolds = true) ∧ r.octets? = some octets := by
  unfold whole?
  cases r.headerHolds <;> cases r.bodyHolds <;> simp

theorem header?_eq_some (hkept : r.octets? = some octets) (hlong : Header.size ≤ octets.length)
    (hholds : r.headerHolds = true) : r.header? = some (octets.take Header.size) := by
  simp [header?, hkept, hholds, (Octets.holds_iff _ _).2 hlong]

theorem header?_eq_none (hholds : r.headerHolds = false) : r.header? = none := by
  unfold header?
  split <;> simp [hholds]

theorem headerHolds_of_header? (h : r.header?.isSome = true) : r.headerHolds = true := by
  cases hholds : r.headerHolds with
  | true => rfl
  | false => simp [header?_eq_none hholds] at h

theorem body?_eq_some (hkept : r.octets? = some octets) (hlong : Header.size ≤ octets.length)
    (hholds : r.bodyHolds = true) : r.body? = some (octets.drop Header.size) := by
  simp [body?, hkept, hholds, (Octets.holds_iff _ _).2 hlong]

theorem body?_eq_none (hholds : r.bodyHolds = false) : r.body? = none := by
  unfold body?
  split <;> simp [hholds]

/-- The body is kept or not whatever happens to the header. -/
@[simp] theorem body?_dropHeader (r : Retained) : r.dropHeader.body? = r.body? := by
  cases hholds : r.bodyHolds with
  | false =>
    have hdropped : r.dropHeader.bodyHolds = false := hholds
    rw [body?_eq_none hholds, body?_eq_none hdropped]
  | true => simp [dropHeader, body?, hholds]

end Retained

namespace Block

variable {b c : Block}

/-! ## The invariant -/

/-- **What is kept agrees with the fields.** -/
structure Coherent (b : Block) : Prop where
  /-- Octets are kept exactly as long as the header or the body of them still holds. -/
  kept : b.retained.octets?.isSome = true ↔
    b.retained.headerHolds = true ∨ b.retained.bodyHolds = true
  /-- Octets that are kept are at least a header. -/
  long : ∀ octets, b.retained.octets? = some octets → Header.size ≤ octets.length
  /-- As long as the header holds, it is the header as it would be written. -/
  header : ∀ octets, b.retained.octets? = some octets → b.retained.headerHolds = true →
    octets.take Header.size = b.header.encode
  /-- As long as the body holds, it is a form of the list and the signature. -/
  body : ∀ octets, b.retained.octets? = some octets → b.retained.bodyHolds = true →
    BodyForm b.transactions b.signatures (octets.drop Header.size)
  /-- An identity that is remembered is that of the header. -/
  identity : ∀ h, b.identity? = some h → h = b.header.hash
  /-- While the header octets or the identity are kept, so is the root that they depend on. -/
  rooted : b.retained.headerHolds = true ∨ b.identity?.isSome = true → b.root?.isSome = true

/-- As long as the header holds there are octets for it. -/
theorem Coherent.exists_of_headerHolds (h : b.Coherent) (hholds : b.retained.headerHolds = true) :
    ∃ octets, b.retained.octets? = some octets :=
  Option.isSome_iff_exists.1 (h.kept.2 (.inl hholds))

/-- As long as the body holds there are octets for it. -/
theorem Coherent.exists_of_bodyHolds (h : b.Coherent) (hholds : b.retained.bodyHolds = true) :
    ∃ octets, b.retained.octets? = some octets :=
  Option.isSome_iff_exists.1 (h.kept.2 (.inr hholds))

/-- The header octets are the header, kept or written. -/
theorem Coherent.headerOctets_eq (h : b.Coherent) : b.headerOctets = b.header.encode := by
  unfold headerOctets
  cases hholds : b.retained.headerHolds with
  | false => rw [Retained.header?_eq_none hholds, Option.getD_none]
  | true =>
    obtain ⟨octets, hkept⟩ := h.exists_of_headerHolds hholds
    rw [Retained.header?_eq_some hkept (h.long octets hkept) hholds, Option.getD_some,
      h.header octets hkept hholds]

/-- The identity is that of the header, remembered or worked out. -/
theorem Coherent.hash_eq (h : b.Coherent) : b.hash = b.header.hash := by
  unfold hash
  cases hid : b.identity? with
  | none => rw [Option.getD_none, h.headerOctets_eq, Header.hash]
  | some identity => rw [Option.getD_some, h.identity identity hid]

theorem transactionCount_eq_length_getD (b : Block) :
    b.transactionCount = (b.transactions.getD []).length := by
  unfold transactionCount
  cases b.transactions <;> rfl

theorem transactionCount_eq_length {hashes : List Hash} (h : b.transactions = some hashes) :
    b.transactionCount = hashes.length := by
  rw [transactionCount_eq_length_getD, h, Option.getD_some]

/-- The octets kept for the body read as the list and the signature, with nothing left over. The
header before them may be an old one, unless it still holds. -/
theorem Coherent.read_kept (h : b.Coherent) {octets : Octets}
    (hkept : b.retained.octets? = some octets) (hbody : b.retained.bodyHolds = true) {limit : Nat}
    (hfits : Header.size + 32 * b.transactionCount ≤ limit) :
    ∃ header, Sections.read limit (.start octets) =
        .ok ⟨header, b.transactions, b.signatures⟩ ⟨octets.length, []⟩ ∧
      (b.retained.headerHolds = true → header = b.header) := by
  have hlen : (octets.take Header.size).length = Header.size :=
    List.length_take_of_le (h.long octets hkept)
  obtain ⟨header, hform⟩ := Header.exists_form hlen
  have hread : Sections.Form limit ⟨header, b.transactions, b.signatures⟩ octets [] := by
    refine ⟨hform, h.body octets hkept hbody, fun hashes hlist => ?_, fun _ => rfl⟩
    rw [← transactionCount_eq_length hlist]
    exact hfits
  have hpass : (Cursor.start octets).Passes octets ⟨octets.length, []⟩ := by
    simp [Cursor.Passes, Cursor.start]
  refine ⟨header, Sections.read_iff.2 ⟨octets, hread, hpass⟩, fun hheader => ?_⟩
  exact Header.encode_inj (hform.eq_encode.symm.trans (h.header octets hkept hheader))

/-! ## What edits do to what is kept -/

/-- A block without octets is coherent if it remembers no other identity than its own. -/
theorem coherent_of_nothing (hretained : b.retained = .nothing)
    (hidentity : ∀ h, b.identity? = some h → h = b.header.hash)
    (hrooted : b.identity?.isSome = true → b.root?.isSome = true) : b.Coherent where
  kept := by simp [hretained, Retained.nothing]
  long := by simp [hretained, Retained.nothing]
  header := by simp [hretained, Retained.nothing]
  body := by simp [hretained, Retained.nothing]
  identity := hidentity
  rooted := by simpa [hretained, Retained.nothing] using hrooted

/-- A block that keeps and remembers nothing is coherent. -/
theorem coherent_of_fresh (hretained : b.retained = .nothing) (hidentity : b.identity? = none) :
    b.Coherent :=
  coherent_of_nothing hretained (by simp [hidentity]) (by simp [hidentity])

/-- The header may change once its octets and the identity are given up. -/
theorem Coherent.of_dropHeader (h : b.Coherent) (hretained : c.retained = b.retained.dropHeader)
    (hidentity : c.identity? = none) (htransactions : c.transactions = b.transactions)
    (hsignatures : c.signatures = b.signatures) : c.Coherent where
  kept := by
    -- of the two reasons to keep octets only the body is left
    rw [hretained, Option.isSome_iff_exists]
    simp only [Retained.octets?_dropHeader_eq_some]
    constructor
    · rintro ⟨octets, hbody, -⟩
      exact .inr hbody
    · rintro (hheader | hbody)
      · cases hheader
      · obtain ⟨octets, hkept⟩ := h.exists_of_bodyHolds hbody
        exact ⟨octets, hbody, hkept⟩
  long := by
    intro octets hkept
    rw [hretained, Retained.octets?_dropHeader_eq_some] at hkept
    exact h.long octets hkept.2
  header := by
    intro octets _ hheader
    rw [hretained] at hheader
    cases hheader
  body := by
    intro octets hkept _
    rw [hretained, Retained.octets?_dropHeader_eq_some] at hkept
    rw [htransactions, hsignatures]
    exact h.body octets hkept.2 hkept.1
  identity := by simp [hidentity]
  rooted := by simp [hretained, hidentity, Retained.dropHeader]

/-- List and signature may change once their octets are given up, as long as the header stays. -/
theorem Coherent.of_dropBody (h : b.Coherent) (hretained : c.retained = b.retained.dropBody)
    (hheader : c.header = b.header) (hidentity : c.identity? = b.identity?)
    (hroot : c.root? = b.root?) : c.Coherent where
  kept := by
    -- of the two reasons to keep octets only the header is left
    rw [hretained, Option.isSome_iff_exists]
    simp only [Retained.octets?_dropBody_eq_some]
    constructor
    · rintro ⟨octets, hheader, -⟩
      exact .inl hheader
    · rintro (hheader | hbody)
      · obtain ⟨octets, hkept⟩ := h.exists_of_headerHolds hheader
        exact ⟨octets, hheader, hkept⟩
      · cases hbody
  long := by
    intro octets hkept
    rw [hretained, Retained.octets?_dropBody_eq_some] at hkept
    exact h.long octets hkept.2
  header := by
    intro octets hkept _
    rw [hretained, Retained.octets?_dropBody_eq_some] at hkept
    rw [hheader]
    exact h.header octets hkept.2 hkept.1
  body := by
    intro octets _ hbody
    rw [hretained] at hbody
    cases hbody
  identity := by
    rw [hidentity, hheader]
    exact h.identity
  rooted := by
    rw [hretained, hidentity, hroot]
    exact h.rooted

/-- Root and identity may be remembered, as long as they are those of the fields. -/
theorem Coherent.of_remember (h : b.Coherent) (hretained : c.retained = b.retained)
    (hheader : c.header = b.header) (htransactions : c.transactions = b.transactions)
    (hsignatures : c.signatures = b.signatures)
    (hidentity : ∀ identity, c.identity? = some identity → identity = b.header.hash)
    (hrooted : b.retained.headerHolds = true ∨ c.identity?.isSome = true → c.root?.isSome = true) :
    c.Coherent where
  kept := by
    rw [hretained]
    exact h.kept
  long := by
    rw [hretained]
    exact h.long
  header := by
    rw [hretained, hheader]
    exact h.header
  body := by
    rw [hretained, htransactions, hsignatures]
    exact h.body
  identity := by
    rw [hheader]
    exact hidentity
  rooted := by
    rw [hretained]
    exact hrooted

/-! ## Questions -/

theorem Coherent.rememberRoot (h : b.Coherent) : b.rememberRoot.Coherent :=
  h.of_remember rfl rfl rfl rfl h.identity fun _ => rfl

theorem Coherent.rememberHeader (h : b.Coherent) : b.rememberHeader.Coherent := by
  unfold Block.rememberHeader
  split
  · exact h
  · exact h.rememberRoot

/-- A question about the header leaves a root behind: the header octets are kept with one. -/
theorem Coherent.isSome_root?_rememberHeader (h : b.Coherent) :
    b.rememberHeader.root?.isSome = true := by
  unfold Block.rememberHeader
  split
  · rename_i hheader
    exact h.rooted (.inl (Retained.headerHolds_of_header? hheader))
  · rfl

theorem header_rememberHeader (b : Block) : b.rememberHeader.header = b.header := by
  unfold rememberHeader
  split <;> rfl

/-- What a question may change: the root in force and the identity may be remembered. -/
theorem exists_consult_eq (b : Block) (q : Query) : ∃ root? identity?,
    b.consult q = { b with root?, identity? } ∧ (root? = b.root? ∨ root? = some b.merkleRoot) ∧
      (identity? = b.identity? ∨ identity? = some b.hash) := by
  have hheader : ∃ root?, b.rememberHeader = { b with root? } ∧
      (root? = b.root? ∨ root? = some b.merkleRoot) := by
    unfold rememberHeader
    split
    · exact ⟨_, rfl, .inl rfl⟩
    · exact ⟨_, rfl, .inr rfl⟩
  obtain ⟨root?, hremember, hroot⟩ := hheader
  cases q with
  | hash =>
    simp only [consult]
    split
    · exact ⟨_, _, rfl, .inl rfl, .inl rfl⟩
    · rw [hremember]
      exact ⟨_, _, rfl, hroot, .inr rfl⟩
  | merkleRoot => exact ⟨_, _, rfl, .inr rfl, .inl rfl⟩
  | header => exact ⟨_, _, rfl, .inr rfl, .inl rfl⟩
  | headerOctets => exact ⟨_, _, hremember, hroot, .inl rfl⟩
  | encode =>
    simp only [consult]
    split
    · exact ⟨_, _, rfl, .inl rfl, .inl rfl⟩
    · exact ⟨_, _, hremember, hroot, .inl rfl⟩

theorem Coherent.consult (h : b.Coherent) (q : Query) : (b.consult q).Coherent := by
  cases q with
  | hash =>
    simp only [Block.consult]
    split
    · exact h
    · -- the identity comes from the header octets, so a root is there before it is remembered
      refine h.rememberHeader.of_remember rfl rfl rfl rfl ?_ fun _ => h.isSome_root?_rememberHeader
      rintro identity hidentity
      cases hidentity
      rw [header_rememberHeader, h.hash_eq]
  | merkleRoot => exact h.rememberRoot
  | header => exact h.rememberRoot
  | headerOctets => exact h.rememberHeader
  | encode =>
    simp only [Block.consult]
    split
    · exact h
    · exact h.rememberHeader

/-! ## Edits and runs -/

/-- What is kept of a block that was read is what it was read from. -/
theorem coherent_ofSections {limit : Nat} {s : Sections} {used rest : Octets} {retain : Bool}
    (hform : s.Form limit used rest) : (ofSections s used retain).Coherent := by
  have hheader : used.take Header.size = s.header.encode := hform.header.eq_encode
  have hlong : Header.size ≤ used.length := by
    have hlen := hform.header.length
    rw [List.length_take] at hlen
    omega
  have hidentity : ∀ h, (ofSections s used retain).identity? = some h → h = s.header.hash := by
    rintro h hh
    cases hh
    rw [hheader, Header.hash]
  cases retain with
  | false => exact coherent_of_nothing rfl hidentity fun _ => rfl
  | true =>
    constructor
    · simp [ofSections, Retained.all]
    · rintro octets hkept
      cases hkept
      exact hlong
    · rintro octets hkept -
      cases hkept
      exact hheader
    · rintro octets hkept -
      cases hkept
      exact hform.body
    · exact hidentity
    · exact fun _ => rfl

theorem coherent_of_parse {network : Network} {retain : Bool} {buffer : Octets} {offset : Nat}
    (h : parse network retain buffer offset = .ok b) : b.Coherent := by
  obtain ⟨-, s, used, rest, -, hform, rfl⟩ := parse_eq_ok_iff.1 h
  exact coherent_ofSections hform

theorem Constructed.coherent (h : Constructed b) : b.Coherent := by
  cases h with
  | new => exact coherent_of_fresh rfl rfl
  | withVersion => exact coherent_of_fresh rfl rfl
  | drafted => exact coherent_of_fresh rfl rfl
  | parsed h => exact coherent_of_parse h

theorem Coherent.setSignatures (h : b.Coherent) (signatures : Option Octets) :
    (b.setSignatures signatures).Coherent :=
  h.of_dropBody rfl rfl rfl rfl

/-- **What signing does**: it fails as the key pair does, or asks for the identity and sets the
signature. -/
theorem sign_cases (b : Block) (key : KeyPair) :
    (∃ e, key.sign b.hash.octets = .error e ∧ b.sign key = .error e) ∨
      ∃ signature, key.sign b.hash.octets = .ok signature ∧
        b.sign key = .ok ((b.consult .hash).setSignatures (some signature)) := by
  unfold sign
  -- Nothing below looks at how a signature is made.
  generalize key.sign b.hash.octets = result
  cases result with
  | error e => exact .inl ⟨e, rfl, rfl⟩
  | ok signature => exact .inr ⟨signature, rfl, rfl⟩

theorem Coherent.sign (h : b.Coherent) (key : KeyPair) :
    ((b.sign key).toOption.getD b).Coherent := by
  rcases b.sign_cases key with ⟨e, -, hsign⟩ | ⟨signature, -, hsign⟩
  · rw [hsign]
    exact h
  · rw [hsign]
    exact (h.consult .hash).setSignatures _

theorem Coherent.reparse (h : b.Coherent) (network : Network) (retain : Bool) :
    ((parse network retain b.encode 0).toOption.getD b).Coherent := by
  cases hparse : parse network retain b.encode 0 with
  | error e => exact h
  | ok c => exact coherent_of_parse hparse

theorem Coherent.cloneAsHeader (h : b.Coherent) : b.cloneAsHeader.Coherent := by
  refine coherent_of_nothing rfl ?_ fun _ => rfl
  rintro identity hidentity
  cases hidentity
  -- the copy has the root in force as a given one, so its header is the same
  have hheader : b.cloneAsHeader.header = b.header := rfl
  rw [h.hash_eq, hheader]

/-- **Every edit keeps a block coherent.** -/
theorem Coherent.apply (h : b.Coherent) (e : Edit) : (b.apply e).Coherent := by
  cases e with
  | setVersion v => exact h.of_dropHeader rfl rfl rfl rfl
  | setTime t => exact h.of_dropHeader rfl rfl rfl rfl
  | setPlanKey k => exact h.of_dropHeader rfl rfl rfl rfl
  | setPrevBlock p => exact h.of_dropHeader rfl rfl rfl rfl
  | setPrevAnchor p => exact h.of_dropHeader rfl rfl rfl rfl
  | setMerkleRoot root => exact h.of_dropHeader rfl rfl rfl rfl
  | addTransactionHash t => exact coherent_of_fresh b.retained.dropHeader_dropBody rfl
  | addTransaction t => exact coherent_of_fresh b.retained.dropHeader_dropBody rfl
  | setTransactions hashes => exact coherent_of_fresh b.retained.dropHeader_dropBody rfl
  | setSignatures signatures => exact h.setSignatures signatures
  | setAnchor anchor => exact h.of_remember rfl rfl rfl rfl h.identity h.rooted
  | sign key => exact h.sign key
  | clone => exact h
  | cloneAsHeader => exact h.cloneAsHeader
  | consult q => exact h.consult q
  | reparse network retain => exact h.reparse network retain

/-- **So does every run.** -/
theorem Coherent.run (h : b.Coherent) (edits : List Edit) : (b.run edits).Coherent := by
  induction edits generalizing b with
  | nil => exact h
  | cons e es ih => exact ih (h.apply e)

/-- **Every reachable block is coherent.** -/
theorem Reachable.coherent (h : b.Reachable) : b.Coherent := by
  induction h with
  | constructed h => exact h.coherent
  | edited _ e ih => exact ih.apply e

/-- **What a reachable block keeps describes the block as it is.** Kept octets, remembered identity and
remembered root agree with the fields; so header octets and identity are those of the header, and
octets kept for the body read as the list and the signature that the block has. -/
theorem kept_describes_block (b : Block) (h : b.Reachable) :
    b.Coherent ∧ b.headerOctets = b.header.encode ∧ b.hash = b.header.hash ∧
    ∀ octets, b.retained.octets? = some octets → b.retained.bodyHolds = true →
      ∀ limit, Header.size + 32 * b.transactionCount ≤ limit →
        ∃ header, Sections.read limit (.start octets) =
            .ok ⟨header, b.transactions, b.signatures⟩ ⟨octets.length, []⟩ ∧
          (b.retained.headerHolds = true → header = b.header) := by
  have hcoherent := h.coherent
  refine ⟨hcoherent, hcoherent.headerOctets_eq, hcoherent.hash_eq, ?_⟩
  intro octets hkept hbody limit hfits
  exact hcoherent.read_kept hkept hbody hfits

/-- A block that was read and then set to another time: the body is kept, the header is not. -/
theorem kept_describes_block_set_to_another_time :
    let b := (withVersion 1 0).run
      [.setTransactions (some []), .reparse .main true, .setTime 7, .consult .hash]
    b.Reachable ∧ b.retained.bodyHolds = true ∧ b.retained.headerHolds = false ∧
      b.Coherent ∧ b.hash = b.header.hash := by
  intro b
  have hreachable : b.Reachable := (Reachable.constructed (.withVersion 1 0)).run _
  obtain ⟨hcoherent, -, hhash, -⟩ := kept_describes_block b hreachable
  exact ⟨hreachable, by decide +kernel, by decide +kernel, hcoherent, hhash⟩

end Block

end AnchoredLedger
