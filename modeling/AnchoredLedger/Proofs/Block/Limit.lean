import AnchoredLedger.Proofs.Block.Size
import AnchoredLedger.Proofs.Block.Truncation

/-! # What the limit bounds

The limit of a network is held against header and hashes, once their count is known. The compact sizes
and the signature are not counted, and a bare header is not held against it at all. So the limit bounds
the list of a block, and not the block.

* **`BodyForm.length_bounds`** — list and signature take one to nine octets more than they hold.
* **`Block.netSize`**, **`Block.sectionCount`** — what a block holds, and in how many sections;
  `messageSize_bounds` says what these two tell of its length.
* **`Sections.WithinLimit`** — header and hashes are within the limit; `parse_of_form` says that octets
  which are the form of a block are accepted exactly if this holds, and else refused as too large.
* **`Block.limit_bounds_list`** — all of it together.
* **`Block.exists_parse_of_size`** — no limit bounds the length of a block. -/

namespace AnchoredLedger

/-! ## The room that compact sizes take -/

namespace CompactSize

/-- Every form takes at most nine octets. -/
theorem Form.length_le {n : Nat} {form : Octets} (h : Form n form) : form.length ≤ 9 := by
  cases h with
  | octet => exact (by decide : 1 ≤ 9)
  | marked16 h => exact Nat.le_trans (Nat.le_of_eq (congrArg Nat.succ h)) (by decide)
  | marked32 h => exact Nat.le_trans (Nat.le_of_eq (congrArg Nat.succ h)) (by decide)
  | marked64 h => exact Nat.le_of_eq (congrArg Nat.succ h)

/-- A number in front of items takes one to nine octets more than these. -/
theorem Counted.length_bounds {α : Type} {K : Nat → Grammar α} {a : α} {form : Octets} {size : Nat}
    (h : Counted K a form) (hitems : ∀ n items, K n a items → items.length = size) :
    size + 1 ≤ form.length ∧ form.length ≤ size + 9 := by
  obtain ⟨n, count, items, hcount, hcounted, rfl⟩ := h
  have hsize := hitems n items hcounted
  have hpos := List.length_pos_iff.2 hcount.ne_nil
  have hle := hcount.length_le
  rw [List.length_append]
  omega

end CompactSize

namespace Block

/-- A list takes one to nine octets more than its hashes. -/
theorem ListForm.length_bounds {hashes : List Hash} {form : Octets} (h : ListForm hashes form) :
    32 * hashes.length + 1 ≤ form.length ∧ form.length ≤ 32 * hashes.length + 9 :=
  CompactSize.Counted.length_bounds h fun _ _ hitems => hitems.2.length

/-- A signature takes one to nine octets more than it has. -/
theorem SignatureForm.length_bounds {signature form : Octets} (h : SignatureForm signature form) :
    signature.length + 1 ≤ form.length ∧ form.length ≤ signature.length + 9 :=
  CompactSize.Counted.length_bounds h fun _ _ hitems => by rw [hitems.2, List.length_reverse]

/-- **List and signature take one to nine octets more than they hold**, each. -/
theorem BodyForm.length_bounds {transactions : Option (List Hash)} {signatures : Option Octets}
    {body : Octets} (h : BodyForm transactions signatures body) :
    let net := 32 * (transactions.getD []).length + (signatures.getD []).length
    let sections := transactions.toList.length + signatures.toList.length
    net + sections ≤ body.length ∧ body.length ≤ net + 9 * sections := by
  cases h with
  | absent => exact ⟨Nat.le_refl _, Nat.le_refl _⟩
  | listed hlist => exact hlist.length_bounds
  | signed hlist hsig =>
    have hlist := hlist.length_bounds
    have hsig := hsig.length_bounds
    simp only [Option.getD_some, Option.toList_some, List.length_singleton, List.length_append]
    omega

/-! ## The length of a block -/

/-- **What a block holds**, in octets: header, hashes and signature, without their compact sizes. -/
def netSize (b : Block) : Nat :=
  Header.size + 32 * b.transactionCount + (b.signatures.getD []).length

/-- **How many sections a block has** behind its header. -/
def sectionCount (b : Block) : Nat := b.transactions.toList.length + b.signatures.toList.length

variable {b : Block}

/-- A form has a list in front of every signature. -/
theorem BodyForm.isSome_of_signed {transactions : Option (List Hash)} {signatures : Option Octets}
    {body : Octets} (h : BodyForm transactions signatures body) (hsigned : signatures.isSome = true) :
    transactions.isSome = true := by
  cases h with
  | signed => rfl
  | absent | listed => cases hsigned

/-- **The length of a block** whose signature has a list in front of it: one to nine octets for each
section are added to what it holds. -/
theorem Coherent.messageSize_bounds (h : b.Coherent) (hsized : b.Sized)
    (hlisted : writtenTransactions b.transactions b.signatures = b.transactions) :
    b.netSize + b.sectionCount ≤ b.messageSize ∧ b.messageSize ≤ b.netSize + 9 * b.sectionCount := by
  have hbody := (h.bodyForm_bodyOctets hsized).length_bounds
  have htransactions : b.written.transactions = b.transactions := hlisted
  have hsignatures : b.written.signatures = b.signatures := rfl
  rw [htransactions, hsignatures, ← transactionCount_eq_length_getD] at hbody
  rw [h.messageSize_eq, h.encode_eq, List.length_append, b.header.length_encode]
  unfold netSize sectionCount
  omega

end Block

/-! ## The limit -/

/-- **Header and hashes are within the limit**, if there is a list. -/
def Sections.WithinLimit (limit : Nat) (s : Sections) : Prop :=
  ∀ hashes, s.transactions = some hashes → Header.size + 32 * hashes.length ≤ limit

/-- What has a form under some limit has it under every limit that its list is within. -/
theorem Sections.Form.of_withinLimit {limit limit' : Nat} {s : Sections} {used rest : Octets}
    (h : s.Form limit used rest) (hwithin : s.WithinLimit limit') : s.Form limit' used rest where
  header := h.header
  body := h.body
  fits := hwithin
  last := h.last

/-- Where all octets are within the limit, header and hashes are. -/
theorem Sections.Form.withinLimit_of_length_le {limit limit' : Nat} {s : Sections} {used rest : Octets}
    (h : s.Form limit' used rest) (hle : used.length ≤ limit) : s.WithinLimit limit := by
  intro hashes hlist
  have hfront := h.header.length
  obtain ⟨hbody, -⟩ := h.body.length_bounds
  rw [hlist, Option.getD_some, List.length_drop] at hbody
  rw [List.length_take] at hfront
  omega

/-- A list that is not within the limit makes its octets exceed it. -/
theorem Sections.Form.overlong {limit limit' : Nat} {s : Sections} {used rest : Octets}
    {hashes : List Hash} (h : s.Form limit' used rest) (hlist : s.transactions = some hashes)
    (hexceeds : limit < Header.size + 32 * hashes.length) :
    Block.Overlong limit (Header.size + 32 * hashes.length) (used ++ rest) := by
  have hbody := h.body
  rw [hlist] at hbody
  obtain ⟨list, signature, hused, ⟨_, count, items, hcount, ⟨rfl, hlisted⟩, rfl⟩, -⟩ :=
    hbody.exists_layout
  refine ⟨hexceeds, used.take Header.size, count, items, signature ++ rest, _, ?_, h.header.length,
    hcount, hlisted.length, rfl⟩
  calc used ++ rest
      = used.take Header.size ++ used.drop Header.size ++ rest := by rw [List.take_append_drop]
    _ = _ := by simp only [hused, List.append_assoc]

namespace Block

variable {network : Network} {buffer used rest : Octets} {offset : Nat} {s : Sections}

/-- **The form of a block is accepted or too large**: which of the two, header and hashes decide. -/
theorem parse_cases_of_form (network : Network) (retain : Bool) {limit : Nat}
    (hlen : buffer.length < 2 ^ 63) (hle : offset ≤ buffer.length)
    (hrest : buffer.drop offset = used ++ rest) (hform : s.Form limit used rest) :
    (s.WithinLimit network.maxBlockSize.toNat ∧
      parse network retain buffer offset = .ok (ofSections s used retain)) ∨
    ∃ hashes, s.transactions = some hashes ∧
      network.maxBlockSize.toNat < Header.size + 32 * hashes.length ∧
      parse network retain buffer offset = .error
        (.blockTooLarge (Header.size + 32 * hashes.length) network.maxBlockSize.toNat) := by
  by_cases hwithin : s.WithinLimit network.maxBlockSize.toNat
  · exact .inl ⟨hwithin, parse_eq_ok_iff.2 ⟨hle, s, used, rest, hrest, hform.of_withinLimit hwithin, rfl⟩⟩
  · obtain ⟨hashes, hlist, hexceeds⟩ : ∃ hashes, s.transactions = some hashes ∧
        network.maxBlockSize.toNat < Header.size + 32 * hashes.length := by
      simpa only [Sections.WithinLimit, not_forall, Nat.not_le, exists_prop] using hwithin
    refine .inr ⟨hashes, hlist, hexceeds, (parse_eq_tooLarge_iff hlen).2 ⟨rfl, hle, ?_⟩⟩
    rw [hrest]
    exact hform.overlong hlist hexceeds

/-- **Acceptance tells whether the form of a block is within the limit** unless header and hashes are and the
whole is not. -/
theorem accepted_iff_length_le_iff (network : Network) (retain : Bool) {limit : Nat}
    (hlen : buffer.length < 2 ^ 63) (hle : offset ≤ buffer.length)
    (hrest : buffer.drop offset = used ++ rest) (hform : s.Form limit used rest) :
    ((∃ b, parse network retain buffer offset = .ok b) ↔ used.length ≤ network.maxBlockSize.toNat) ↔
      ¬ (s.WithinLimit network.maxBlockSize.toNat ∧ network.maxBlockSize.toNat < used.length) := by
  rcases parse_cases_of_form network retain hlen hle hrest hform with ⟨hwithin, hparse⟩ |
    ⟨hashes, hlist, hexceeds, hparse⟩
  · have haccepted : ∃ b, parse network retain buffer offset = .ok b := ⟨_, hparse⟩
    rw [iff_true_left haccepted, and_iff_right hwithin, Nat.not_lt]
  · have hbeyond : ¬ s.WithinLimit network.maxBlockSize.toNat := fun hwithin =>
      Nat.not_le.2 hexceeds (hwithin hashes hlist)
    have hlonger := mt hform.withinLimit_of_length_le hbeyond
    refine iff_of_true (iff_of_false ?_ hlonger) fun h => hbeyond h.1
    rintro ⟨b, haccepted⟩
    cases hparse.symm.trans haccepted

/-- Parsing takes the octets that have the form. -/
theorem consumed_of_form (hle : offset ≤ buffer.length) (hrest : buffer.drop offset = used ++ rest)
    (hform : s.Form network.maxBlockSize.toNat used rest) :
    consumed network buffer offset = .ok used.length := by
  have hread : Reader.parseAt (Sections.read network.maxBlockSize.toNat) buffer offset =
      .ok (s, used.length) := by
    refine Reader.parseAt_eq_ok_iff.2 ⟨hle, ⟨offset + used.length, rest⟩, ?_, ?_⟩
    · exact Sections.read_iff.2 ⟨used, hform, hrest, rfl⟩
    · exact (Nat.add_sub_cancel_left offset used.length).symm
  unfold consumed
  rw [hread]
  rfl

/-- What has a form has lengths that can be written. -/
theorem sized_ofSections {limit : Nat} (hform : s.Form limit used rest) (retain : Bool) :
    (ofSections s used retain).Sized := by
  obtain ⟨hlist, hsig⟩ := hform.body.lengths_lt
  have hstorable : (ofSections s used retain).Storable := hsig
  refine hstorable.sized ?_
  rw [transactionCount_eq_length_getD]
  show (s.transactions.getD []).length < 2 ^ 64
  cases htransactions : s.transactions with
  | none => exact (by decide : 0 < 2 ^ 64)
  | some hashes => exact hlist hashes htransactions

/-- **What the limit bounds.** Of a block that is accepted, header and hashes are within the limit if there
is a list, and there is one in front of every signature. The length of the block, and where octets are kept
the number of those that were taken, is that of header, hashes and signature with one to nine octets more
for each section. So of octets that are the form of a block under any limit, acceptance tells whether they
are within this one, unless header and hashes are and the whole is not. Where header and hashes are not,
the octets are refused as too large. -/
theorem limit_bounds_list (network : Network) (retain : Bool) (buffer : Octets) (offset : Nat)
    (hlen : buffer.length < 2 ^ 63) :
    (∀ b, parse network retain buffer offset = .ok b →
      (∀ hashes, b.transactions = some hashes →
        Header.size + 32 * hashes.length ≤ network.maxBlockSize.toNat) ∧
      (b.signatures.isSome = true → b.transactions.isSome = true) ∧
      b.netSize + b.sectionCount ≤ b.messageSize ∧
      b.messageSize ≤ b.netSize + 9 * b.sectionCount ∧
      (retain = true → consumed network buffer offset = .ok b.messageSize)) ∧
    ∀ (s : Sections) (used rest : Octets) (limit : Nat), offset ≤ buffer.length →
      buffer.drop offset = used ++ rest → s.Form limit used rest →
        (((∃ b, parse network retain buffer offset = .ok b) ↔
            used.length ≤ network.maxBlockSize.toNat) ↔
          ¬ (s.WithinLimit network.maxBlockSize.toNat ∧
            network.maxBlockSize.toNat < used.length)) ∧
        ((s.WithinLimit network.maxBlockSize.toNat ∧
            parse network retain buffer offset = .ok (ofSections s used retain)) ∨
          ∃ hashes, s.transactions = some hashes ∧
            network.maxBlockSize.toNat < Header.size + 32 * hashes.length ∧
            parse network retain buffer offset = .error
              (.blockTooLarge (Header.size + 32 * hashes.length) network.maxBlockSize.toNat)) := by
  refine ⟨fun b hparse => ?_, fun s used rest limit hle hrest hform =>
    ⟨accepted_iff_length_le_iff network retain hlen hle hrest hform,
      parse_cases_of_form network retain hlen hle hrest hform⟩⟩
  obtain ⟨hle, s, used, rest, hrest, hform, rfl⟩ := parse_eq_ok_iff.1 hparse
  have hcoherent := coherent_of_parse hparse
  obtain ⟨hlow, hhigh⟩ := hcoherent.messageSize_bounds (sized_ofSections hform retain)
    hform.body.writtenTransactions_eq
  refine ⟨hform.fits, hform.body.isSome_of_signed, hlow, hhigh, ?_⟩
  rintro rfl
  rw [hcoherent.messageSize_eq]
  exact consumed_of_form hle hrest hform

/-- A block with one hash, whose count takes three octets, and a signature of one octet: five octets more
than it holds. -/
theorem limit_bounds_list_long_count :
    let buffer : Octets := List.replicate 137 0 ++ ([0xFD, 1, 0] ++ List.replicate 32 0 ++ ([1] ++ [7]))
    buffer.length < 2 ^ 63 ∧ ∃ b, parse .main true buffer 0 = .ok b ∧ b.netSize = 170 ∧
      b.sectionCount = 2 ∧ 172 ≤ b.messageSize ∧ b.messageSize ≤ 188 ∧
      consumed .main buffer 0 = .ok b.messageSize := by
  intro buffer
  have hlen : buffer.length < 2 ^ 63 := by decide +kernel
  have hevaluated : ((parse .main true buffer 0).toOption.any fun b =>
      b.netSize = 170 ∧ b.sectionCount = 2) = true := by decide +kernel
  obtain ⟨b, hparse, hcounts⟩ := exists_of_toOption_any hevaluated
  obtain ⟨hnet, hsections⟩ := of_decide_eq_true hcounts
  obtain ⟨-, -, hlow, hhigh, hconsumed⟩ := (limit_bounds_list .main true buffer 0 hlen).1 b hparse
  rw [hnet, hsections] at hlow hhigh
  exact ⟨hlen, b, hparse, hnet, hsections, hlow, hhigh, hconsumed rfl⟩

/-- **A block larger than the limit**: header and hash are the 169 octets that are allowed, and with the
compact sizes and the signature all 235 are taken. -/
theorem limit_exceeded_by_signature :
    let network : Network := { Network.main with maxBlockSize := 169 }
    let buffer : Octets := List.replicate 137 0 ++ ([1] ++ List.replicate 32 0 ++ (64 :: List.replicate 64 7))
    ∃ b, parse network true buffer 0 = .ok b ∧ b.messageSize = 235 ∧
      consumed network buffer 0 = .ok 235 ∧ ¬ b.messageSize ≤ network.maxBlockSize.toNat := by
  intro network buffer
  have hevaluated : ((parse network true buffer 0).toOption.any fun b => b.messageSize = 235) = true := by
    decide +kernel
  obtain ⟨b, hparse, hsize⟩ := exists_of_toOption_any hevaluated
  have hsize : b.messageSize = 235 := of_decide_eq_true hsize
  refine ⟨b, hparse, hsize, by decide +kernel, ?_⟩
  rw [hsize]
  decide

/-- **No limit bounds the length of a block**, unless it has no room for a header: of whatever length, there
is one that is accepted and is longer. -/
theorem exists_parse_of_size (hroom : Header.size ≤ network.maxBlockSize.toNat) (retain : Bool)
    {size : Nat} (hsize : size < 2 ^ 64) :
    ∃ buffer b, parse network retain buffer 0 = .ok b ∧ size < b.messageSize := by
  let signed := (withVersion 1 0).setSignatures (some (List.replicate size 0))
  have hcoherent : signed.Coherent := (coherent_of_fresh rfl rfl).setSignatures _
  have hsig : signed.Storable := by
    rintro signature hsome
    cases hsome
    rwa [List.length_replicate]
  have hparse := hcoherent.parse_encode_self hsig hroom retain
  let read := ofSections signed.written signed.encode retain
  have hsized : read.Sized := Storable.sized hsig (by decide : 0 < 2 ^ 64)
  have hnet : read.netSize = Header.size + size := congrArg (Header.size + ·) List.length_replicate
  have hlow : read.netSize + read.sectionCount ≤ read.messageSize :=
    ((coherent_of_parse hparse).messageSize_bounds hsized rfl).1
  refine ⟨_, read, hparse, ?_⟩
  unfold Header.size at hnet
  omega

end Block

end AnchoredLedger
