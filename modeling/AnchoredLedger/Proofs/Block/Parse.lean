import AnchoredLedger.Proofs.Block.Sections

/-! # What parsing accepts, and how it refuses the rest

Parsing a block decides its grammar: it accepts exactly the octets that have the form of a block, and
of the others it names those whose list is complete but exceeds the limit.

* **`Block.WireForm`** — the grammar in terms of octets alone; `wireForm_iff` ties it to the sections
  that the octets stand for.
* **`Block.Overlong`** — a complete list beyond the limit.
* **`Block.parse_eq_ok_iff`** — what is accepted; `parse_eq_tooLarge_iff` — what exceeds the limit.
* **`Block.parse_decides_grammar`** — all of it together. -/

namespace AnchoredLedger.Block

open Reader

/-! ## The grammar in terms of octets -/

/-- **The octets of a block**, with whatever may follow it: a header, a header and a list, or a
header, a list, a signature and anything at all. -/
inductive WireForm (limit : Nat) : Octets → Prop
  /-- A header that ends the octets. -/
  | header {header : Octets} (hheader : header.length = Header.size) : WireForm limit header
  /-- A header and a list that ends the octets. -/
  | listed {header count items : Octets} {n : Nat} (hheader : header.length = Header.size)
      (hcount : CompactSize.Form n count) (hitems : items.length = 32 * n)
      (hfits : Header.size + 32 * n ≤ limit) : WireForm limit (header ++ (count ++ items))
  /-- A header, a list and a signature, and what stands behind it. -/
  | signed {header count items length signature : Octets} {n m : Nat}
      (hheader : header.length = Header.size) (hcount : CompactSize.Form n count)
      (hitems : items.length = 32 * n) (hfits : Header.size + 32 * n ≤ limit)
      (hlength : CompactSize.Form m length) (hsignature : signature.length = m) (rest : Octets) :
      WireForm limit (header ++ (count ++ items ++ (length ++ signature)) ++ rest)

/-- **Header and list are complete but larger than the limit**, namely of the given size. -/
def Overlong (limit size : Nat) (octets : Octets) : Prop :=
  limit < size ∧ ∃ header count items rest n, octets = header ++ (count ++ (items ++ rest)) ∧
    header.length = Header.size ∧ CompactSize.Form n count ∧ items.length = 32 * n ∧
    size = Header.size + 32 * n

/-- Any octets of the right number, behind their count, are a list. -/
theorem exists_listForm {n : Nat} {count items : Octets} (hcount : CompactSize.Form n count)
    (hitems : items.length = 32 * n) :
    ∃ hashes, hashes.length = n ∧ ListForm hashes (count ++ items) := by
  obtain ⟨hashes, hlen, hlisted⟩ := Hash.exists_listed hitems
  exact ⟨hashes, hlen, n, count, items, hcount, ⟨hlen, hlisted⟩, rfl⟩

/-- The grammar of octets and that of the sections they stand for are the same. -/
theorem wireForm_iff {limit : Nat} {octets : Octets} :
    WireForm limit octets ↔
      ∃ (s : Sections) (used rest : Octets), octets = used ++ rest ∧ s.Form limit used rest := by
  constructor
  · rintro (hheader | ⟨hheader, hcount, hitems, hfits⟩ |
      ⟨hheader, hcount, hitems, hfits, hlength, hsignature, rest⟩)
    · obtain ⟨h, hform⟩ := Header.exists_form hheader
      refine ⟨⟨h, none, none⟩, _ ++ [], [], by simp, .of_parts hform .absent (by simp) fun _ => rfl⟩
    · obtain ⟨h, hform⟩ := Header.exists_form hheader
      obtain ⟨hashes, rfl, hlist⟩ := exists_listForm hcount hitems
      exact ⟨⟨h, some hashes, none⟩, _, [], (List.append_nil _).symm,
        .of_parts hform (.listed hlist) (by simpa using hfits) fun _ => rfl⟩
    · obtain ⟨h, hform⟩ := Header.exists_form hheader
      obtain ⟨hashes, rfl, hlist⟩ := exists_listForm hcount hitems
      have hsig : SignatureForm _ _ := ⟨_, _, _, hlength, ⟨hsignature, rfl⟩, rfl⟩
      exact ⟨⟨h, some hashes, some _⟩, _, rest, rfl,
        .of_parts hform (.signed hlist hsig) (by simpa using hfits) (by simp)⟩
  · rintro ⟨⟨h, transactions, signatures⟩, used, rest, rfl, hform, hbody, hfits, hlast⟩
    have hlen := hform.length
    rw [← List.take_append_drop Header.size used]
    dsimp only at hbody hfits hlast
    generalize used.drop Header.size = body at hbody
    cases hbody with
    | absent =>
      rw [hlast rfl, List.append_nil, List.append_nil]
      exact .header hlen
    | @listed hashes _ hlist =>
      obtain ⟨n, count, items, hcount, ⟨rfl, hlisted⟩, rfl⟩ := hlist
      rw [hlast rfl, List.append_nil]
      exact .listed hlen hcount hlisted.length (hfits hashes rfl)
    | @signed hashes _ _ _ hlist hsig =>
      obtain ⟨n, count, items, hcount, ⟨rfl, hlisted⟩, rfl⟩ := hlist
      obtain ⟨m, length, blob, hlength, ⟨hsignature, -⟩, rfl⟩ := hsig
      exact .signed hlen hcount hlisted.length (hfits hashes rfl) hlength hsignature rest

/-! ## Acceptance -/

variable {network : Network} {retain : Bool} {buffer : Octets} {offset : Nat}

/-- Parsing reads the sections and makes a block of them and the octets that they took. -/
theorem parse_eq_map : parse network retain buffer offset =
    (parseAt (Sections.read network.maxBlockSize.toNat) buffer offset).map fun result =>
      ofSections result.1 ((buffer.drop offset).take result.2) retain := by
  unfold parse parseWith
  rw [show Sections.readWith CompactSize.readLength = Sections.read from rfl]
  cases parseAt (Sections.read network.maxBlockSize.toNat) buffer offset <;> rfl

/-- **What is accepted**, and as which block. -/
theorem parse_eq_ok_iff {b : Block} :
    parse network retain buffer offset = .ok b ↔ offset ≤ buffer.length ∧
      ∃ (s : Sections) (used rest : Octets), buffer.drop offset = used ++ rest ∧
        s.Form network.maxBlockSize.toNat used rest ∧ b = ofSections s used retain := by
  have hmatch : parse network retain buffer offset = .ok b ↔ ∃ s used,
      parseAt (Sections.read network.maxBlockSize.toNat) buffer offset = .ok (s, used) ∧
        b = ofSections s ((buffer.drop offset).take used) retain := by
    rw [parse_eq_map]
    cases parseAt (Sections.read network.maxBlockSize.toNat) buffer offset with
    | error e => simp [Except.map]
    | ok result => simp [Except.map, Prod.ext_iff, and_assoc, eq_comm]
  rw [hmatch]
  simp only [parseAt_eq_ok_iff, Sections.read_iff]
  constructor
  · rintro ⟨s, n, ⟨hle, d, ⟨used, hform, hrest, hpos⟩, rfl⟩, rfl⟩
    refine ⟨hle, s, used, d.rest, hrest, hform, ?_⟩
    dsimp only at hrest hpos
    rw [hpos, hrest, Nat.add_sub_cancel_left, List.take_left]
  · rintro ⟨hle, s, used, rest, hrest, hform, rfl⟩
    refine ⟨s, used.length, ⟨hle, ⟨offset + used.length, rest⟩, ⟨used, hform, hrest, rfl⟩, ?_⟩, ?_⟩
    · rw [Nat.add_sub_cancel_left]
    · rw [hrest, List.take_left]

/-- What evaluation finds of a result says that there is one. -/
theorem exists_of_toOption_any {ε α : Type} {x : Except ε α} {P : α → Bool}
    (h : x.toOption.any P = true) : ∃ a, x = .ok a ∧ P a = true := by
  cases x with
  | error e => cases h
  | ok a => exact ⟨a, rfl, h⟩

/-! ## Refusals -/

theorem not_isTruncated_blockTooLarge {size max : Nat} :
    ¬ (WireError.blockTooLarge size max).IsTruncated := by
  rintro ⟨needed, remaining, h⟩
  cases h

/-- A list that is refused as too large has a count that says so, and it is refused behind its count. -/
theorem exists_count_of_readTransactions_eq_tooLarge {limit size max : Nat} {c d : Cursor}
    (h : Sections.readTransactions CompactSize.readLength limit c
      = .error (.blockTooLarge size max) d) :
    max = limit ∧ limit < size ∧ ∃ count n, CompactSize.Form n count ∧ c.Passes count d ∧
      size = Header.size + 32 * n ∧ min (n * 32) CompactSize.maxNeeded ≤ d.remaining := by
  unfold Sections.readTransactions at h
  rcases bind_eq_error_iff.1 h with h | ⟨n, between, hlength, h⟩
  · exact absurd (CompactSize.readLength_refuses 32 _ _ _ h) not_isTruncated_blockTooLarge
  · obtain ⟨hread, hahead⟩ := CompactSize.readLength_eq_ok_iff.1 hlength
    obtain ⟨count, hcount, hpass⟩ := (CompactSize.read_recognizes n c between).1 hread
    split at h
    · rename_i hlarge
      cases h
      exact ⟨rfl, hlarge, count, n, hcount, hpass, by rw [Nat.mul_comm], hahead⟩
    · exact absurd (((fixed_refuses 32).times n) _ _ _ h) not_isTruncated_blockTooLarge

/-- A list is too large where it is complete and exceeds the limit. -/
theorem readTransactions_eq_tooLarge_iff {limit size max : Nat} {c : Cursor}
    (hroom : c.remaining < 2 ^ 63) :
    (∃ d, Sections.readTransactions CompactSize.readLength limit c
      = .error (.blockTooLarge size max) d) ↔
      max = limit ∧ limit < size ∧ ∃ count items rest n, c.rest = count ++ (items ++ rest) ∧
        CompactSize.Form n count ∧ items.length = 32 * n ∧ size = Header.size + 32 * n := by
  constructor
  · rintro ⟨d, h⟩
    obtain ⟨hmax, hlarge, count, n, hcount, hpass, hsize, hahead⟩ :=
      exists_count_of_readTransactions_eq_tooLarge h
    have hrem := hpass.remaining_eq
    -- the need is not cut off at 64 bits, because no more than 63 bits of octets lie ahead
    have hitems : 32 * n ≤ d.remaining := by
      unfold CompactSize.maxNeeded at hahead
      omega
    refine ⟨hmax, hlarge, count, d.rest.take (32 * n), d.rest.drop (32 * n), n, ?_, hcount,
      List.length_take_of_le hitems, hsize⟩
    rw [List.take_append_drop]
    exact hpass.1
  · rintro ⟨rfl, hlarge, count, items, rest, n, hrest, hcount, hitems, rfl⟩
    let behind : Cursor := ⟨c.position + count.length, items ++ rest⟩
    have hread := (CompactSize.read_recognizes n c behind).2 ⟨count, hcount, hrest, rfl⟩
    have hlength : CompactSize.readLength 32 c = .ok n behind := by
      refine CompactSize.readLength_eq_ok_iff.2 ⟨hread, ?_⟩
      have hahead : behind.remaining = items.length + rest.length := List.length_append
      omega
    refine ⟨behind, ?_⟩
    unfold Sections.readTransactions
    refine bind_eq_error_iff.2 (.inr ⟨n, behind, hlength, ?_⟩)
    rw [if_pos (by omega), Nat.mul_comm]
    rfl

/-- Sections that are refused as too large have a header, and the list behind it is refused. -/
theorem exists_header_of_read_eq_tooLarge {limit size max : Nat} {c d : Cursor}
    (h : Sections.read limit c = .error (.blockTooLarge size max) d) :
    ∃ (header : Header) (form : Octets) (behind : Cursor), header.Form form ∧ c.Passes form behind ∧
      Sections.readTransactions CompactSize.readLength limit behind
        = .error (.blockTooLarge size max) d := by
  unfold Sections.read Sections.readWith at h
  simp only [bind_eq_error_iff, Sections.optional_eq_error_iff] at h
  rcases h with h | ⟨header, behind, hheader, ⟨-, hlist⟩ | ⟨_, middle, -, ⟨-, hsig⟩ | ⟨_, _, -, h⟩⟩⟩
  · exact absurd (Header.read_refuses _ _ _ h) not_isTruncated_blockTooLarge
  · obtain ⟨form, hform, hpass⟩ := (Header.read_recognizes header c behind).1 hheader
    exact ⟨header, form, behind, hform, hpass, hlist⟩
  · exact absurd (Sections.readSignatures_refuses _ _ _ hsig) not_isTruncated_blockTooLarge
  · cases h

/-- Sections are too large where header and list are complete and exceed the limit. -/
theorem read_eq_tooLarge_iff {limit size max : Nat} {c : Cursor} (hroom : c.remaining < 2 ^ 63) :
    (∃ d, Sections.read limit c = .error (.blockTooLarge size max) d) ↔
      max = limit ∧ Overlong limit size c.rest := by
  constructor
  · rintro ⟨d, h⟩
    obtain ⟨header, form, behind, hform, hpass, hlist⟩ := exists_header_of_read_eq_tooLarge h
    have hrem := hpass.remaining_eq
    obtain ⟨rfl, hlarge, count, items, rest, n, hrest, hcount, hitems, rfl⟩ :=
      (readTransactions_eq_tooLarge_iff (by omega)).1 ⟨d, hlist⟩
    refine ⟨rfl, hlarge, form, count, items, rest, n, ?_, hform.length, hcount, hitems, rfl⟩
    rw [hpass.1, hrest]
  · rintro ⟨rfl, hlarge, form, count, items, rest, n, hrest, hlen, hcount, hitems, rfl⟩
    obtain ⟨header, hform⟩ := Header.exists_form hlen
    let behind : Cursor := ⟨c.position + form.length, count ++ (items ++ rest)⟩
    have hpass : c.Passes form behind := ⟨hrest, rfl⟩
    have hheader := (Header.read_recognizes header c behind).2 ⟨form, hform, hpass⟩
    have hrem := hpass.remaining_eq
    obtain ⟨d, hlist⟩ := (readTransactions_eq_tooLarge_iff (c := behind) (by omega)).2
      ⟨rfl, hlarge, count, items, rest, n, rfl, hcount, hitems, rfl⟩
    have hmore : behind.rest ≠ [] := List.append_ne_nil_of_left_ne_nil hcount.ne_nil _
    refine ⟨d, ?_⟩
    unfold Sections.read Sections.readWith
    simp only [bind_eq_error_iff, Sections.optional_eq_error_iff]
    exact .inr ⟨header, behind, hheader, .inl ⟨hmore, hlist⟩⟩

theorem parse_eq_error_iff {e : WireError} :
    parse network retain buffer offset = .error e ↔
      (buffer.length < offset ∧ e = .truncated offset buffer.length) ∨ (offset ≤ buffer.length ∧
        ∃ d, Sections.read network.maxBlockSize.toNat ⟨offset, buffer.drop offset⟩ = .error e d) := by
  rw [← parseAt_eq_error_iff, parse_eq_map]
  cases parseAt (Sections.read network.maxBlockSize.toNat) buffer offset <;> simp [Except.map]

/-- **What is refused as too large.** -/
theorem parse_eq_tooLarge_iff {size max : Nat} (hlen : buffer.length < 2 ^ 63) :
    parse network retain buffer offset = .error (.blockTooLarge size max) ↔
      max = network.maxBlockSize.toNat ∧ offset ≤ buffer.length ∧
        Overlong network.maxBlockSize.toNat size (buffer.drop offset) := by
  have hroom : Cursor.remaining ⟨offset, buffer.drop offset⟩ < 2 ^ 63 := by
    rw [Cursor.remaining, List.length_drop]
    omega
  rw [parse_eq_error_iff, read_eq_tooLarge_iff hroom]
  constructor
  · rintro (⟨-, h⟩ | ⟨hle, hmax, hover⟩)
    · cases h
    · exact ⟨hmax, hle, hover⟩
  · rintro ⟨hmax, hle, hover⟩
    exact .inr ⟨hle, hmax, hover⟩

/-- A list that is complete in a buffer of less than 63 bits makes a size of less than 64 bits. -/
theorem Overlong.lt {limit size : Nat} {octets : Octets} (h : Overlong limit size octets)
    (hlen : octets.length < 2 ^ 63) : size < 2 ^ 64 := by
  obtain ⟨-, header, count, items, rest, n, rfl, hheader, -, hitems, rfl⟩ := h
  simp only [List.length_append] at hlen
  unfold Header.size at hheader ⊢
  omega

/-- A refusal is for want of octets or for a size beyond the limit that is a 64-bit word. -/
theorem refusal_of_parse_eq_error {e : WireError} (hlen : buffer.length < 2 ^ 63)
    (h : parse network retain buffer offset = .error e) :
    e.IsTruncated ∨ ∃ size < 2 ^ 64, e = .blockTooLarge size network.maxBlockSize.toNat := by
  rcases parse_eq_error_iff.1 h with ⟨-, rfl⟩ | ⟨-, d, hread⟩
  · exact .inl ⟨_, _, rfl⟩
  · rcases Sections.read_refuses _ e _ d hread with htruncated | ⟨size, rfl⟩
    · exact .inl htruncated
    · obtain ⟨-, -, hover⟩ := (parse_eq_tooLarge_iff hlen).1 h
      refine .inr ⟨size, hover.lt ?_, rfl⟩
      rw [List.length_drop]
      omega

/-- **Parsing decides the grammar of blocks.** It accepts the octets at the offset exactly if they have
the form of a block within the limit. The block accepted then has the header, the list and the
signature that the octets stand for and the double digest of the header octets as its identity; it
keeps the octets taken, if any are to be kept. A refusal is for a complete list beyond the limit,
exactly where there is one, and else for want of octets. The size that is compared with the limit is
always a 64-bit word. -/
theorem parse_decides_grammar (network : Network) (retain : Bool) (buffer : Octets) (offset : Nat)
    (hlen : buffer.length < 2 ^ 63) :
    ((∃ b, parse network retain buffer offset = .ok b) ↔
      offset ≤ buffer.length ∧ WireForm network.maxBlockSize.toNat (buffer.drop offset)) ∧
    (∀ b, parse network retain buffer offset = .ok b →
      ∃ used rest, buffer.drop offset = used ++ rest ∧
        Sections.Form network.maxBlockSize.toNat ⟨b.header, b.transactions, b.signatures⟩ used rest ∧
        b.hash.octets = (Digest.doubleSha256 (used.take Header.size)).reverse ∧ b.anchor = none ∧
        b.retained = if retain then .all used else .nothing) ∧
    (∀ size max, parse network retain buffer offset = .error (.blockTooLarge size max) ↔
      max = network.maxBlockSize.toNat ∧ offset ≤ buffer.length ∧
        Overlong network.maxBlockSize.toNat size (buffer.drop offset)) ∧
    (∀ e, parse network retain buffer offset = .error e →
      e.IsTruncated ∨ ∃ size < 2 ^ 64, e = .blockTooLarge size network.maxBlockSize.toNat) := by
  refine ⟨?_, fun b hb => ?_, fun size max => parse_eq_tooLarge_iff hlen,
    fun e he => refusal_of_parse_eq_error hlen he⟩
  · simp only [parse_eq_ok_iff, wireForm_iff]
    constructor
    · rintro ⟨b, hle, s, used, rest, hrest, hform, -⟩
      exact ⟨hle, s, used, rest, hrest, hform⟩
    · rintro ⟨hle, s, used, rest, hrest, hform⟩
      exact ⟨_, hle, s, used, rest, hrest, hform, rfl⟩
  · obtain ⟨-, s, used, rest, hrest, hform, rfl⟩ := parse_eq_ok_iff.1 hb
    exact ⟨used, rest, hrest, hform, rfl, rfl, rfl⟩

/-- A block behind another octet and before another, with a count in three octets instead of one. -/
theorem parse_decides_grammar_between_octets :
    let buffer : Octets := 0xAA :: (List.replicate 137 0 ++
      (0xFD :: [1, 0] ++ List.replicate 32 0 ++ ([1] ++ [7])) ++ [9])
    buffer.length < 2 ^ 63 ∧ ∃ b, parse .main true buffer 1 = .ok b := by
  intro buffer
  have hlen : buffer.length < 2 ^ 63 := by decide +kernel
  have hform : WireForm Network.main.maxBlockSize.toNat (buffer.drop 1) :=
    .signed rfl (.marked16 rfl) rfl (by decide) (.octet (by decide)) rfl [9]
  exact ⟨hlen, (parse_decides_grammar .main true buffer 1 hlen).1.2 ⟨by decide +kernel, hform⟩⟩

end AnchoredLedger.Block
