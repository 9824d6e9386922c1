import AnchoredLedger.Proofs.Block.Parse

/-! # Blocks cut short

Where the octets of a block end decides which of its sections are there. So octets that are cut short
right behind the header, or right behind the list, are those of a block with fewer sections. Cut at any
other place they are missed, be it within a count, a hash or the signature.

* **`Block.Layout`** — the octets of each section of a block.
* **`ListForm.unique`**, **`SignatureForm.unique`** — sections end in one place only, whatever follows.
* **`BodyForm.cut`**, **`Sections.Form.cut`** — what octets in front of the end can be read as.
* **`isTruncated_of_read_take`** — all else is refused for want of octets, never for the size of a list.
* **`Block.consumed`** — how many octets parsing takes; `form_of_consumed` for those that it takes all.
* **`Block.parse_cut_short`** — all of it. -/

namespace AnchoredLedger

open Reader

/-- **The forms of a part that may be absent**: where it is, there are no octets. -/
def Grammar.Optional {α : Type} (G : Grammar α) : Grammar (Option α)
  | none, form => form = []
  | some a, form => G a form

namespace Block

/-! ## Where sections end -/

variable {hashes hashes' : List Hash} {signature signature' xs ys rest rest' : Octets}

/-- Octets are cut into a list and what follows it in one way only. -/
theorem ListForm.unique (h : ListForm hashes xs) (h' : ListForm hashes' ys)
    (heq : xs ++ rest = ys ++ rest') : hashes = hashes' ∧ xs = ys ∧ rest = rest' := by
  -- both are read under a limit that neither of them exceeds
  let limit := Header.size + 32 * max hashes.length hashes'.length
  have hfits : Header.size + 32 * hashes.length ≤ limit := by omega
  have hfits' : Header.size + 32 * hashes'.length ≤ limit := by omega
  exact (Sections.readTransactions_recognizes limit).unique ⟨hfits, h⟩ ⟨hfits', h'⟩ heq

/-- Octets are cut into a signature and what follows it in one way only. -/
theorem SignatureForm.unique (h : SignatureForm signature xs) (h' : SignatureForm signature' ys)
    (heq : xs ++ rest = ys ++ rest') : signature = signature' ∧ xs = ys ∧ rest = rest' :=
  Sections.readSignatures_recognizes.unique h h' heq

/-- **The octets of each section**; of a section that is absent there are none. -/
structure Layout (b : Block) (header list signature : Octets) : Prop where
  /-- The first are the header. -/
  header : b.header.Form header
  /-- The next are the list. -/
  list : ListForm.Optional b.transactions list
  /-- The last are the signature. -/
  signature : SignatureForm.Optional b.signatures signature

variable {transactions transactions' : Option (List Hash)} {signatures signatures' : Option Octets}
  {body front behind : Octets}

/-- What follows a header are the octets of a list and those of a signature. -/
theorem BodyForm.exists_layout (h : BodyForm transactions signatures body) :
    ∃ list signature, body = list ++ signature ∧ ListForm.Optional transactions list ∧
      SignatureForm.Optional signatures signature := by
  cases h with
  | absent => exact ⟨[], [], rfl, rfl, rfl⟩
  | listed hlist => exact ⟨body, [], (List.append_nil body).symm, hlist, rfl⟩
  | signed hlist hsig => exact ⟨_, _, rfl, hlist, hsig⟩

/-- A body that is not empty starts with a list. -/
theorem BodyForm.exists_list (h : BodyForm transactions signatures body) (hne : body ≠ []) :
    ∃ hashes list rest, transactions = some hashes ∧ ListForm hashes list ∧ body = list ++ rest := by
  cases h with
  | absent => exact absurd rfl hne
  | listed hlist => exact ⟨_, body, [], rfl, hlist, (List.append_nil body).symm⟩
  | signed hlist hsig => exact ⟨_, _, _, rfl, hlist, rfl⟩

/-- The count that stands in front of a list is that of its hashes. -/
theorem ListForm.length_eq {n : Nat} {count : Octets} (h : ListForm hashes xs)
    (hcount : CompactSize.Form n count) (heq : xs ++ rest = count ++ rest') : hashes.length = n := by
  obtain ⟨m, count', items, hcount', ⟨hlen, -⟩, rfl⟩ := h
  rw [List.append_assoc] at heq
  obtain ⟨hm, -, -⟩ := CompactSize.read_recognizes.unique hcount' hcount heq
  rw [hlen, hm]

/-- **A body of which something is missing** is no body, or that of a block with fewer sections. -/
theorem BodyForm.cut (h : BodyForm transactions signatures body)
    (h' : BodyForm transactions' signatures' front) (heq : body = front ++ behind)
    (hmissing : behind ≠ []) :
    signatures' = none ∧ ((transactions' = none ∧ front = []) ∨
      ∃ hashes, transactions = some hashes ∧ transactions' = some hashes ∧ ListForm hashes front) := by
  cases h' with
  | absent => exact ⟨rfl, .inl ⟨rfl, rfl⟩⟩
  | @listed hashes' _ hlist' =>
    refine ⟨rfl, .inr ⟨hashes', ?_, rfl, hlist'⟩⟩
    cases h with
    | absent =>
      have hnil : front = [] := (List.append_eq_nil_iff.1 heq.symm).1
      exact absurd hnil hlist'.ne_nil
    | @listed hashes _ hlist =>
      rw [← List.append_nil body] at heq
      obtain ⟨-, -, hnil⟩ := hlist.unique hlist' heq
      exact absurd hnil.symm hmissing
    | @signed hashes signature list blob hlist hsig =>
      obtain ⟨rfl, -, -⟩ := hlist.unique hlist' heq
      rfl
  | @signed hashes' signature' list' blob' hlist' hsig' =>
    -- a body that ends with a signature leaves nothing to be missing
    exfalso
    rw [List.append_assoc] at heq
    cases h with
    | absent =>
      have hnil : list' = [] := (List.append_eq_nil_iff.1 heq.symm).1
      exact hlist'.ne_nil hnil
    | @listed hashes _ hlist =>
      rw [← List.append_nil body] at heq
      obtain ⟨-, -, hnil⟩ := hlist.unique hlist' heq
      exact hsig'.ne_nil (List.append_eq_nil_iff.1 hnil.symm).1
    | @signed hashes signature list blob hlist hsig =>
      obtain ⟨-, -, hblob⟩ := hlist.unique hlist' heq
      rw [← List.append_nil blob] at hblob
      obtain ⟨-, -, hnil⟩ := hsig.unique hsig' hblob
      exact hmissing hnil.symm

end Block

namespace Sections

open Block

variable {limit : Nat} {s t : Sections} {form body used rest behind octets : Octets}

/-- **Octets of which something is missing** are read as the header alone or as header and list. -/
theorem Form.cut (hheader : s.header.Form form) (hbody : BodyForm s.transactions s.signatures body)
    (ht : t.Form limit used rest) (heq : form ++ body = used ++ rest ++ behind)
    (hmissing : behind ≠ []) :
    rest = [] ∧ t.header = s.header ∧ t.signatures = none ∧ ((t.transactions = none ∧ used = form) ∨
      ∃ hashes list, s.transactions = some hashes ∧ t.transactions = some hashes ∧
        ListForm hashes list ∧ used = form ++ list) := by
  obtain ⟨hheader', hbody', -, hlast⟩ := ht
  -- headers have one size, so the two are the same and what is missing is missing from the body
  rw [List.append_assoc, ← List.take_append_drop Header.size used, List.append_assoc] at heq
  obtain ⟨hfields, hfront, hrest⟩ := Header.read_recognizes.unique hheader hheader' heq
  have hmissing' : rest ++ behind ≠ [] := List.append_ne_nil_of_right_ne_nil rest hmissing
  obtain ⟨hunsigned, hcut⟩ := hbody.cut hbody' hrest hmissing'
  refine ⟨hlast hunsigned, hfields.symm, hunsigned, ?_⟩
  rw [← List.take_append_drop Header.size used, ← hfront]
  rcases hcut with ⟨habsent, hnil⟩ | ⟨hashes, hlisted, hlisted', hlist⟩
  · rw [hnil, List.append_nil]
    exact .inl ⟨habsent, rfl⟩
  · exact .inr ⟨hashes, _, hlisted, hlisted', hlist, rfl⟩

/-- **The front of a block is never refused for the size of its list**: the count would be that of the
block, whose list is within the limit. -/
theorem Form.isTruncated_of_read (hs : s.Form limit octets []) {n position : Nat} {e : WireError}
    {d : Cursor} (hread : Sections.read limit ⟨position, octets.take n⟩ = .error e d) :
    e.IsTruncated := by
  rcases read_refuses limit e _ d hread with htruncated | ⟨size, rfl⟩
  · exact htruncated
  · exfalso
    obtain ⟨header, form, middle, hheader, hpass, hlist⟩ :=
      Block.exists_header_of_read_eq_tooLarge hread
    obtain ⟨-, hlarge, count, m, hcount, hpass', rfl, -⟩ :=
      exists_count_of_readTransactions_eq_tooLarge hlist
    -- header and count stand in the octets of the block as well
    have hfront : octets.take n = form ++ (count ++ d.rest) := by
      rw [← hpass'.1]
      exact hpass.1
    have hoctets : octets.take Header.size ++ octets.drop Header.size =
        form ++ (count ++ (d.rest ++ octets.drop n)) := by
      calc octets.take Header.size ++ octets.drop Header.size
          = octets.take n ++ octets.drop n := by simp only [List.take_append_drop]
        _ = form ++ (count ++ (d.rest ++ octets.drop n)) := by
          rw [hfront, List.append_assoc, List.append_assoc]
    obtain ⟨-, -, hbody⟩ := Header.read_recognizes.unique hs.header hheader hoctets
    have hne : octets.drop Header.size ≠ [] := by
      rw [hbody]
      exact List.append_ne_nil_of_left_ne_nil hcount.ne_nil _
    obtain ⟨hashes, list, rest, hsome, hlist', hsplit⟩ := hs.body.exists_list hne
    have hlen := hlist'.length_eq hcount (hsplit.symm.trans hbody)
    have hle := hs.fits hashes hsome
    omega

end Sections

namespace Block

variable {network : Network} {retain : Bool} {buffer : Octets} {offset : Nat} {b : Block}

/-! ## Octets that are taken whole -/

/-- **How many octets parsing takes** for the block at an offset. -/
def consumed (network : Network) (buffer : Octets) (offset : Nat) : Except WireError Nat :=
  (parseAt (Sections.read network.maxBlockSize.toNat) buffer offset).map Prod.snd

/-- Octets that are taken whole are a form of the sections of the block. -/
theorem form_of_consumed (hparse : parse network retain buffer 0 = .ok b)
    (hwhole : consumed network buffer 0 = .ok buffer.length) :
    ∃ s : Sections, s.Form network.maxBlockSize.toNat buffer [] ∧ b = ofSections s buffer retain := by
  unfold consumed at hwhole
  rw [parse_eq_map] at hparse
  cases hread : parseAt (Sections.read network.maxBlockSize.toNat) buffer 0 with
  | error e =>
    rw [hread] at hwhole
    cases hwhole
  | ok result =>
    obtain ⟨s, used⟩ := result
    rw [hread] at hwhole hparse
    cases hwhole
    cases hparse
    obtain ⟨-, d, hok, hlen⟩ := parseAt_eq_ok_iff.1 hread
    obtain ⟨used, hform, hrest, hpos⟩ := Sections.read_iff.1 hok
    dsimp only at hrest hpos
    rw [List.drop_zero] at hrest
    -- as many octets were taken as there are, so none are left
    have hnil : d.rest = [] := by
      have hcount := congrArg List.length hrest
      rw [List.length_append] at hcount
      exact List.eq_nil_of_length_eq_zero (by omega)
    rw [hnil, List.append_nil] at hrest
    subst hrest
    rw [hnil] at hform
    exact ⟨s, hform, by simp⟩

/-! ## Octets cut short -/

/-- Sections that are all of some octets are parsed from them. -/
theorem parse_of_form {s : Sections} (h : s.Form network.maxBlockSize.toNat buffer []) :
    parse network retain buffer 0 = .ok (ofSections s buffer retain) :=
  parse_eq_ok_iff.2 ⟨Nat.zero_le _, s, buffer, [], (List.append_nil buffer).symm, h, rfl⟩

/-- **What is accepted of a block that was cut short** has its header and identity. Either the octets
end right behind the header and there is nothing else, or right behind the list and there is that too. -/
theorem of_parse_take {s : Sections} {list signature : Octets}
    (hs : s.Form network.maxBlockSize.toNat buffer [])
    (hsplit : buffer.drop Header.size = list ++ signature)
    (hlist : ListForm.Optional s.transactions list) {n : Nat} (hn : n < buffer.length) {p : Block}
    (hp : parse network retain (buffer.take n) 0 = .ok p) :
    p.header = s.header ∧ p.hash = .ofTwice (buffer.take Header.size) ∧ p.signatures = none ∧
      ((p.transactions = none ∧ n = Header.size) ∨ (p.transactions = s.transactions ∧
        s.transactions.isSome = true ∧ n = Header.size + list.length)) := by
  obtain ⟨-, t, used, rest, hused, ht, rfl⟩ := parse_eq_ok_iff.1 hp
  rw [List.drop_zero] at hused
  have hheader := hs.header.length
  have hwhole : buffer.take Header.size ++ buffer.drop Header.size =
      used ++ rest ++ buffer.drop n := by
    rw [← hused, List.take_append_drop, List.take_append_drop]
  have hmissing : buffer.drop n ≠ [] := List.ne_nil_of_length_pos (by rw [List.length_drop]; omega)
  obtain ⟨rfl, hfields, hunsigned, hcut⟩ := ht.cut hs.header hs.body hwhole hmissing
  rw [List.append_nil] at hused hwhole
  have hlen : n = used.length := by
    rw [← hused, List.length_take_of_le (Nat.le_of_lt hn)]
  have hhash : used.take Header.size = buffer.take Header.size := by
    rw [ht.header.eq_encode, hs.header.eq_encode, hfields]
  refine ⟨hfields, congrArg Hash.ofTwice hhash, hunsigned, ?_⟩
  rcases hcut with ⟨habsent, rfl⟩ | ⟨hashes, list', hsome, hsome', hlist', rfl⟩
  · exact .inl ⟨habsent, by rw [hlen, hheader]⟩
  · -- the list that was read is that of the whole block, and the octets end where it does
    rw [hsome] at hlist
    rw [hsplit, List.append_assoc] at hwhole
    obtain ⟨-, rfl, -⟩ := hlist.unique hlist' (List.append_cancel_left hwhole)
    refine .inr ⟨hsome'.trans hsome.symm, by rw [hsome]; rfl, ?_⟩
    rw [hlen, List.length_append, hheader]

/-- The front of a block is accepted where it is the header. -/
theorem exists_parse_take_header {s : Sections} (hs : s.Form network.maxBlockSize.toNat buffer []) :
    ∃ p, parse network retain (buffer.take Header.size) 0 = .ok p := by
  have hform : Sections.Form network.maxBlockSize.toNat ⟨s.header, none, none⟩
      (buffer.take Header.size ++ []) [] :=
    .of_parts hs.header .absent (by simp) fun _ => rfl
  rw [List.append_nil] at hform
  exact ⟨_, parse_of_form hform⟩

/-- The front of a block is accepted where it is the header and the list. -/
theorem exists_parse_take_list {s : Sections} {list signature : Octets}
    (hs : s.Form network.maxBlockSize.toNat buffer [])
    (hsplit : buffer.drop Header.size = list ++ signature)
    (hlist : ListForm.Optional s.transactions list) (hsome : s.transactions.isSome = true) :
    ∃ p, parse network retain (buffer.take (Header.size + list.length)) 0 = .ok p := by
  obtain ⟨hashes, htransactions⟩ := Option.isSome_iff_exists.1 hsome
  rw [htransactions] at hlist
  have hform : Sections.Form network.maxBlockSize.toNat ⟨s.header, some hashes, none⟩
      (buffer.take Header.size ++ list) [] := by
    refine .of_parts hs.header (.listed hlist) ?_ fun _ => rfl
    rintro _ ⟨⟩
    exact hs.fits hashes htransactions
  have htake : buffer.take (Header.size + list.length) = buffer.take Header.size ++ list := by
    rw [List.take_add, hsplit, List.take_left]
  rw [htake]
  exact ⟨_, parse_of_form hform⟩

/-- A list has octets, so it does not end where the header does. -/
theorem ne_size_of_isSome {listed : Option (List Hash)} {list : Octets}
    (hlist : ListForm.Optional listed list) (hsome : listed.isSome = true) :
    Header.size + list.length ≠ Header.size := by
  obtain ⟨hashes, rfl⟩ := Option.isSome_iff_exists.1 hsome
  have hpos := List.length_pos_iff.2 (ListForm.ne_nil hlist)
  omega

/-- **Blocks cut short.** The octets of a block that parsing takes whole are those of its header, its
list and its signature. A part from the front that is not the whole of them is accepted exactly if it
ends right behind the header, or right behind the list where there is one. It is then read as a block
with the header and the identity of the whole one, without a signature, and with its list in the second
case and no list in the first. Every other part is refused for want of octets. -/
theorem parse_cut_short (network : Network) (retain : Bool) (buffer : Octets) (b : Block)
    (hparse : parse network retain buffer 0 = .ok b)
    (hwhole : consumed network buffer 0 = .ok buffer.length) :
    ∃ header list signature, buffer = header ++ (list ++ signature) ∧
      b.Layout header list signature ∧ ∀ n < buffer.length,
        ((∃ p, parse network retain (buffer.take n) 0 = .ok p) ↔
          n = Header.size ∨ (b.transactions.isSome = true ∧ n = Header.size + list.length)) ∧
        (∀ p, parse network retain (buffer.take n) 0 = .ok p →
          p.header = b.header ∧ p.hash = b.hash ∧ p.signatures = none ∧
          p.transactions = if n = Header.size then none else b.transactions) ∧
        (∀ e, parse network retain (buffer.take n) 0 = .error e → e.IsTruncated) := by
  obtain ⟨s, hs, rfl⟩ := form_of_consumed hparse hwhole
  obtain ⟨list, signature, hsplit, hlist, hsig⟩ := hs.body.exists_layout
  have hbuffer : buffer = buffer.take Header.size ++ (list ++ signature) := by
    rw [← hsplit, List.take_append_drop]
  refine ⟨_, list, signature, hbuffer, ⟨hs.header, hlist, hsig⟩, fun n hn => ⟨⟨?_, ?_⟩, ?_, ?_⟩⟩
  · rintro ⟨p, hp⟩
    obtain ⟨-, -, -, ⟨-, hend⟩ | ⟨-, hsome, hend⟩⟩ := of_parse_take hs hsplit hlist hn hp
    · exact .inl hend
    · exact .inr ⟨hsome, hend⟩
  · rintro (rfl | ⟨hsome, rfl⟩)
    · exact exists_parse_take_header hs
    · exact exists_parse_take_list hs hsplit hlist hsome
  · intro p hp
    obtain ⟨hfields, hhash, hunsigned, hcut⟩ := of_parse_take hs hsplit hlist hn hp
    refine ⟨hfields, hhash, hunsigned, ?_⟩
    rcases hcut with ⟨habsent, hend⟩ | ⟨htransactions, hsome, rfl⟩
    · rw [if_pos hend, habsent]
    · rw [if_neg (ne_size_of_isSome hlist hsome), htransactions]
      rfl
  · intro e he
    rcases parse_eq_error_iff.1 he with ⟨hlt, -⟩ | ⟨-, d, hread⟩
    · exact absurd hlt (Nat.not_lt_zero _)
    · rw [List.drop_zero] at hread
      exact hs.isTruncated_of_read hread

/-- A signed block with a list whose count takes three octets instead of one: cut behind the header,
behind the list, and within the count. -/
theorem parse_cut_short_long_count :
    let header : Header := ⟨1, .zero, .zero, .zero, .zero, 0⟩
    let list : Octets := [0xFD, 1, 0] ++ List.replicate 32 0
    let buffer : Octets := header.encode ++ (list ++ ([1] ++ [7]))
    ∃ b, parse .main true buffer 0 = .ok b ∧ consumed .main buffer 0 = .ok buffer.length ∧
      b.transactions = some [.zero] ∧ b.signatures = some [7] ∧
      (∃ p, parse .main true (buffer.take 137) 0 = .ok p ∧ p.header = b.header ∧ p.hash = b.hash ∧
        p.transactions = none ∧ p.signatures = none) ∧
      (∃ p, parse .main true (buffer.take 172) 0 = .ok p ∧ p.header = b.header ∧ p.hash = b.hash ∧
        p.transactions = some [.zero] ∧ p.signatures = none) ∧
      ∃ e, parse .main true (buffer.take 139) 0 = .error e ∧ e.IsTruncated := by
  intro header list buffer
  have hcount : CompactSize.Form 1 [0xFD, 1, 0] := @CompactSize.Form.marked16 [1, 0] rfl
  have hlist : ListForm [.zero] list := ⟨1, _, _, hcount, ⟨rfl, Hash.listed_iff.2 rfl⟩, rfl⟩
  have hlength : CompactSize.Form 1 [1] := @CompactSize.Form.octet 1 (by decide)
  have hsig : SignatureForm [7] ([1] ++ [7]) := ⟨1, _, _, hlength, ⟨rfl, rfl⟩, rfl⟩
  let sections : Sections := ⟨header, some [.zero], some [7]⟩
  have hform : sections.Form Network.main.maxBlockSize.toNat buffer [] :=
    .of_parts header.form_encode (.signed hlist hsig) (by simp [sections]; decide) (by simp [sections])
  have hparse : parse .main true buffer 0 = .ok (ofSections sections buffer true) :=
    parse_of_form hform
  have hwhole : consumed .main buffer 0 = .ok buffer.length := by decide +kernel
  obtain ⟨header', list', signature, hbuffer, hlayout, hcut⟩ :=
    parse_cut_short .main true buffer _ hparse hwhole
  -- the layout is that of the octets as they are put together here
  have hlen : list'.length = 35 := by
    have hsame := hlayout.header.length
    have hsplit := List.append_inj hbuffer (header.length_encode.trans hsame.symm)
    have hunique := hlist.unique hlayout.list hsplit.2
    rw [← hunique.2.1]
    rfl
  have hlong : buffer.length = 174 := by decide +kernel
  have hsome : (ofSections sections buffer true).transactions.isSome = true := rfl
  refine ⟨_, hparse, hwhole, rfl, rfl, ?_, ?_, ?_⟩
  · obtain ⟨haccepts, hreads, -⟩ := hcut 137 (by omega)
    obtain ⟨p, hp⟩ := haccepts.2 (.inl rfl)
    obtain ⟨hheader, hhash, hunsigned, htransactions⟩ := hreads p hp
    exact ⟨p, hp, hheader, hhash, htransactions, hunsigned⟩
  · obtain ⟨haccepts, hreads, -⟩ := hcut 172 (by omega)
    obtain ⟨p, hp⟩ := haccepts.2 (.inr ⟨hsome, by rw [hlen]; rfl⟩)
    obtain ⟨hheader, hhash, hunsigned, htransactions⟩ := hreads p hp
    exact ⟨p, hp, hheader, hhash, htransactions, hunsigned⟩
  · obtain ⟨haccepts, -, hrefused⟩ := hcut 139 (by omega)
    cases hp : parse .main true (buffer.take 139) 0 with
    | error e => exact ⟨e, rfl, hrefused e hp⟩
    | ok p =>
      rcases haccepts.1 ⟨p, hp⟩ with hend | ⟨-, hend⟩
      · cases hend
      · rw [hlen] at hend
        cases hend

end Block

end AnchoredLedger
