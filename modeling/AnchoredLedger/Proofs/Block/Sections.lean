import AnchoredLedger.Block.Wire
import AnchoredLedger.Proofs.CompactSize
import AnchoredLedger.Proofs.Header

/-! # The grammar of blocks

The wire form of a block as a grammar: which octets may follow a header, and which lists and
signatures they stand for. The end of the octets tells absent sections from present ones, so the
grammar of the whole speaks of what follows it as well.

* **`Hash.Listed`** — hashes as slices of 32 octets.
* **`Block.ListForm`**, **`Block.SignatureForm`** — the two sections behind the header.
* **`Block.BodyForm`** — what may stand behind a header: nothing, a list, or a list and a signature.
* **`Sections.Form`** — the whole; `Sections.read_iff` says that reading takes exactly that. -/

namespace AnchoredLedger

open Reader

/-! ## Lists of hashes -/

/-- **Hashes one after another**: the slices of 32 octets, each in reverse. -/
structure Hash.Listed (hashes : List Hash) (items : Octets) : Prop where
  /-- There are 32 octets for each hash. -/
  length : items.length = 32 * hashes.length
  /-- Each hash is its slice in reverse. -/
  slice : ∀ i (h : i < hashes.length), hashes[i].octets = ((items.drop (32 * i)).take 32).reverse

/-- Slice after slice is what is written. -/
theorem Hash.listed_iff {hashes : List Hash} {items : Octets} :
    Hash.Listed hashes items ↔ items = hashes.flatMap FixedOctets.toWire := by
  induction hashes generalizing items with
  | nil =>
    constructor
    · intro h
      exact List.eq_nil_of_length_eq_zero h.length
    · rintro rfl
      exact ⟨rfl, fun i h => absurd h (Nat.not_lt_zero i)⟩
  | cons first others ih =>
    constructor
    · intro h
      have hfirst : first.toWire = items.take 32 :=
        FixedOctets.toWire_eq_iff.2 (h.slice 0 (Nat.zero_lt_succ _))
      -- the slices of the others are those of the list, one place further on
      have hothers : Hash.Listed others (items.drop 32) := by
        refine ⟨?_, fun i hi => ?_⟩
        · have hlen := h.length
          rw [List.length_cons] at hlen
          rw [List.length_drop]
          omega
        · have hslice := h.slice (i + 1) (Nat.succ_lt_succ hi)
          rwa [List.getElem_cons_succ, Nat.mul_add, Nat.add_comm, ← List.drop_drop] at hslice
      rw [List.flatMap_cons, hfirst, ← ih.1 hothers, List.take_append_drop]
    · rintro rfl
      have hothers := ih.2 rfl
      refine ⟨?_, fun i hi => ?_⟩
      · rw [List.flatMap_cons, List.length_append, first.length_toWire, hothers.length,
          List.length_cons]
        omega
      · cases i with
        | zero =>
          rw [← FixedOctets.toWire_eq_iff]
          exact (List.take_left' first.length_toWire).symm
        | succ i =>
          rw [List.getElem_cons_succ, hothers.slice i (Nat.lt_of_succ_lt_succ hi), List.flatMap_cons,
            Nat.mul_add, Nat.add_comm, ← List.drop_drop]
          rw [List.drop_left' first.length_toWire]

/-- As many octets as hashes take are hashes. -/
theorem Hash.exists_listed {count : Nat} {items : Octets} (hlen : items.length = 32 * count) :
    ∃ hashes, hashes.length = count ∧ Hash.Listed hashes items := by
  induction count generalizing items with
  | zero =>
    have hnil := List.eq_nil_of_length_eq_zero hlen
    exact ⟨[], rfl, Hash.listed_iff.2 hnil⟩
  | succ count ih =>
    have hothers : (items.drop 32).length = 32 * count := by
      rw [List.length_drop]
      omega
    obtain ⟨others, hcount, hlisted⟩ := ih hothers
    let first : Hash := ⟨(items.take 32).reverse, by simp; omega⟩
    refine ⟨first :: others, by rw [List.length_cons, hcount], Hash.listed_iff.2 ?_⟩
    rw [List.flatMap_cons, ← Hash.listed_iff.1 hlisted,
      FixedOctets.toWire_eq_iff.2 (rfl : first.octets = (items.take 32).reverse),
      List.take_append_drop]

namespace Block

/-! ## The sections -/

/-- **The transaction section**: a count in any form and as many hashes. -/
def ListForm : Grammar (List Hash) :=
  CompactSize.Counted fun n hashes items => hashes.length = n ∧ Hash.Listed hashes items

/-- **The signature section**: a length in any form and as many octets, the signature in reverse. -/
def SignatureForm : Grammar Octets :=
  CompactSize.Counted fun n signature octets => octets.length = n ∧ signature = octets.reverse

/-- **What may follow a header**: nothing, a list, or a list and a signature. -/
inductive BodyForm : Option (List Hash) → Option Octets → Octets → Prop
  /-- Both sections are absent. -/
  | absent : BodyForm none none []
  /-- There is a list only. -/
  | listed {hashes : List Hash} {list : Octets} (hlist : ListForm hashes list) :
      BodyForm (some hashes) none list
  /-- There are both. -/
  | signed {hashes : List Hash} {signature list blob : Octets} (hlist : ListForm hashes list)
      (hsig : SignatureForm signature blob) :
      BodyForm (some hashes) (some signature) (list ++ blob)

/-- A count takes at least one octet. -/
theorem ListForm.ne_nil {hashes : List Hash} {form : Octets} (h : ListForm hashes form) :
    form ≠ [] := by
  obtain ⟨n, count, items, hcount, -, rfl⟩ := h
  exact List.append_ne_nil_of_left_ne_nil hcount.ne_nil items

/-- A length takes at least one octet. -/
theorem SignatureForm.ne_nil {signature form : Octets} (h : SignatureForm signature form) :
    form ≠ [] := by
  obtain ⟨n, count, items, hcount, -, rfl⟩ := h
  exact List.append_ne_nil_of_left_ne_nil hcount.ne_nil items

end Block

namespace Sections

open Block

/-- **The wire form of a block**: the octets `used` are a header and what may follow it, within the
limit; octets may be left only behind a signature. -/
structure Form (limit : Nat) (s : Sections) (used rest : Octets) : Prop where
  /-- The first 137 octets are the header. -/
  header : s.header.Form (used.take Header.size)
  /-- The others are the list and the signature, as far as they are there. -/
  body : BodyForm s.transactions s.signatures (used.drop Header.size)
  /-- Header and list are within the limit. -/
  fits : ∀ hashes, s.transactions = some hashes → Header.size + 32 * hashes.length ≤ limit
  /-- Without a signature nothing follows. -/
  last : s.signatures = none → rest = []

/-- A header, what may follow it, and what follows that. -/
theorem Form.of_parts {limit : Nat} {s : Sections} {form body rest : Octets}
    (hheader : s.header.Form form) (hbody : BodyForm s.transactions s.signatures body)
    (hfits : ∀ hashes, s.transactions = some hashes → Header.size + 32 * hashes.length ≤ limit)
    (hlast : s.signatures = none → rest = []) : s.Form limit (form ++ body) rest where
  header := by rwa [List.take_left' hheader.length]
  body := by rwa [List.drop_left' hheader.length]
  fits := hfits
  last := hlast

/-- What is within a limit is within a larger one. -/
theorem Form.mono {limit limit' : Nat} {s : Sections} {used rest : Octets} (h : s.Form limit used rest)
    (hle : limit ≤ limit') : s.Form limit' used rest where
  header := h.header
  body := h.body
  fits hashes hlist := Nat.le_trans (h.fits hashes hlist) hle
  last := h.last

/-! ## Reading the sections -/

theorem optional_eq_ok_iff {α : Type} {part : Reader α} {o : Option α} {c d : Cursor} :
    optional part c = .ok o d ↔
      (c.rest = [] ∧ o = none ∧ d = c) ∨ (c.rest ≠ [] ∧ ∃ a, o = some a ∧ part c = .ok a d) := by
  unfold optional
  simp only [bind_eq_ok_iff, atEnd_eq_ok_iff]
  cases hrest : c.rest with
  | nil => simp [pure_eq_ok_iff]
  | cons b rest => simp [map_eq_ok_iff]

theorem optional_eq_error_iff {α : Type} {part : Reader α} {e : WireError} {c d : Cursor} :
    optional part c = .error e d ↔ c.rest ≠ [] ∧ part c = .error e d := by
  unfold optional
  simp only [bind_eq_error_iff, atEnd_eq_ok_iff, atEnd_ne_error, false_or]
  cases hrest : c.rest with
  | nil => simp [pure, EStateM.pure]
  | cons b rest =>
    simp only [map_eq_bind]
    simp [bind_eq_error_iff, pure, EStateM.pure]

theorem optional_refuses {α : Type} {part : Reader α} {E : WireError → Prop}
    (h : Refuses part E) : Refuses (optional part) E := by
  intro e c d herr
  exact h e c d (optional_eq_error_iff.1 herr).2

/-- So many hashes are read where they stand and are within the limit. -/
theorem hashes_recognizes (limit n : Nat) :
    Recognizes
      (if limit < Header.size + n * 32 then throw (.blockTooLarge (Header.size + n * 32) limit)
        else Reader.times Reader.hash n)
      fun hashes items => Header.size + n * 32 ≤ limit ∧ hashes.length = n ∧
        Hash.Listed hashes items := by
  have hhashes : Recognizes (Reader.times Reader.hash n) fun hashes items =>
      hashes.length = n ∧ Hash.Listed hashes items := by
    refine ((fixed_recognizes 32).times n).congr fun hashes items => ?_
    rw [Grammar.items_eq_flatMap, Hash.listed_iff]
  split
  · rename_i hlarge
    exact (recognizes_throw _).congr fun hashes items =>
      ⟨False.elim, fun h => absurd h.1 (Nat.not_le_of_lt hlarge)⟩
  · rename_i hfits
    exact hhashes.congr fun hashes items => by simp [Nat.not_lt.1 hfits]

/-- A list is read where one stands that is within the limit. -/
theorem readTransactions_recognizes (limit : Nat) :
    Recognizes (readTransactions CompactSize.readLength limit) fun hashes form =>
      Header.size + 32 * hashes.length ≤ limit ∧ ListForm hashes form := by
  -- the limit is checked between the count and the hashes, so it goes into what is counted
  refine (CompactSize.recognizes_counted 32 (hashes_recognizes limit) ?_).congr fun hashes form => ?_
  · rintro n hashes items ⟨-, rfl, hlisted⟩
    have hroom := hlisted.length
    omega
  · constructor
    · rintro ⟨n, count, items, hcount, ⟨hfits, hlen, hlisted⟩, rfl⟩
      subst hlen
      exact ⟨by omega, _, count, items, hcount, ⟨rfl, hlisted⟩, rfl⟩
    · rintro ⟨hfits, n, count, items, hcount, ⟨hlen, hlisted⟩, rfl⟩
      subst hlen
      exact ⟨_, count, items, hcount, ⟨by omega, rfl, hlisted⟩, rfl⟩

/-- So many octets are read as the signature that they are in reverse. -/
theorem signature_recognizes (n : Nat) :
    Recognizes (Reader.octets n >>= fun bs => pure bs.reverse)
      fun signature octets => octets.length = n ∧ signature = octets.reverse := by
  refine ((octets_recognizes n).bind fun bs => recognizes_pure bs.reverse).congr
    fun signature octets => ?_
  constructor
  · rintro ⟨bs, _, _, ⟨hlen, rfl⟩, ⟨hsig, rfl⟩, rfl⟩
    rw [List.append_nil]
    exact ⟨hlen, hsig⟩
  · rintro ⟨hlen, hsig⟩
    exact ⟨octets, octets, [], ⟨hlen, rfl⟩, ⟨hsig, rfl⟩, (List.append_nil octets).symm⟩

theorem readSignatures_recognizes :
    Recognizes (readSignatures CompactSize.readLength) SignatureForm := by
  refine CompactSize.recognizes_counted 1 signature_recognizes ?_
  rintro n signature octets ⟨hlen, -⟩
  omega

/-- What is read has the form of the sections. -/
theorem exists_form_of_read {limit : Nat} {s : Sections} {c d : Cursor}
    (h : read limit c = .ok s d) : ∃ used, s.Form limit used d.rest ∧ c.Passes used d := by
  unfold read readWith at h
  simp only [bind_eq_ok_iff, optional_eq_ok_iff] at h
  obtain ⟨header, behind, hheader, transactions, middle, hlist, signatures, after, hsig, hpure⟩ := h
  obtain ⟨rfl, rfl⟩ := pure_eq_ok_iff.1 hpure
  obtain ⟨form, hform, hpass⟩ := (Header.read_recognizes header c behind).1 hheader
  rcases hlist with ⟨hend, rfl, rfl⟩ | ⟨-, hashes, rfl, hlist⟩
  · -- nothing stands behind the header, so there is no signature either
    rcases hsig with ⟨-, rfl, rfl⟩ | ⟨hmore, -⟩
    · refine ⟨form, ?_, hpass⟩
      rw [← List.append_nil form]
      exact .of_parts hform .absent (by simp) fun _ => hend
    · exact absurd hend hmore
  · obtain ⟨list, ⟨hfits, hlisted⟩, hpass'⟩ :=
      (readTransactions_recognizes limit hashes behind middle).1 hlist
    rcases hsig with ⟨hend, rfl, rfl⟩ | ⟨-, signature, rfl, hsig⟩
    · refine ⟨form ++ list, ?_, Cursor.passes_append.2 ⟨behind, hpass, hpass'⟩⟩
      exact .of_parts hform (.listed hlisted) (by simpa using hfits) fun _ => hend
    · obtain ⟨blob, hblob, hpass''⟩ := (readSignatures_recognizes signature middle _).1 hsig
      refine ⟨form ++ (list ++ blob), ?_, Cursor.passes_append.2
        ⟨behind, hpass, Cursor.passes_append.2 ⟨middle, hpass', hpass''⟩⟩⟩
      exact .of_parts hform (.signed hlisted hblob) (by simpa using hfits) (by simp)

/-- The form of the sections is read as them. -/
theorem Form.read {limit : Nat} {s : Sections} {used : Octets} {c d : Cursor}
    (h : s.Form limit used d.rest) (hpass : c.Passes used d) : read limit c = .ok s d := by
  obtain ⟨hform, hbody, hfits, hlast⟩ := h
  obtain ⟨header, transactions, signatures⟩ := s
  dsimp only at hform hbody hfits hlast
  rw [← List.take_append_drop Header.size used] at hpass
  obtain ⟨behind, hpass, hpass'⟩ := Cursor.passes_append.1 hpass
  unfold Sections.read readWith
  simp only [bind_eq_ok_iff, optional_eq_ok_iff]
  refine ⟨header, behind, (Header.read_recognizes header c behind).2 ⟨_, hform, hpass⟩, ?_⟩
  generalize used.drop Header.size = body at hbody hpass'
  cases hbody with
  | absent =>
    obtain rfl := Cursor.passes_nil.1 hpass'
    have hend := hlast rfl
    exact ⟨none, d, .inl ⟨hend, rfl, rfl⟩, none, d, .inl ⟨hend, rfl, rfl⟩,
      pure_eq_ok_iff.2 ⟨rfl, rfl⟩⟩
  | @listed hashes _ hlist =>
    have hread := (readTransactions_recognizes limit hashes behind d).2
      ⟨_, ⟨hfits hashes rfl, hlist⟩, hpass'⟩
    have hmore := hpass'.rest_ne_nil hlist.ne_nil
    exact ⟨some hashes, d, .inr ⟨hmore, hashes, rfl, hread⟩, none, d, .inl ⟨hlast rfl, rfl, rfl⟩,
      pure_eq_ok_iff.2 ⟨rfl, rfl⟩⟩
  | @signed hashes signature list blob hlist hsig =>
    obtain ⟨middle, hpass', hpass''⟩ := Cursor.passes_append.1 hpass'
    have hread := (readTransactions_recognizes limit hashes behind middle).2
      ⟨list, ⟨hfits hashes rfl, hlist⟩, hpass'⟩
    have hread' := (readSignatures_recognizes signature middle d).2 ⟨blob, hsig, hpass''⟩
    have hmore := hpass'.rest_ne_nil hlist.ne_nil
    have hmore' := hpass''.rest_ne_nil hsig.ne_nil
    exact ⟨some hashes, middle, .inr ⟨hmore, hashes, rfl, hread⟩, some signature, d,
      .inr ⟨hmore', signature, rfl, hread'⟩, pure_eq_ok_iff.2 ⟨rfl, rfl⟩⟩

/-- **Reading the sections takes exactly the wire forms of blocks.** -/
theorem read_iff {limit : Nat} {s : Sections} {c d : Cursor} :
    read limit c = .ok s d ↔ ∃ used, s.Form limit used d.rest ∧ c.Passes used d := by
  constructor
  · exact exists_form_of_read
  · rintro ⟨used, hform, hpass⟩
    exact hform.read hpass

/-! ## Refusals -/

/-- **A refusal for want of octets or for a list beyond the limit.** -/
def IsRefusal (limit : Nat) (e : WireError) : Prop :=
  e.IsTruncated ∨ ∃ size, e = .blockTooLarge size limit

theorem readTransactions_refuses (limit : Nat) :
    Refuses (readTransactions CompactSize.readLength limit) (IsRefusal limit) := by
  refine ((CompactSize.readLength_refuses 32).mono fun _ => .inl).bind fun n => ?_
  split
  · exact refuses_throw (.inr ⟨_, rfl⟩)
  · exact ((fixed_refuses 32).times n).mono fun _ => .inl

theorem readSignatures_refuses :
    Refuses (readSignatures CompactSize.readLength) WireError.IsTruncated :=
  (CompactSize.readLength_refuses 1).bind fun n => (octets_refuses n).bind fun _ => refuses_pure _

theorem read_refuses (limit : Nat) : Refuses (read limit) (IsRefusal limit) := by
  refine (Header.read_refuses.mono fun _ => .inl).bind fun _ => ?_
  refine (optional_refuses (readTransactions_refuses limit)).bind fun _ => ?_
  exact (optional_refuses (readSignatures_refuses.mono fun _ => .inl)).bind fun _ => refuses_pure _

end Sections

end AnchoredLedger
