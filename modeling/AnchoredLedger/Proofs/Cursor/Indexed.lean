import AnchoredLedger.Cursor.Request
import AnchoredLedger.Proofs.Recognition

/-! # Reading by index

A cursor carries what lies ahead of it, so that nothing it does has a range to leave. Over a buffer that
stays in its place a read computes with an index: what remains is a difference, the end of the read is a
sum, and what it gives is a slice that is copied. Here reads are stated in this way, each computation with
its range, and they turn out to be the reads of a cursor.

* **`Cursor.Within`** — a cursor that stands in a buffer.
* **`Indexed α`** — a read by index, without any outcome if a computation leaves its range.
* **`Indexed.perform`**, **`Indexed.run`** — the read of each kind, and a sequence of them.
* **`Indexed.Follows`** — a read by index has the outcome of a read of a cursor. `Follows.bind` puts such
  reads together, `octets_follows` is the one read that computes.
* **`Indexed.perform_follows`**, **`Indexed.run_eq`** — every read, and every sequence of them. -/

namespace AnchoredLedger

/-! ## Cursors in a buffer -/

namespace Cursor

variable {c d : Cursor} {buffer form : Octets}

/-- **The cursor stands in a buffer**: not beyond its end, and with the rest of it ahead. -/
structure Within (c : Cursor) (buffer : Octets) : Prop where
  /-- No more octets lie behind than there are. -/
  position_le : c.position ≤ buffer.length
  /-- Those that lie ahead are the others. -/
  rest_eq : c.rest = buffer.drop c.position

theorem within_start (buffer : Octets) : (start buffer).Within buffer := ⟨Nat.zero_le _, rfl⟩

theorem within_of_at? {offset : Nat} (h : at? buffer offset = .ok c) : c.Within buffer := by
  unfold at? at h
  split at h
  · contradiction
  · rename_i hle
    injection h with h
    subst h
    exact ⟨Nat.not_lt.1 hle, rfl⟩

/-- What lies behind and what lies ahead make up the buffer. -/
theorem Within.position_add_remaining (h : c.Within buffer) :
    c.position + c.remaining = buffer.length := by
  have hle := h.position_le
  rw [remaining, h.rest_eq, List.length_drop]
  omega

theorem Within.advance (h : c.Within buffer) {n : Nat} (hn : n ≤ c.remaining) :
    (c.advance n).Within buffer := by
  have hlen := h.position_add_remaining
  refine ⟨?_, ?_⟩
  · rw [position_advance]
    omega
  · rw [rest_advance, position_advance, h.rest_eq, List.drop_drop]

/-- The octets between two cursors are a slice of the buffer. -/
theorem Passes.eq_take (h : c.Passes form d) (hc : c.Within buffer) :
    form = (buffer.drop c.position).take (d.position - c.position) := by
  rw [← hc.rest_eq, h.1, h.2, Nat.add_sub_cancel_left, List.take_left]

end Cursor

/-! ## Outcomes -/

/-- The outcome of the first of two reads decides whether there is a second. -/
theorem Reader.outcome_bind {α β : Type} (r : Reader α) (k : α → Reader β) (c : Cursor) :
    outcome (r >>= k) c = match outcome r c with
      | (.ok a, d) => outcome (k a) d
      | (.error e, d) => (.error e, d) := by
  change outcome (EStateM.bind r k) c = _
  unfold outcome EStateM.bind
  cases r c <;> rfl

/-! ## Reads by index -/

/-- **A read by index**: from an index to a value or a refusal, with the index after it in both cases; and
no outcome at all where a computation leaves its range. -/
abbrev Indexed (α : Type) : Type := ExceptT WireError (StateT Nat Option) α

namespace Indexed

/-- A difference, which is not to be negative. -/
def difference (n m : Nat) : Option Nat := if m ≤ n then some (n - m) else none

/-- A sum, which is to be a 64-bit word. -/
def sum (n m : Nat) : Option Nat := if n + m < 2 ^ 64 then some (n + m) else none

/-- The octets from one index up to another, which is to be no smaller and within the buffer. -/
def slice (buffer : Octets) (first stop : Nat) : Option Octets :=
  if first ≤ stop ∧ stop ≤ buffer.length then some ((buffer.take stop).drop first) else none

/-- Octets copied into an array, which is to have room for exactly them. -/
def copied (room : Nat) (bs : Octets) : Option Octets := if bs.length = room then some bs else none

variable (buffer : Octets)

/-- The next `n` octets. -/
def octets (n : Nat) : Indexed Octets := fun index => do
  let remaining ← difference buffer.length index
  if remaining < n then
    pure (.error (.truncated n remaining), index)
  else
    -- worked out only once enough is known to remain
    let stop ← sum index n
    let bs ← slice buffer index stop
    pure (.ok bs, stop)

/-- The next `n` octets, copied into an array. -/
def array (n : Nat) : Indexed Octets := do
  let bs ← octets buffer n
  copied n bs

/-- The next octet, as the first of an array. -/
def octet : Indexed UInt8 := do
  let bs ← array buffer 1
  bs[0]?

/-- The next value of fixed width. -/
def fixed (n : Nat) : Indexed (FixedOctets n) := do
  match FixedOctets.ofWire (← octets buffer n) with
  | .ok v => pure v
  | .error e => throw e

/-- The next compact size. -/
def compactSize : Indexed Nat := do
  let marker ← octet buffer
  if CompactSize.payload marker = 0 then
    pure marker.toNat
  else
    let bs ← array buffer (CompactSize.payload marker)
    pure (Octets.toNatLE bs)

/-- **The read of a kind.** -/
def perform : Request → Indexed Item
  | .octet => Item.octet <$> octet buffer
  | .word32 => Item.word32 <$> Octets.toWord32 <$> array buffer 4
  | .word64 => Item.word64 <$> Octets.toWord64 <$> array buffer 8
  | .compactSize => Item.compactSize <$> compactSize buffer
  | .hash => Item.hash <$> fixed buffer 32
  | .planKey => Item.planKey <$> fixed buffer 33
  | .octets n => Item.octets <$> octets buffer n
  | .array n => Item.octets <$> array buffer n

/-- **The index after a sequence of reads**, some of which may be refused, if all of them have an
outcome. -/
def run : List Request → Nat → Option Nat
  | [], index => some index
  | q :: qs, index => do
    let (_, after) ← perform buffer q index
    run qs after

variable {α β : Type} {buffer}

theorem bind_apply (m : Indexed α) (k : α → Indexed β) (index : Nat) :
    (m >>= k) index = (m index).bind fun
      | (.ok a, after) => k a after
      | (.error e, after) => some (.error e, after) := by
  change Option.bind (m index) _ = _
  congr 1
  funext result
  rcases result with ⟨e | a, after⟩ <;> rfl

theorem copied_of_length {room : Nat} {bs : Octets} (h : bs.length = room) :
    copied room bs = some bs := if_pos h

/-! ## Agreement with the reads of a cursor -/

variable (buffer) in
/-- **A read by index follows a read of a cursor**: from every place in the buffer it has an outcome,
which gives and refuses the same and ends at the same place, in the buffer. -/
def Follows (m : Indexed α) (r : Reader α) : Prop := ∀ c, c.Within buffer →
  (Reader.outcome r c).2.Within buffer ∧
    m c.position = some ((Reader.outcome r c).1, (Reader.outcome r c).2.position)

theorem follows_pure (a : α) : Follows buffer (pure a) (pure a) := fun _ hc => ⟨hc, rfl⟩

theorem follows_throw (e : WireError) : Follows buffer (throw e : Indexed α) (throw e) :=
  fun _ hc => ⟨hc, rfl⟩

/-- Reads one after the other; the second is asked about values that the first one gives only. -/
theorem Follows.bind {m : Indexed α} {r : Reader α} {k : α → Indexed β} {l : α → Reader β}
    (h : Follows buffer m r) (hk : ∀ a c d, r c = .ok a d → Follows buffer (k a) (l a)) :
    Follows buffer (m >>= k) (r >>= l) := by
  intro c hc
  obtain ⟨hd, hm⟩ := h c hc
  rw [Reader.outcome_bind, bind_apply, hm]
  -- a refusal is the outcome of both as it stands, and a value is handed on where both have stopped
  rcases hout : Reader.outcome r c with ⟨e | a, d⟩
  · rw [hout] at hd
    exact ⟨hd, rfl⟩
  · rw [hout] at hd
    exact hk a c d (Reader.outcome_eq_ok_iff.1 hout) d hd

theorem Follows.map {m : Indexed α} {r : Reader α} (f : α → β) (h : Follows buffer m r) :
    Follows buffer (f <$> m) (f <$> r) := by
  rw [map_eq_pure_bind, Reader.map_eq_bind]
  exact h.bind fun a _ _ _ => follows_pure (f a)

/-- What remains in a buffer is a difference. -/
theorem difference_of_within {c : Cursor} (hc : c.Within buffer) :
    difference buffer.length c.position = some c.remaining := by
  rw [difference, if_pos hc.position_le, ← hc.position_add_remaining, Nat.add_sub_cancel_left]

/-- **The read that computes.** What remains is known to hold the octets before the end of the read is
worked out, so that neither the sum nor the slice leaves its range. -/
theorem octets_follows (hlen : buffer.length < 2 ^ 63) (n : Nat) :
    Follows buffer (octets buffer n) (Reader.octets n) := by
  intro c hc
  have hremaining := difference_of_within hc
  -- the end of the buffer bounds the end of the read, and is itself far below the largest word
  have hends := hc.position_add_remaining
  rcases Nat.lt_or_ge c.remaining n with hlt | hle
  · have hout : Reader.outcome (Reader.octets n) c = (.error (.truncated n c.remaining), c) :=
      Reader.outcome_eq_error_iff.2 (Reader.octets_of_lt hlt)
    rw [hout]
    refine ⟨hc, ?_⟩
    simp [octets, hremaining, hlt]
  · have hout : Reader.outcome (Reader.octets n) c = (.ok (c.rest.take n), c.advance n) :=
      Reader.outcome_eq_ok_iff.2 (Reader.octets_of_le hle)
    rw [hout]
    refine ⟨hc.advance hle, ?_⟩
    have hstop : sum c.position n = some (c.position + n) := if_pos (by omega)
    have hslice : slice buffer c.position (c.position + n) = some (c.rest.take n) := by
      rw [slice, if_pos (by omega), hc.rest_eq, List.drop_take, Nat.add_sub_cancel_left]
    simp [octets, hremaining, Nat.not_lt.2 hle, hstop, hslice]

/-- As many octets are read as the array has room for. -/
theorem array_follows (hlen : buffer.length < 2 ^ 63) (n : Nat) :
    Follows buffer (array buffer n) (Reader.octets n) := by
  have hcopy := (octets_follows hlen n).bind (k := fun bs => copied n bs) (l := pure) ?_
  · rwa [bind_pure] at hcopy
  · intro bs c d hread
    obtain ⟨_, ⟨hn, -⟩, -⟩ := (Reader.octets_recognizes n bs c d).1 hread
    rw [copied_of_length hn]
    exact follows_pure bs

/-- An octet is the first of one. -/
theorem octet_follows (hlen : buffer.length < 2 ^ 63) : Follows buffer (octet buffer) Reader.octet := by
  have hfirst := (array_follows hlen 1).bind (k := fun bs => bs[0]?) (l := fun bs => pure (bs.headD 0)) ?_
  · have heq : (Reader.octets 1 >>= fun bs => pure (bs.headD 0)) = Reader.octet := by
      funext c
      obtain ⟨position, rest⟩ := c
      cases rest <;> rfl
    rwa [heq] at hfirst
  · intro bs c d hread
    obtain ⟨_, ⟨hn, -⟩, -⟩ := (Reader.octets_recognizes 1 bs c d).1 hread
    obtain ⟨b, rfl⟩ := List.length_eq_one_iff.1 hn
    exact follows_pure b

theorem fixed_follows (hlen : buffer.length < 2 ^ 63) (n : Nat) :
    Follows buffer (fixed buffer n) (Reader.fixed n) := by
  refine (octets_follows hlen n).bind fun bs _ _ _ => ?_
  cases FixedOctets.ofWire bs with
  | ok v => exact follows_pure v
  | error e => exact follows_throw e

theorem compactSize_follows (hlen : buffer.length < 2 ^ 63) :
    Follows buffer (compactSize buffer) CompactSize.read := by
  refine (octet_follows hlen).bind fun marker _ _ _ => ?_
  split
  · exact follows_pure _
  · exact (array_follows hlen _).bind fun bs _ _ _ => follows_pure _

/-- **Every read by index has the outcome of the read of a cursor.** -/
theorem perform_follows (hlen : buffer.length < 2 ^ 63) (q : Request) :
    Follows buffer (perform buffer q) q.perform := by
  cases q with
  | octet => exact (octet_follows hlen).map Item.octet
  | word32 => exact ((array_follows hlen 4).map Octets.toWord32).map Item.word32
  | word64 => exact ((array_follows hlen 8).map Octets.toWord64).map Item.word64
  | compactSize => exact (compactSize_follows hlen).map Item.compactSize
  | hash => exact (fixed_follows hlen 32).map Item.hash
  | planKey => exact (fixed_follows hlen 33).map Item.planKey
  | octets n => exact (octets_follows hlen n).map Item.octets
  | array n => exact (array_follows hlen n).map Item.octets

/-- Every read by index from a place in the buffer, in terms of its outcome. -/
theorem perform_eq (hlen : buffer.length < 2 ^ 63) (q : Request) {c : Cursor} (hc : c.Within buffer) :
    (q.outcome c).2.Within buffer ∧
      perform buffer q c.position = some ((q.outcome c).1, (q.outcome c).2.position) :=
  perform_follows hlen q c hc

/-- **A sequence of reads by index ends where the cursor does**, which is in the buffer. -/
theorem run_eq (hlen : buffer.length < 2 ^ 63) (qs : List Request) {c : Cursor} (hc : c.Within buffer) :
    (Request.run qs c).Within buffer ∧ run buffer qs c.position = some (Request.run qs c).position := by
  induction qs generalizing c with
  | nil => exact ⟨hc, rfl⟩
  | cons q qs ih =>
    -- a refusal does not end the sequence: the next read starts where the cursor was left
    obtain ⟨hd, hq⟩ := perform_eq hlen q hc
    rw [run, hq]
    exact ih hd

end Indexed

end AnchoredLedger
