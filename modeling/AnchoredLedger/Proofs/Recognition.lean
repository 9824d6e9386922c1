import AnchoredLedger.Cursor
import AnchoredLedger.Proofs.Octets

/-! # Grammars and the reads that recognize them

A grammar says which octets are a form of which value, without saying how to find that out. A read
recognizes a grammar if it succeeds exactly where a form stands, and stops right behind it.

* **`Grammar α`** — the forms of the values of a type; **`Grammar.Items`** — forms one after another.
* **`Cursor.Passes`** — how far apart two cursors stand.
* **`Reader.Recognizes`** — a read against a grammar. `Recognizes.bind`, `Recognizes.map` and
  `Recognizes.times` put reads together as their grammars are put together, and `Recognizes.unique`
  says that octets are cut up in one way only.
* **`Reader.Refuses`** — what holds of all refusals of a read; those of the reads of a cursor are all
  for want of octets, **`WireError.IsTruncated`**.
* **`Reader.Atomic`** — a read that is refused for want of octets only, where the cursor stood and stands
  still. -/

namespace AnchoredLedger

/-- **A grammar**: which octets are a form of which value. -/
abbrev Grammar (α : Type) : Type := α → Octets → Prop

/-- **Forms one after another**, one for each value of a list. -/
inductive Grammar.Items {α : Type} (G : Grammar α) : Grammar (List α)
  /-- No values, no octets. -/
  | nil : Items G [] []
  /-- The form of the first value, then the forms of the others. -/
  | cons {a : α} {as : List α} {first others : Octets} (head : G a first)
      (tail : Items G as others) : Items G (a :: as) (first ++ others)

/-- Where each value has one form, the forms of a list are joined. -/
theorem Grammar.items_eq_flatMap {α : Type} (encode : α → Octets) {as : List α} {form : Octets} :
    Grammar.Items (fun a form => form = encode a) as form ↔ form = as.flatMap encode := by
  constructor
  · intro h
    induction h with
    | nil => rfl
    | cons head _ ih => rw [List.flatMap_cons, head, ih]
  · rintro rfl
    induction as with
    | nil => exact .nil
    | cons a as ih => exact .cons rfl ih

/-! ## Cursors apart -/

namespace Cursor

variable {c d : Cursor} {form : Octets}

/-- **The second cursor stands behind the octets** that lie ahead of the first. -/
def Passes (c : Cursor) (form : Octets) (d : Cursor) : Prop :=
  c.rest = form ++ d.rest ∧ d.position = c.position + form.length

theorem passes_front (position : Nat) (form rest : Octets) :
    Passes ⟨position, form ++ rest⟩ form ⟨position + form.length, rest⟩ := ⟨rfl, rfl⟩

@[simp] theorem passes_nil : c.Passes [] d ↔ d = c := by
  cases c
  cases d
  simp [Passes, and_comm, eq_comm]

theorem passes_append {xs ys : Octets} :
    c.Passes (xs ++ ys) d ↔ ∃ between, c.Passes xs between ∧ between.Passes ys d := by
  constructor
  · rintro ⟨hrest, hpos⟩
    -- the cursor between stands right behind the first octets
    refine ⟨⟨c.position + xs.length, ys ++ d.rest⟩, ⟨by simpa using hrest, rfl⟩, rfl, ?_⟩
    simpa [Nat.add_assoc] using hpos
  · rintro ⟨between, ⟨hrest, hpos⟩, hrest', hpos'⟩
    refine ⟨by rw [hrest, hrest', List.append_assoc], ?_⟩
    rw [hpos', hpos, List.length_append, Nat.add_assoc]

theorem Passes.remaining_eq (h : c.Passes form d) : c.remaining = form.length + d.remaining := by
  rw [remaining, remaining, h.1, List.length_append]

theorem Passes.rest_ne_nil (h : c.Passes form d) (hform : form ≠ []) : c.rest ≠ [] := by
  rw [h.1]
  exact List.append_ne_nil_of_left_ne_nil hform _

end Cursor

/-! ## Recognition -/

namespace Reader

variable {α β : Type} {r : Reader α} {G H : Grammar α}

/-- **A read recognizes a grammar**: it succeeds exactly where a form of the grammar stands, with the
value of that form, and stops right behind it. -/
def Recognizes (r : Reader α) (G : Grammar α) : Prop :=
  ∀ a c d, r c = .ok a d ↔ ∃ form, G a form ∧ c.Passes form d

/-- A form is read whatever stands behind it. -/
theorem Recognizes.read (h : Recognizes r G) {a : α} {form : Octets} (hform : G a form)
    (position : Nat) (rest : Octets) :
    r ⟨position, form ++ rest⟩ = .ok a ⟨position + form.length, rest⟩ :=
  (h a _ _).2 ⟨form, hform, Cursor.passes_front position form rest⟩

/-- Octets are cut into a form and what follows it in one way only, and a form has one value. -/
theorem Recognizes.unique (h : Recognizes r G) {a b : α} {xs ys rest rest' : Octets}
    (ha : G a xs) (hb : G b ys) (heq : xs ++ rest = ys ++ rest') :
    a = b ∧ xs = ys ∧ rest = rest' := by
  -- the same octets are read both times, and reading has one outcome
  have hread := h.read ha 0 rest
  rw [heq, h.read hb 0 rest'] at hread
  injection hread with hab hcursor
  injection hcursor with _ hrest
  subst hrest
  exact ⟨hab.symm, List.append_cancel_right heq, rfl⟩

theorem Recognizes.congr (h : Recognizes r G) (hG : ∀ a form, G a form ↔ H a form) :
    Recognizes r H := by
  intro a c d
  simp only [h a c d, hG]

/-! ## Reads put together -/

theorem bind_eq_ok_iff {k : α → Reader β} {b : β} {c d : Cursor} :
    (r >>= k) c = .ok b d ↔ ∃ a between, r c = .ok a between ∧ k a between = .ok b d := by
  change EStateM.bind r k c = _ ↔ _
  unfold EStateM.bind
  cases r c <;> simp [and_assoc]

theorem bind_eq_error_iff {k : α → Reader β} {e : WireError} {c d : Cursor} :
    (r >>= k) c = .error e d ↔
      r c = .error e d ∨ ∃ a between, r c = .ok a between ∧ k a between = .error e d := by
  change EStateM.bind r k c = _ ↔ _
  unfold EStateM.bind
  cases r c <;> simp [and_assoc]

theorem map_eq_bind (f : α → β) (r : Reader α) : f <$> r = r >>= fun a => pure (f a) := by
  funext c
  change EStateM.map f r c = EStateM.bind r _ c
  unfold EStateM.map EStateM.bind
  cases r c <;> rfl

theorem pure_eq_ok_iff {a b : α} {c d : Cursor} :
    (pure a : Reader α) c = .ok b d ↔ b = a ∧ d = c := by
  change EStateM.Result.ok a c = .ok b d ↔ _
  simp [eq_comm]

theorem map_eq_ok_iff {f : α → β} {b : β} {c d : Cursor} :
    (f <$> r) c = .ok b d ↔ ∃ a, b = f a ∧ r c = .ok a d := by
  simp only [map_eq_bind, bind_eq_ok_iff, pure_eq_ok_iff]
  constructor
  · rintro ⟨a, _, ha, hb, rfl⟩
    exact ⟨a, hb, ha⟩
  · rintro ⟨a, hb, ha⟩
    exact ⟨a, d, ha, hb, rfl⟩

theorem map_eq_error_iff {f : α → β} {e : WireError} {c d : Cursor} :
    (f <$> r) c = .error e d ↔ r c = .error e d := by
  change EStateM.map f r c = _ ↔ _
  unfold EStateM.map
  cases r c <;> simp

theorem recognizes_pure (a : α) : Recognizes (pure a) fun b form => b = a ∧ form = [] := by
  intro b c d
  simp [pure_eq_ok_iff, and_assoc]

theorem recognizes_throw (e : WireError) : Recognizes (throw e : Reader α) fun _ _ => False := by
  intro a c d
  simp [throw, throwThe, MonadExceptOf.throw, EStateM.throw]

/-- What one read recognizes, and behind it what the next one recognizes. -/
theorem Recognizes.bind {k : α → Reader β} {K : α → Grammar β} (hr : Recognizes r G)
    (hk : ∀ a, Recognizes (k a) (K a)) :
    Recognizes (r >>= k) fun b form => ∃ a xs ys, G a xs ∧ K a b ys ∧ form = xs ++ ys := by
  intro b c d
  rw [bind_eq_ok_iff]
  constructor
  · rintro ⟨a, between, ha, hb⟩
    obtain ⟨xs, hxs, hpass⟩ := (hr a c between).1 ha
    obtain ⟨ys, hys, hpass'⟩ := (hk a b between d).1 hb
    exact ⟨xs ++ ys, ⟨a, xs, ys, hxs, hys, rfl⟩, Cursor.passes_append.2 ⟨between, hpass, hpass'⟩⟩
  · rintro ⟨_, ⟨a, xs, ys, hxs, hys, rfl⟩, hpass⟩
    obtain ⟨between, hpass, hpass'⟩ := Cursor.passes_append.1 hpass
    exact ⟨a, between, (hr a c between).2 ⟨xs, hxs, hpass⟩, (hk a b between d).2 ⟨ys, hys, hpass'⟩⟩

theorem Recognizes.map (f : α → β) (hr : Recognizes r G) :
    Recognizes (f <$> r) fun b form => ∃ a, G a form ∧ b = f a := by
  intro b c d
  rw [map_eq_ok_iff]
  constructor
  · rintro ⟨a, hb, ha⟩
    obtain ⟨form, hform, hpass⟩ := (hr a c d).1 ha
    exact ⟨form, ⟨a, hform, hb⟩, hpass⟩
  · rintro ⟨form, ⟨a, hform, hb⟩, hpass⟩
    exact ⟨a, hb, (hr a c d).2 ⟨form, hform, hpass⟩⟩

/-- The same read `n` times over recognizes `n` forms one after another. -/
theorem Recognizes.times (hr : Recognizes r G) (n : Nat) :
    Recognizes (Reader.times r n) fun as form => as.length = n ∧ G.Items as form := by
  induction n with
  | zero =>
    refine (recognizes_pure []).congr fun as form => ?_
    constructor
    · rintro ⟨rfl, rfl⟩
      exact ⟨rfl, .nil⟩
    · rintro ⟨hlen, h⟩
      cases h with
      | nil => exact ⟨rfl, rfl⟩
      | cons => simp at hlen
  | succ n ih =>
    refine (hr.bind fun a => ih.bind fun as => recognizes_pure (a :: as)).congr fun as form => ?_
    constructor
    · rintro ⟨a, first, _, hfirst, ⟨as, others, _, ⟨hlen, hothers⟩, ⟨rfl, rfl⟩, rfl⟩, rfl⟩
      rw [List.append_nil]
      exact ⟨by rw [List.length_cons, hlen], .cons hfirst hothers⟩
    · rintro ⟨hlen, h⟩
      cases h with
      | nil => simp at hlen
      | @cons a as first others hfirst hothers =>
        exact ⟨a, first, others, hfirst,
          ⟨as, others, [], ⟨by simpa using hlen, hothers⟩, ⟨rfl, rfl⟩, by simp⟩, rfl⟩

/-! ## Refusals -/

/-- **What holds of all refusals of a read.** -/
def Refuses (r : Reader α) (E : WireError → Prop) : Prop := ∀ e c d, r c = .error e d → E e

variable {E : WireError → Prop}

/-- A weaker property holds as well. -/
theorem Refuses.mono {F : WireError → Prop} (hr : Refuses r E) (hEF : ∀ e, E e → F e) :
    Refuses r F := fun e c d h => hEF e (hr e c d h)

theorem refuses_pure (a : α) : Refuses (pure a) E := by
  intro e c d h
  change EStateM.Result.ok a c = .error e d at h
  contradiction

theorem refuses_throw {e : WireError} (he : E e) : Refuses (throw e : Reader α) E := by
  intro e' c d h
  change EStateM.Result.error e c = .error e' d at h
  injection h with heq
  exact heq ▸ he

theorem Refuses.bind {k : α → Reader β} (hr : Refuses r E) (hk : ∀ a, Refuses (k a) E) :
    Refuses (r >>= k) E := by
  intro e c d h
  rcases bind_eq_error_iff.1 h with h | ⟨a, between, -, h⟩
  · exact hr e c d h
  · exact hk a e between d h

theorem Refuses.times (hr : Refuses r E) (n : Nat) : Refuses (Reader.times r n) E := by
  induction n with
  | zero => exact refuses_pure []
  | succ n ih => exact hr.bind fun a => ih.bind fun as => refuses_pure (a :: as)

/-! ## Reading at an offset -/

theorem parseAt_of_lt {buffer : Octets} {offset : Nat} (h : buffer.length < offset) :
    parseAt r buffer offset = .error (.truncated offset buffer.length) := by
  simp [parseAt, Cursor.at?, h]

theorem parseAt_of_le {buffer : Octets} {offset : Nat} (h : offset ≤ buffer.length) :
    parseAt r buffer offset = match r ⟨offset, buffer.drop offset⟩ with
      | .ok a d => .ok (a, d.position - offset)
      | .error e _ => .error e := by
  have hat : Cursor.at? buffer offset = .ok ⟨offset, buffer.drop offset⟩ :=
    if_neg (Nat.not_lt.2 h)
  cases hresult : r ⟨offset, buffer.drop offset⟩ <;> simp only [parseAt, hat, hresult]

theorem parseAt_eq_ok_iff {buffer : Octets} {offset : Nat} {a : α} {used : Nat} :
    parseAt r buffer offset = .ok (a, used) ↔ offset ≤ buffer.length ∧
      ∃ d, r ⟨offset, buffer.drop offset⟩ = .ok a d ∧ used = d.position - offset := by
  rcases Nat.lt_or_ge buffer.length offset with hlt | hle
  · simp [parseAt_of_lt hlt, Nat.not_le.2 hlt]
  · rw [parseAt_of_le hle]
    cases r ⟨offset, buffer.drop offset⟩ <;> simp [hle, and_assoc, eq_comm]

theorem parseAt_eq_error_iff {buffer : Octets} {offset : Nat} {e : WireError} :
    parseAt r buffer offset = .error e ↔
      (buffer.length < offset ∧ e = .truncated offset buffer.length) ∨
        (offset ≤ buffer.length ∧ ∃ d, r ⟨offset, buffer.drop offset⟩ = .error e d) := by
  rcases Nat.lt_or_ge buffer.length offset with hlt | hle
  · simp [parseAt_of_lt hlt, hlt, Nat.not_le.2 hlt, eq_comm]
  · rw [parseAt_of_le hle]
    cases r ⟨offset, buffer.drop offset⟩ <;> simp [hle, Nat.not_lt.2 hle]

end Reader

/-! ## The reads of a cursor -/

/-- **A refusal for want of octets.** -/
def WireError.IsTruncated (e : WireError) : Prop := ∃ needed remaining, e = .truncated needed remaining

/-- **A refusal for want of octets at a cursor**: it names how many remain there, and asks for more. -/
def WireError.WantsAt (e : WireError) (c : Cursor) : Prop :=
  ∃ needed, c.remaining < needed ∧ e = .truncated needed c.remaining

theorem WireError.WantsAt.isTruncated {e : WireError} {c : Cursor} (h : e.WantsAt c) : e.IsTruncated := by
  obtain ⟨needed, -, rfl⟩ := h
  exact ⟨needed, c.remaining, rfl⟩

theorem FixedOctets.ofWire_eq_ok_iff {n : Nat} {bs : Octets} {v : FixedOctets n} :
    ofWire bs = .ok v ↔ bs = v.toWire := by
  constructor
  · intro h
    by_cases hlen : bs.length = n
    · rw [ofWire_of_length hlen] at h
      injection h with h
      rw [← h, toWire, reverse, List.reverse_reverse]
    · simp [ofWire, ofOctets, hlen, Except.map] at h
  · rintro rfl
    exact ofWire_toWire v

namespace Reader

variable {α β : Type} {r : Reader α}

/-- **A read that is all or nothing**: a refusal is for want of octets where the cursor stood, and it
stands there still. -/
def Atomic (r : Reader α) : Prop := ∀ e c d, r c = .error e d → d = c ∧ e.WantsAt c

theorem Atomic.refuses (hr : Atomic r) : Refuses r WireError.IsTruncated :=
  fun e c d h => (hr e c d h).2.isTruncated

theorem Atomic.map (f : α → β) (hr : Atomic r) : Atomic (f <$> r) :=
  fun e c d h => hr e c d (map_eq_error_iff.1 h)

theorem atEnd_eq_ok_iff {b : Bool} {c d : Cursor} :
    atEnd c = .ok b d ↔ b = c.rest.isEmpty ∧ d = c := by
  simp [atEnd, Cursor.atEnd, eq_comm]

/-- The end is never refused to be looked for. -/
theorem atEnd_ne_error {e : WireError} {c d : Cursor} : atEnd c ≠ .error e d := by
  simp [atEnd]

theorem octets_recognizes (n : Nat) :
    Recognizes (octets n) fun bs form => bs.length = n ∧ form = bs := by
  intro bs c d
  constructor
  · intro h
    rcases Nat.lt_or_ge c.remaining n with hlt | hle
    · rw [octets_of_lt hlt] at h
      contradiction
    · rw [octets_of_le hle] at h
      injection h with hbs hd
      subst hbs hd
      refine ⟨c.rest.take n, ⟨List.length_take_of_le hle, rfl⟩, ?_, ?_⟩
      · exact (List.take_append_drop n c.rest).symm
      · rw [Cursor.position_advance, List.length_take_of_le hle]
  · rintro ⟨form, ⟨hlen, rfl⟩, hrest, hpos⟩
    obtain ⟨position, rest⟩ := c
    obtain ⟨position', rest'⟩ := d
    dsimp only at hrest hpos
    rw [hrest, hpos, ← hlen]
    exact octets_append position form rest'

theorem octets_atomic (n : Nat) : Atomic (octets n) := by
  intro e c d h
  rcases Nat.lt_or_ge c.remaining n with hlt | hle
  · rw [octets_of_lt hlt] at h
    cases h
    exact ⟨rfl, n, hlt, rfl⟩
  · rw [octets_of_le hle] at h
    contradiction

theorem octets_refuses (n : Nat) : Refuses (octets n) WireError.IsTruncated := (octets_atomic n).refuses

theorem octet_recognizes : Recognizes octet fun b form => form = [b] := by
  intro b c d
  obtain ⟨position, rest⟩ := c
  obtain ⟨position', rest'⟩ := d
  cases rest with
  | nil => simp [Cursor.Passes]
  | cons b' rest => simp [Cursor.Passes, and_assoc, and_comm, eq_comm]

theorem octet_atomic : Atomic octet := by
  intro e c d h
  obtain ⟨position, rest⟩ := c
  cases rest with
  | nil =>
    cases h
    exact ⟨rfl, 1, Nat.one_pos, rfl⟩
  | cons b rest => contradiction

/-- A fixed number of octets are recognized as the value they stand for, if they are its octets. -/
theorem map_octets_recognizes {α : Type} {n : Nat} {decode : Octets → α} {encode : α → Octets}
    (h : ∀ bs a, bs = encode a ↔ bs.length = n ∧ a = decode bs) :
    Recognizes (decode <$> octets n) fun a form => form = encode a := by
  refine ((octets_recognizes n).map decode).congr fun a form => ?_
  rw [h]
  constructor
  · rintro ⟨_, ⟨hlen, rfl⟩, ha⟩
    exact ⟨hlen, ha⟩
  · rintro ⟨hlen, ha⟩
    exact ⟨form, ⟨hlen, rfl⟩, ha⟩

theorem word32_recognizes : Recognizes word32 fun w form => form = Octets.word32 w :=
  map_octets_recognizes fun _ _ => Octets.eq_word32_iff

theorem word32_atomic : Atomic word32 := (octets_atomic 4).map Octets.toWord32

theorem word32_refuses : Refuses word32 WireError.IsTruncated := word32_atomic.refuses

theorem word64_recognizes : Recognizes word64 fun w form => form = Octets.word64 w :=
  map_octets_recognizes fun _ _ => Octets.eq_word64_iff

theorem word64_atomic : Atomic word64 := (octets_atomic 8).map Octets.toWord64

theorem word64_refuses : Refuses word64 WireError.IsTruncated := word64_atomic.refuses

/-- A value of fixed width is recognized by its wire form. -/
theorem fixed_recognizes (n : Nat) : Recognizes (fixed n) fun v form => form = v.toWire := by
  intro v c d
  unfold fixed
  rw [bind_eq_ok_iff]
  constructor
  · rintro ⟨bs, between, hoctets, hvalue⟩
    obtain ⟨form, ⟨hlen, rfl⟩, hpass⟩ := (octets_recognizes n bs c between).1 hoctets
    -- the octets read have the right number, so the refusal of another number cannot come up
    obtain ⟨w, hw⟩ : ∃ w : FixedOctets n, FixedOctets.ofWire form = .ok w :=
      ⟨_, FixedOctets.ofWire_of_length hlen⟩
    rw [hw] at hvalue
    obtain ⟨rfl, rfl⟩ := pure_eq_ok_iff.1 hvalue
    exact ⟨form, FixedOctets.ofWire_eq_ok_iff.1 hw, hpass⟩
  · rintro ⟨form, rfl, hpass⟩
    have hoctets := (octets_recognizes n v.toWire c d).2 ⟨_, ⟨v.length_toWire, rfl⟩, hpass⟩
    refine ⟨v.toWire, d, hoctets, ?_⟩
    rw [FixedOctets.ofWire_toWire]
    exact pure_eq_ok_iff.2 ⟨rfl, rfl⟩

/-- As many octets as a value has always are one, so there is no refusal for their number. -/
theorem fixed_atomic (n : Nat) : Atomic (fixed n) := by
  intro e c d h
  rcases bind_eq_error_iff.1 h with h | ⟨bs, between, hread, h⟩
  · exact octets_atomic n e c d h
  · obtain ⟨_, ⟨hlen, -⟩, -⟩ := (octets_recognizes n bs c between).1 hread
    rw [FixedOctets.ofWire_of_length hlen] at h
    contradiction

theorem fixed_refuses (n : Nat) : Refuses (fixed n) WireError.IsTruncated := (fixed_atomic n).refuses

end Reader

end AnchoredLedger
