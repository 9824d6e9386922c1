import AnchoredLedger.Block.Summary
import AnchoredLedger.Proofs.Block.Contents
import AnchoredLedger.Proofs.Calendar.Reading
import AnchoredLedger.Proofs.Hex.Texts

/-! # Summaries in JSON

Each field of a summary is read back from its form: hashes and keys from their digits, the time from its date,
and what a block does not have from null. So a summary is read back from any of its texts, and what is read
tells of the block what the block itself would.

* **`Json.reads_fixed`**, **`Header.reads_step`**, **`Summary.reads_step`** — the parts of a summary.
* **`Block.summary_survives_json`** — the summaries of reachable blocks. -/

namespace AnchoredLedger

open Json (Reads)

/-! ## Headers -/

namespace Json

theorem reads_word32 (w : UInt32) : Reads word32 (.number w.toNat) w := by
  have hbound : w.toNat ≤ 0xFFFFFFFF := Nat.le_of_lt_succ w.toNat_lt
  have hexact : w.toNat ≤ maxExact := Nat.le_trans hbound (by decide)
  have hread := (reads_natural hbound hexact).map UInt32.ofNat
  rwa [UInt32.ofNat_toNat] at hread

/-- A value of fixed width is read from its digits. -/
theorem reads_fixed {n : Nat} (v : FixedOctets n) : Reads (fixed n) (.ofFixed v) v :=
  reads_through (congrArg Except.toOption (FixedOctets.ofHex_toHex v))

end Json

/-- **A header is read** from its form. -/
theorem Header.reads_step (h : Header) : Reads step h.toJson h := by
  refine Json.reads_record (r := ⟨h.version, h.planKey, h.prevBlock, h.merkleRoot, h.prevAnchor, h.time⟩) ?_ rfl
  exact .field rfl rfl (Json.reads_word32 h.version) <| .field rfl rfl (Json.reads_fixed h.planKey) <|
    .field rfl rfl (Json.reads_fixed h.prevBlock) <| .field rfl rfl (Json.reads_fixed h.merkleRoot) <|
    .field rfl rfl (Json.reads_fixed h.prevAnchor) <| .field rfl rfl (Json.reads_word32 h.time) <| .nil _

/-! ## Summaries -/

/-- **A summary is read** from its form, if its time is read from its date and its size is kept exactly. -/
theorem Summary.reads_step {s : Summary} (htime : ∀ t ∈ s.time, Calendar.Instant.ofText? t.toText = some t)
    (hsize : s.size ≤ Json.maxExact) : Reads step s.toJson s := by
  have hdate : Reads (Json.optional (Json.through Calendar.Instant.ofText?))
      (.ofOption (fun t => .text t.toText) s.time) s.time :=
    Reads.ofOption (fun t ht => Json.reads_through (htime t ht)) fun t => nofun
  have hanchor : Reads (Json.optional (Json.fixed 32)) (.ofOption .ofFixed s.anchor) s.anchor :=
    Reads.ofOption (fun a _ => Json.reads_fixed a) fun a => nofun
  have hlist : Reads (Json.optional (Json.listOf (Json.fixed 32)))
      (.ofOption (fun hashes => .list (hashes.map .ofFixed)) s.transactions) s.transactions :=
    Reads.ofOption (fun hashes _ => Reads.listOf fun a _ => Json.reads_fixed a) fun hashes => nofun
  have hsignature : Reads (Json.optional Json.string) (.ofOption .text s.signatures) s.signatures :=
    Reads.ofOption (fun text _ => Json.reads_string text) fun text => nofun
  refine Json.reads_record
    (r := ⟨s.hash, s.header, some s.time, some s.anchor, some s.transactions, some s.signatures, s.size⟩) ?_ rfl
  exact .field rfl rfl (Json.reads_fixed s.hash) <| .field rfl rfl s.header.reads_step <|
    .field rfl rfl hdate <| .field rfl rfl hanchor <| .field rfl rfl hlist <| .field rfl rfl hsignature <|
    .field rfl rfl (Json.reads_natural hsize hsize) <| .nil _

namespace Block

/-- **The summary of a reachable block survives JSON.** The text on one line and the one over lines are texts
of its form, and each text of its form is read as what the summary says of the block: hash, header, time,
anchor, list, signature and size, there or not. The signature decodes to that of the block, the header has
the hash, and the size is the length of the wire form. -/
theorem summary_survives_json (b : Block) (hreachable : b.Reachable) (hsize : b.encode.length < 2 ^ 64) :
    (Json.Form b.summary.toJson b.summary.toJson.compact.toList ∧
      Json.Form b.summary.toJson b.summary.toJson.pretty.toList) ∧
    ∀ text : String, Json.Form b.summary.toJson text.toList →
      ∃ s, Summary.ofJson text = .ok s ∧
        s.hash = b.hash ∧ s.header = b.header ∧ s.time = some (.ofSeconds b.time) ∧ s.anchor = b.anchor ∧
        s.transactions = b.transactions ∧ s.signatures = b.signatures.map Hex.encode ∧
        s.size = b.messageSize ∧
        s.signatures.map Hex.decode = b.signatures.map .ok ∧ s.header.hash = s.hash ∧
        s.size = b.encode.length := by
  have hcoherent := hreachable.coherent
  have hexact : b.summary.size ≤ Json.maxExact := by
    have hlength : b.summary.size = b.encode.length := hcoherent.messageSize_eq
    rw [hlength]
    exact Nat.le_of_lt_succ hsize
  have htime : ∀ t ∈ b.summary.time, Calendar.Instant.ofText? t.toText = some t := by
    intro t ht
    cases ht
    exact Calendar.Instant.ofText?_ofSeconds b.time
  refine ⟨⟨Json.form_compact _, Json.form_pretty _⟩, fun text hform => ?_⟩
  refine ⟨b.summary, (Summary.reads_step htime hexact).ofText hform, rfl, rfl, rfl, rfl, rfl, rfl, rfl, ?_,
    hcoherent.hash_eq.symm, hcoherent.messageSize_eq⟩
  have hdecode : Hex.decode ∘ Hex.encode = Except.ok := by
    funext bs
    exact Hex.decode_encode bs
  show (b.signatures.map Hex.encode).map Hex.decode = _
  rw [Option.map_map, hdecode]

/-- A block of the last second there can be, with a list, an anchor and a signature, over lines; and one of a
leap day with an empty list, an empty signature and no anchor, on one line. -/
theorem summary_survives_json_leap_day :
    let b := (withVersion 0xab 0xFFFFFFFF).run
      [.setTransactions (some [.zero, .zero]), .setAnchor (some .zero), .setSignatures (some [0x30, 0x0a])]
    let c := (withVersion 0xab 951782400).run [.setTransactions (some []), .setSignatures (some [])]
    (b.Reachable ∧ b.encode.length < 2 ^ 64 ∧ ∃ s, Summary.ofJson b.summary.toJson.pretty = .ok s ∧
      s.hash = b.hash ∧ s.header = b.header ∧ s.time = some ⟨4294967295, 0⟩ ∧ s.anchor = some .zero ∧
      s.transactions = some [.zero, .zero] ∧ s.signatures.map Hex.decode = some (.ok [0x30, 0x0a]) ∧
      s.size = 205) ∧
    c.Reachable ∧ c.encode.length < 2 ^ 64 ∧ ∃ s, Summary.ofJson c.summary.toJson.compact = .ok s ∧
      s.time = some ⟨951782400, 0⟩ ∧ s.anchor = none ∧ s.transactions = some [] ∧
      s.signatures.map Hex.decode = some (.ok []) ∧ s.header.hash = s.hash ∧ s.size = 139 := by
  intro b c
  have hb : b.Reachable := (Reachable.constructed (.withVersion 0xab 0xFFFFFFFF)).run _
  have hc : c.Reachable := (Reachable.constructed (.withVersion 0xab 951782400)).run _
  have hlength : b.encode.length = 205 := by
    rw [← hb.coherent.messageSize_eq]
    decide
  have hlength' : c.encode.length = 139 := by
    rw [← hc.coherent.messageSize_eq]
    decide
  obtain ⟨⟨-, hpretty⟩, hread⟩ := summary_survives_json b hb (by rw [hlength]; decide)
  obtain ⟨⟨hcompact, -⟩, hread'⟩ := summary_survives_json c hc (by rw [hlength']; decide)
  obtain ⟨s, hs, hhash, hheader, htime, hanchor, hlist, -, -, hdecode, -, hsize⟩ := hread _ hpretty
  obtain ⟨t, ht, -, -, htime', hanchor', hlist', -, -, hdecode', hidentity, hsize'⟩ := hread' _ hcompact
  refine ⟨⟨hb, by rw [hlength]; decide, s, hs, hhash, hheader, htime, hanchor, hlist, hdecode, ?_⟩, hc,
    by rw [hlength']; decide, t, ht, htime', hanchor', hlist', hdecode', hidentity, ?_⟩
  · rw [hsize, hlength]
  · rw [hsize', hlength']

end Block

end AnchoredLedger
