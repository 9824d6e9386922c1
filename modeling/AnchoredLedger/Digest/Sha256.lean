import AnchoredLedger.Octets

/-! # SHA-256

The secure hash with eight 32-bit words of state: the message is padded to blocks of 64 octets and
each block is folded into the state by 64 rounds. The message words of the rounds are made as they
are needed, from a window of the sixteen latest.

* **`Digest.sha256 bs`** — the 32 octets of the digest, with `length_sha256`.
* **`Digest.doubleSha256 bs`** — the digest of the digest. -/

namespace AnchoredLedger.Digest

namespace Sha256

/-! ## State and words -/

/-- **The state**: eight words. -/
structure State where
  a : UInt32
  b : UInt32
  c : UInt32
  d : UInt32
  e : UInt32
  f : UInt32
  g : UInt32
  h : UInt32

/-- The sixteen latest message words, oldest first. -/
structure Window where
  w0 : UInt32
  w1 : UInt32
  w2 : UInt32
  w3 : UInt32
  w4 : UInt32
  w5 : UInt32
  w6 : UInt32
  w7 : UInt32
  w8 : UInt32
  w9 : UInt32
  w10 : UInt32
  w11 : UInt32
  w12 : UInt32
  w13 : UInt32
  w14 : UInt32
  w15 : UInt32

/-- The word rotated to the right. -/
@[inline] def rotate (x k : UInt32) : UInt32 := (x >>> k) ||| (x <<< (32 - k))

/-- The word of four octets, most significant first. -/
@[inline] def word (p q r s : UInt8) : UInt32 :=
  (p.toUInt32 <<< 24) ||| (q.toUInt32 <<< 16) ||| (r.toUInt32 <<< 8) ||| s.toUInt32

/-- The octets of a word, most significant first. -/
def wordOctets (x : UInt32) : Octets :=
  [(x >>> 24).toUInt8, (x >>> 16).toUInt8, (x >>> 8).toUInt8, x.toUInt8]

/-- The words of a block, in order. -/
def words : Octets → List UInt32
  | p :: q :: r :: s :: rest => word p q r s :: words rest
  | _ => []

/-- The window that a block opens with. -/
def Window.ofBlock (block : Octets) : Window :=
  match words block with
  | [w0, w1, w2, w3, w4, w5, w6, w7, w8, w9, w10, w11, w12, w13, w14, w15] =>
    ⟨w0, w1, w2, w3, w4, w5, w6, w7, w8, w9, w10, w11, w12, w13, w14, w15⟩
  | _ => ⟨0, 0, 0, 0, 0, 0, 0, 0, 0, 0, 0, 0, 0, 0, 0, 0⟩

/-- The window one word further on: the new word mixes four of the sixteen. -/
@[inline] def Window.slide (w : Window) : Window :=
  let s0 := rotate w.w1 7 ^^^ rotate w.w1 18 ^^^ (w.w1 >>> 3)
  let s1 := rotate w.w14 17 ^^^ rotate w.w14 19 ^^^ (w.w14 >>> 10)
  ⟨w.w1, w.w2, w.w3, w.w4, w.w5, w.w6, w.w7, w.w8, w.w9, w.w10, w.w11, w.w12, w.w13, w.w14, w.w15,
    w.w0 + s0 + w.w9 + s1⟩

/-! ## Rounds and blocks -/

/-- The constant added in each of the 64 rounds. -/
def roundConstants : List UInt32 :=
  [0x428a2f98, 0x71374491, 0xb5c0fbcf, 0xe9b5dba5, 0x3956c25b, 0x59f111f1, 0x923f82a4, 0xab1c5ed5,
    0xd807aa98, 0x12835b01, 0x243185be, 0x550c7dc3, 0x72be5d74, 0x80deb1fe, 0x9bdc06a7, 0xc19bf174,
    0xe49b69c1, 0xefbe4786, 0x0fc19dc6, 0x240ca1cc, 0x2de92c6f, 0x4a7484aa, 0x5cb0a9dc, 0x76f988da,
    0x983e5152, 0xa831c66d, 0xb00327c8, 0xbf597fc7, 0xc6e00bf3, 0xd5a79147, 0x06ca6351, 0x14292967,
    0x27b70a85, 0x2e1b2138, 0x4d2c6dfc, 0x53380d13, 0x650a7354, 0x766a0abb, 0x81c2c92e, 0x92722c85,
    0xa2bfe8a1, 0xa81a664b, 0xc24b8b70, 0xc76c51a3, 0xd192e819, 0xd6990624, 0xf40e3585, 0x106aa070,
    0x19a4c116, 0x1e376c08, 0x2748774c, 0x34b0bcb5, 0x391c0cb3, 0x4ed8aa4a, 0x5b9cca4f, 0x682e6ff3,
    0x748f82ee, 0x78a5636f, 0x84c87814, 0x8cc70208, 0x90befffa, 0xa4506ceb, 0xbef9a3f7, 0xc67178f2]

/-- The state before the first block. -/
def start : State :=
  ⟨0x6a09e667, 0xbb67ae85, 0x3c6ef372, 0xa54ff53a, 0x510e527f, 0x9b05688c, 0x1f83d9ab, 0x5be0cd19⟩

/-- One round with constant `k` and message word `w`. -/
@[inline] def round (s : State) (k w : UInt32) : State :=
  let s1 := rotate s.e 6 ^^^ rotate s.e 11 ^^^ rotate s.e 25
  let choice := (s.e &&& s.f) ^^^ ((~~~ s.e) &&& s.g)
  let t1 := s.h + s1 + choice + k + w
  let s0 := rotate s.a 2 ^^^ rotate s.a 13 ^^^ rotate s.a 22
  let majority := (s.a &&& s.b) ^^^ (s.a &&& s.c) ^^^ (s.b &&& s.c)
  ⟨t1 + (s0 + majority), s.a, s.b, s.c, s.d + t1, s.e, s.f, s.g⟩

/-- The rounds of a block, one for each constant, with the window sliding along. -/
def rounds : List UInt32 → State → Window → State
  | [], s, _ => s
  | k :: ks, s, w => rounds ks (round s k w.w0) w.slide

/-- Folds one block of 64 octets into the state. -/
def absorb (s : State) (block : Octets) : State :=
  let t := rounds roundConstants s (Window.ofBlock block)
  ⟨s.a + t.a, s.b + t.b, s.c + t.c, s.d + t.d, s.e + t.e, s.f + t.f, s.g + t.g, s.h + t.h⟩

/-- Folds the first `n` blocks of the octets into the state. -/
def absorbBlocks : Nat → State → Octets → State
  | 0, s, _ => s
  | n + 1, s, bs => absorbBlocks n (absorb s (bs.take 64)) (bs.drop 64)

/-- How many zeros follow the marker octet, so that the length ends a block. -/
def zeroCount (length : Nat) : Nat := (119 - length % 64) % 64

/-- The message with the marker, the zeros and its length in bits. -/
def padded (bs : Octets) : Octets :=
  bs ++ 0x80 :: List.replicate (zeroCount bs.length) 0 ++ Octets.ofNatBE 8 (8 * bs.length)

/-- The octets of a state. -/
def State.octets (s : State) : Octets :=
  wordOctets s.a ++ wordOctets s.b ++ wordOctets s.c ++ wordOctets s.d ++ wordOctets s.e
    ++ wordOctets s.f ++ wordOctets s.g ++ wordOctets s.h

@[simp] theorem State.length_octets (s : State) : s.octets.length = 32 := by
  simp [State.octets, wordOctets]

end Sha256

/-! ## The digest -/

/-- **The SHA-256 digest.** -/
def sha256 (bs : Octets) : Octets :=
  let message := Sha256.padded bs
  (Sha256.absorbBlocks (message.length / 64) Sha256.start message).octets

@[simp] theorem length_sha256 (bs : Octets) : (sha256 bs).length = 32 :=
  Sha256.State.length_octets _

/-- **The digest of the digest**: identity of headers, transactions and tree nodes. -/
def doubleSha256 (bs : Octets) : Octets := sha256 (sha256 bs)

@[simp] theorem length_doubleSha256 (bs : Octets) : (doubleSha256 bs).length = 32 :=
  length_sha256 _

end AnchoredLedger.Digest
