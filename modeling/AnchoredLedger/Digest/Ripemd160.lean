import AnchoredLedger.Digest.Sha256

/-! # RIPEMD-160

The hash with five 32-bit words of state, run in two lines of eighty steps that take the message
words in different orders and are joined at the end of each block.

* **`Digest.ripemd160 bs`** — the 20 octets of the digest, with `length_ripemd160`.
* **`Digest.hash160 bs`** — RIPEMD-160 of SHA-256, the short hash that addresses carry. -/

namespace AnchoredLedger.Digest

namespace Ripemd160

/-- **The state**: five words. -/
structure State where
  a : UInt32
  b : UInt32
  c : UInt32
  d : UInt32
  e : UInt32

/-- The word rotated to the left. -/
@[inline] def rotate (x k : UInt32) : UInt32 := (x <<< k) ||| (x >>> (32 - k))

/-- The word of four octets, least significant first. -/
@[inline] def word (p q r s : UInt8) : UInt32 :=
  (s.toUInt32 <<< 24) ||| (r.toUInt32 <<< 16) ||| (q.toUInt32 <<< 8) ||| p.toUInt32

/-- The octets of a word, least significant first. -/
def wordOctets (x : UInt32) : Octets :=
  [x.toUInt8, (x >>> 8).toUInt8, (x >>> 16).toUInt8, (x >>> 24).toUInt8]

/-- The words of a block, in order. -/
def words : Octets → List UInt32
  | p :: q :: r :: s :: rest => word p q r s :: words rest
  | _ => []

/-! ## Steps -/

/-- The five mixing functions, in the order in which the left line takes them. -/
def mix : Nat → UInt32 → UInt32 → UInt32 → UInt32
  | 0, x, y, z => x ^^^ y ^^^ z
  | 1, x, y, z => (x &&& y) ||| ((~~~ x) &&& z)
  | 2, x, y, z => (x ||| ~~~ y) ^^^ z
  | 3, x, y, z => (x &&& z) ||| (y &&& ~~~ z)
  | _, x, y, z => x ^^^ (y ||| ~~~ z)

/-- **Sixteen steps of one line**: a mixing function, a constant, and for each step the message
word it takes with the amount it rotates by. -/
structure Passage where
  /-- Which mixing function is used. -/
  mixer : Nat
  /-- The constant added in each step. -/
  constant : UInt32
  /-- Message word and rotation of each step. -/
  steps : List (Nat × UInt32)

/-- One step. -/
def step (mixer : Nat) (constant : UInt32) (message : List UInt32) (s : State)
    (choice : Nat × UInt32) : State :=
  let sum := s.a + mix mixer s.b s.c s.d + message.getD choice.1 0 + constant
  ⟨s.e, rotate sum choice.2 + s.e, s.b, rotate s.c 10, s.d⟩

/-- The steps of a passage. -/
def Passage.run (p : Passage) (message : List UInt32) (s : State) : State :=
  p.steps.foldl (step p.mixer p.constant message) s

/-- The left line. -/
def leftLine : List Passage :=
  [⟨0, 0x00000000, [(0, 11), (1, 14), (2, 15), (3, 12), (4, 5), (5, 8), (6, 7), (7, 9), (8, 11),
      (9, 13), (10, 14), (11, 15), (12, 6), (13, 7), (14, 9), (15, 8)]⟩,
    ⟨1, 0x5a827999, [(7, 7), (4, 6), (13, 8), (1, 13), (10, 11), (6, 9), (15, 7), (3, 15), (12, 7),
      (0, 12), (9, 15), (5, 9), (2, 11), (14, 7), (11, 13), (8, 12)]⟩,
    ⟨2, 0x6ed9eba1, [(3, 11), (10, 13), (14, 6), (4, 7), (9, 14), (15, 9), (8, 13), (1, 15), (2, 14),
      (7, 8), (0, 13), (6, 6), (13, 5), (11, 12), (5, 7), (12, 5)]⟩,
    ⟨3, 0x8f1bbcdc, [(1, 11), (9, 12), (11, 14), (10, 15), (0, 14), (8, 15), (12, 9), (4, 8), (13, 9),
      (3, 14), (7, 5), (15, 6), (14, 8), (5, 6), (6, 5), (2, 12)]⟩,
    ⟨4, 0xa953fd4e, [(4, 9), (0, 15), (5, 5), (9, 11), (7, 6), (12, 8), (2, 13), (10, 12), (14, 5),
      (1, 12), (3, 13), (8, 14), (11, 11), (6, 8), (15, 5), (13, 6)]⟩]

/-- The right line. -/
def rightLine : List Passage :=
  [⟨4, 0x50a28be6, [(5, 8), (14, 9), (7, 9), (0, 11), (9, 13), (2, 15), (11, 15), (4, 5), (13, 7),
      (6, 7), (15, 8), (8, 11), (1, 14), (10, 14), (3, 12), (12, 6)]⟩,
    ⟨3, 0x5c4dd124, [(6, 9), (11, 13), (3, 15), (7, 7), (0, 12), (13, 8), (5, 9), (10, 11), (14, 7),
      (15, 7), (8, 12), (12, 7), (4, 6), (9, 15), (1, 13), (2, 11)]⟩,
    ⟨2, 0x6d703ef3, [(15, 9), (5, 7), (1, 15), (3, 11), (7, 8), (14, 6), (6, 6), (9, 14), (11, 12),
      (8, 13), (12, 5), (2, 14), (10, 13), (0, 13), (4, 7), (13, 5)]⟩,
    ⟨1, 0x7a6d76e9, [(8, 15), (6, 5), (4, 8), (1, 11), (3, 14), (11, 14), (15, 6), (0, 14), (5, 6),
      (12, 9), (2, 12), (13, 9), (9, 12), (7, 5), (10, 15), (14, 8)]⟩,
    ⟨0, 0x00000000, [(12, 8), (15, 5), (10, 12), (4, 9), (1, 12), (5, 5), (8, 14), (7, 6), (6, 8),
      (2, 13), (13, 6), (14, 5), (0, 15), (3, 13), (9, 11), (11, 11)]⟩]

/-! ## Blocks -/

/-- The state before the first block. -/
def start : State := ⟨0x67452301, 0xefcdab89, 0x98badcfe, 0x10325476, 0xc3d2e1f0⟩

/-- Folds one block of 64 octets into the state: both lines start from it and are joined. -/
def absorb (s : State) (block : Octets) : State :=
  let message := words block
  let l := leftLine.foldl (fun t p => p.run message t) s
  let r := rightLine.foldl (fun t p => p.run message t) s
  ⟨s.b + l.c + r.d, s.c + l.d + r.e, s.d + l.e + r.a, s.e + l.a + r.b, s.a + l.b + r.c⟩

/-- Folds the first `n` blocks of the octets into the state. -/
def absorbBlocks : Nat → State → Octets → State
  | 0, s, _ => s
  | n + 1, s, bs => absorbBlocks n (absorb s (bs.take 64)) (bs.drop 64)

/-- The message with the marker, the zeros and its length in bits, least significant octet first. -/
def padded (bs : Octets) : Octets :=
  bs ++ 0x80 :: List.replicate (Sha256.zeroCount bs.length) 0 ++ Octets.ofNatLE 8 (8 * bs.length)

/-- The octets of a state. -/
def State.octets (s : State) : Octets :=
  wordOctets s.a ++ wordOctets s.b ++ wordOctets s.c ++ wordOctets s.d ++ wordOctets s.e

@[simp] theorem State.length_octets (s : State) : s.octets.length = 20 := by
  simp [State.octets, wordOctets]

end Ripemd160

/-! ## The digest -/

/-- **The RIPEMD-160 digest.** -/
def ripemd160 (bs : Octets) : Octets :=
  let message := Ripemd160.padded bs
  (Ripemd160.absorbBlocks (message.length / 64) Ripemd160.start message).octets

@[simp] theorem length_ripemd160 (bs : Octets) : (ripemd160 bs).length = 20 :=
  Ripemd160.State.length_octets _

/-- **The short hash** of a key or a script: RIPEMD-160 of its SHA-256. -/
def hash160 (bs : Octets) : Octets := ripemd160 (sha256 bs)

@[simp] theorem length_hash160 (bs : Octets) : (hash160 bs).length = 20 := length_ripemd160 _

end AnchoredLedger.Digest
