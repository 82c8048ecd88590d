import Handover.Text.Hex

/-!
# SHA-256

The message is padded to whole blocks of sixty-four bytes : one set bit, zeros, and its length
in bits. Each block runs sixty-four rounds on the state. A round uses the first word of a
window of sixteen, and the window moves on by the word that follows from it.
-/

namespace Handover.Sha256

/-- The eight words between blocks. -/
structure State where
  a : UInt32
  b : UInt32
  c : UInt32
  d : UInt32
  e : UInt32
  f : UInt32
  g : UInt32
  h : UInt32
  deriving DecidableEq, Repr

/-- The first bits of the fractions of the square roots of the first eight primes. -/
def start : State :=
  ⟨0x6a09e667, 0xbb67ae85, 0x3c6ef372, 0xa54ff53a, 0x510e527f, 0x9b05688c, 0x1f83d9ab,
    0x5be0cd19⟩

/-- The first bits of the fractions of the cube roots of the first sixty-four primes. -/
def roundConstants : List UInt32 :=
  [0x428a2f98, 0x71374491, 0xb5c0fbcf, 0xe9b5dba5, 0x3956c25b, 0x59f111f1, 0x923f82a4,
    0xab1c5ed5, 0xd807aa98, 0x12835b01, 0x243185be, 0x550c7dc3, 0x72be5d74, 0x80deb1fe,
    0x9bdc06a7, 0xc19bf174, 0xe49b69c1, 0xefbe4786, 0x0fc19dc6, 0x240ca1cc, 0x2de92c6f,
    0x4a7484aa, 0x5cb0a9dc, 0x76f988da, 0x983e5152, 0xa831c66d, 0xb00327c8, 0xbf597fc7,
    0xc6e00bf3, 0xd5a79147, 0x06ca6351, 0x14292967, 0x27b70a85, 0x2e1b2138, 0x4d2c6dfc,
    0x53380d13, 0x650a7354, 0x766a0abb, 0x81c2c92e, 0x92722c85, 0xa2bfe8a1, 0xa81a664b,
    0xc24b8b70, 0xc76c51a3, 0xd192e819, 0xd6990624, 0xf40e3585, 0x106aa070, 0x19a4c116,
    0x1e376c08, 0x2748774c, 0x34b0bcb5, 0x391c0cb3, 0x4ed8aa4a, 0x5b9cca4f, 0x682e6ff3,
    0x748f82ee, 0x78a5636f, 0x84c87814, 0x8cc70208, 0x90befffa, 0xa4506ceb, 0xbef9a3f7,
    0xc67178f2]

/-- Rotation to the right by `n` bits, for `0 < n < 32`. -/
def rotated (x : UInt32) (n : UInt32) : UInt32 :=
  (x >>> n) ||| (x <<< (32 - n))

/-- One round with the constant `k` and the word `w`. -/
def round (s : State) (k w : UInt32) : State :=
  let sum := rotated s.e 6 ^^^ rotated s.e 11 ^^^ rotated s.e 25
  let choice := (s.e &&& s.f) ^^^ ((~~~s.e) &&& s.g)
  let t := s.h + sum + choice + k + w
  let sum := rotated s.a 2 ^^^ rotated s.a 13 ^^^ rotated s.a 22
  let majority := (s.a &&& s.b) ^^^ (s.a &&& s.c) ^^^ (s.b &&& s.c)
  ⟨t + (sum + majority), s.a, s.b, s.c, s.d + t, s.e, s.f, s.g⟩

/-- The word that follows a window of sixteen. -/
def nextWord (window : List UInt32) : UInt32 :=
  let early := window.getD 1 0
  let late := window.getD 14 0
  window.getD 0 0 + (rotated early 7 ^^^ rotated early 18 ^^^ (early >>> 3)) +
    window.getD 9 0 + (rotated late 17 ^^^ rotated late 19 ^^^ (late >>> 10))

/-- The rounds for a list of constants. -/
def rounds : List UInt32 → List UInt32 → State → State
  | k :: ks, w :: ws, s => rounds ks (ws ++ [nextWord (w :: ws)]) (round s k w)
  | _, _, s => s

/-- The words of bytes, four by four, highest byte first. -/
def words : Bytes → List UInt32
  | a :: b :: c :: d :: rest =>
    ((a.toUInt32 <<< 24) ||| (b.toUInt32 <<< 16) ||| (c.toUInt32 <<< 8) ||| d.toUInt32) ::
      words rest
  | _ => []

/-- The state after one block. -/
def compress (s : State) (block : Bytes) : State :=
  let t := rounds roundConstants (words block) s
  ⟨s.a + t.a, s.b + t.b, s.c + t.c, s.d + t.d, s.e + t.e, s.f + t.f, s.g + t.g, s.h + t.h⟩

/-- The big-endian bytes of a natural number, `size` of them. -/
def bigEndian (size n : Nat) : Bytes :=
  (List.range size).map fun i => UInt8.ofNat (n >>> (8 * (size - 1 - i)))

/-- A message with its padding. -/
def padded (message : Bytes) : Bytes :=
  let length := message.length
  let zeros := (119 - length % 64) % 64
  message ++ 0x80 :: (List.replicate zeros 0 ++ bigEndian 8 (8 * length))

/-- The state after `blocks` blocks. -/
def digestBlocks : Nat → Bytes → State → State
  | 0, _, s => s
  | blocks + 1, bs, s => digestBlocks blocks (bs.drop 64) (compress s (bs.take 64))

/-- The bytes of a state. -/
def State.toBytes (s : State) : Bytes :=
  [s.a, s.b, s.c, s.d, s.e, s.f, s.g, s.h].flatMap fun w => bigEndian 4 w.toNat

/-- The digest of a message, thirty-two bytes. -/
def digest (message : Bytes) : Bytes :=
  let bs := padded message
  (digestBlocks (bs.length / 64) bs start).toBytes

end Handover.Sha256
