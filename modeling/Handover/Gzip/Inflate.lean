import Handover.Gzip.Huffman
import Handover.Text.Hex

/-!
# Compressed data

Compressed data is a sequence of blocks of bits, the lowest bit of each byte first. A block is
stored as it is, or is a sequence of symbols in fixed or in its own prefix codes, each a byte
or a length and distance of an earlier run to repeat. Before the start there are zeros.

Decompression stops at the end of the last block, where the input ends, where it is corrupt,
or where a byte would go past a given limit of output. What was put out until then is kept.
-/

namespace Handover.Gzip

/-- Why decompression stops. -/
inductive Stop where
  | finished
  | truncated
  | full
  | corrupt
  deriving DecidableEq, Repr

/-- The bits to read, how many bytes may be put out, and the output. -/
structure Inflater where
  bits : List Bool
  room : Nat
  output : Array UInt8

/-- A step of decompression, which may stop. -/
abbrev Inflation (α : Type) := ExceptT Stop (StateM Inflater) α

/-- The bits of bytes. -/
def bitsOf (bs : Bytes) : List Bool :=
  bs.flatMap fun b => (List.range 8).map fun i => b.toNat.testBit i

/-- The number of the first `n` bits, lowest first, and the bits after them. -/
def splitBits : Nat → List Bool → Option (Nat × List Bool)
  | 0, bits => some (0, bits)
  | _ + 1, [] => none
  | n + 1, b :: bits => (splitBits n bits).map fun (m, rest) => (b.toNat + 2 * m, rest)

namespace Inflation

/-- Takes a number of some bits. -/
def takeBits (n : Nat) : Inflation Nat := do
  let s ← get
  match splitBits n s.bits with
  | none => throw .truncated
  | some (m, rest) =>
    set { s with bits := rest }
    return m

/-- Takes a symbol of a code. -/
def takeSymbol (code : PrefixCode) : Inflation Nat := do
  let s ← get
  match code.read s.bits with
  | .symbol n rest => set { s with bits := rest }; return n
  | .truncated => throw .truncated
  | .invalid => throw .corrupt

/-- Puts out a byte. -/
def emit (b : UInt8) : Inflation Unit := do
  let s ← get
  if s.room = 0 then throw .full
  else set { s with room := s.room - 1, output := s.output.push b }

/-- Repeats output from a distance back. -/
def repeatFrom (distance : Nat) : Nat → Inflation Unit
  | 0 => return ()
  | length + 1 => do
    let s ← get
    emit (if distance ≤ s.output.size then s.output.getD (s.output.size - distance) 0 else 0)
    repeatFrom distance length

/-- Stored bytes. -/
def stored : Nat → Inflation Unit
  | 0 => return ()
  | n + 1 => do
    let s ← get
    if s.room = 0 then throw .full
    else
      emit (UInt8.ofNat (← takeBits 8))
      stored n

/-- First length and number of further bits, for the length symbols. -/
def lengthBases : List (Nat × Nat) :=
  [(3, 0), (4, 0), (5, 0), (6, 0), (7, 0), (8, 0), (9, 0), (10, 0), (11, 1), (13, 1), (15, 1),
    (17, 1), (19, 2), (23, 2), (27, 2), (31, 2), (35, 3), (43, 3), (51, 3), (59, 3), (67, 4),
    (83, 4), (99, 4), (115, 4), (131, 5), (163, 5), (195, 5), (227, 5), (258, 0)]

/-- First distance and number of further bits, for the distance symbols. -/
def distanceBases : List (Nat × Nat) :=
  [(1, 0), (2, 0), (3, 0), (4, 0), (5, 1), (7, 1), (9, 2), (13, 2), (17, 3), (25, 3), (33, 4),
    (49, 4), (65, 5), (97, 5), (129, 6), (193, 6), (257, 7), (385, 7), (513, 8), (769, 8),
    (1025, 9), (1537, 9), (2049, 10), (3073, 10), (4097, 11), (6145, 11), (8193, 12),
    (12289, 12), (16385, 13), (24577, 13)]

/-- A base and the further bits on top. -/
def takeFrom (bases : List (Nat × Nat)) (symbol : Nat) : Inflation Nat := do
  match bases[symbol]? with
  | none => throw .corrupt
  | some (base, bits) => return base + (← takeBits bits)

/-- The symbols of a block up to its end. -/
def symbols (literals distances : PrefixCode) : Nat → Inflation Unit
  | 0 => throw .truncated
  | fuel + 1 => do
    let symbol ← takeSymbol literals
    if symbol = 256 then return ()
    else
      if symbol < 256 then emit (UInt8.ofNat symbol)
      else
        let length ← takeFrom lengthBases (symbol - 257)
        let distance ← takeFrom distanceBases (← takeSymbol distances)
        repeatFrom distance length
      symbols literals distances fuel

/-- The code of a list of lengths. It has to be complete unless at most one symbol has a
code. -/
def codeOf (lengths : List Nat) : Inflation PrefixCode :=
  let code := PrefixCode.ofLengths lengths
  if code.isComplete || lengths.countP (0 < ·) ≤ 1 then return code else throw .corrupt

/-- The fixed codes. -/
def fixedCodes : PrefixCode × PrefixCode :=
  (.ofLengths (List.replicate 144 8 ++ List.replicate 112 9 ++ List.replicate 24 7 ++
    List.replicate 8 8), .ofLengths (List.replicate 32 5))

/-- The symbols in whose order the lengths for the code of lengths come. -/
def lengthOrder : List Nat :=
  [16, 17, 18, 0, 8, 7, 9, 6, 10, 5, 11, 4, 12, 3, 13, 2, 14, 1, 15]

/-- Lengths of codes, in a code of their own with runs, latest first, until there are
`total` of them. -/
def lengths (code : PrefixCode) (total : Nat) : Nat → List Nat → Inflation (List Nat)
  | 0, _ => throw .truncated
  | fuel + 1, acc => do
    if total < acc.length then throw .corrupt
    else if acc.length = total then return acc.reverse
    else
      let symbol ← takeSymbol code
      if symbol < 16 then lengths code total fuel (symbol :: acc)
      else if symbol = 16 then
        match acc with
        | [] => throw .corrupt
        | last :: _ =>
          lengths code total fuel (List.replicate (3 + (← takeBits 2)) last ++ acc)
      else if symbol = 17 then
        lengths code total fuel (List.replicate (3 + (← takeBits 3)) 0 ++ acc)
      else lengths code total fuel (List.replicate (11 + (← takeBits 7)) 0 ++ acc)

/-- Lengths of three bits each. -/
def takeLengths : Nat → Inflation (List Nat)
  | 0 => return []
  | n + 1 => do
    let length ← takeBits 3
    return length :: (← takeLengths n)

/-- The codes of a block that brings its own. -/
def ownCodes : Inflation (PrefixCode × PrefixCode) := do
  let literals := 257 + (← takeBits 5)
  let distances := 1 + (← takeBits 5)
  let count := 4 + (← takeBits 4)
  if 286 < literals ∨ 30 < distances then throw .corrupt
  let given := lengthOrder.zip (← takeLengths count)
  let code := PrefixCode.ofLengths ((List.range 19).map fun s => (given.lookup s).getD 0)
  if !code.isComplete then throw .corrupt
  let all ← lengths code (literals + distances) (literals + distances + 1) []
  return (← codeOf (all.take literals), ← codeOf (all.drop literals))

/-- One block after its first three bits. -/
def block (kind fuel : Nat) : Inflation Unit := do
  if kind = 0 then
    let s ← get
    let _ ← takeBits (s.bits.length % 8)
    let length ← takeBits 16
    let check ← takeBits 16
    if length + check = 0xffff then stored length else throw .corrupt
  else if kind = 1 then symbols fixedCodes.1 fixedCodes.2 fuel
  else if kind = 2 then
    let (literals, distances) ← ownCodes
    symbols literals distances fuel
  else throw .corrupt

/-- All blocks. -/
def blocks : Nat → Inflation Unit
  | 0 => throw .truncated
  | fuel + 1 => do
    let last ← takeBits 1
    block (← takeBits 2) (fuel + 1)
    if last = 1 then return () else blocks fuel

end Inflation

/-- What decompression came to. -/
structure Inflated where
  stop : Stop
  output : Bytes
  /-- The bytes after the last block. -/
  rest : Bytes

/-- Decompresses at most `limit` bytes. Every block and symbol takes a bit, which bounds their
number. -/
def inflate (limit : Nat) (bs : Bytes) : Inflated :=
  let bits := bitsOf bs
  match (Inflation.blocks (bits.length + 1)).run.run ⟨bits, limit, #[]⟩ with
  | (result, s) =>
    { stop := match result with
        | .ok () => .finished
        | .error stop => stop
      output := s.output.toList
      rest := bs.drop (bs.length - s.bits.length / 8) }

end Handover.Gzip
