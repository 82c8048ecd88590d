/-!
# Hexadecimal text

Bytes are written as two lower-case digits each. Reading takes either case, and names the
first fault : an odd number of bytes in the text, else the first byte that is no digit, with
its position. Positions count bytes of the text's encoding.
-/

namespace Handover

/-- A sequence of bytes. -/
abbrev Bytes := List UInt8

namespace Hex

/-- Why a text is not hexadecimal. -/
inductive Fault where
  | oddLength
  | invalidDigit (byte : UInt8) (index : Nat)
  deriving DecidableEq, Repr

/-- The wording of a fault. The byte is shown as the character of its number. -/
def Fault.message : Fault → String
  | .oddLength => "Odd number of digits"
  | .invalidDigit b i =>
    "Invalid character '" ++ String.singleton (Char.ofNat b.toNat) ++ "' at position " ++
      toString i

/-- The lower-case digit of a number below sixteen. -/
def digit (n : Nat) : Char :=
  if n < 10 then Char.ofNat (48 + n) else Char.ofNat (87 + n)

/-- Two digits for every byte. -/
def encode (bs : Bytes) : String :=
  String.ofList (bs.flatMap fun b => [digit (b.toNat / 16), digit (b.toNat % 16)])

/-- The value of a digit in either case. -/
def value? (b : UInt8) : Option UInt8 :=
  if 48 ≤ b ∧ b ≤ 57 then some (b - 48)
  else if 97 ≤ b ∧ b ≤ 102 then some (b - 87)
  else if 65 ≤ b ∧ b ≤ 70 then some (b - 55)
  else none

/-- Reads pairs of digits from position `i` on. -/
def decodePairs (i : Nat) : Bytes → Except Fault Bytes
  | a :: b :: rest =>
    match value? a, value? b with
    | some x, some y => (decodePairs (i + 2) rest).map fun bs => (x * 16 + y) :: bs
    | none, _ => .error (.invalidDigit a i)
    | some _, none => .error (.invalidDigit b (i + 1))
  | [b] => .error (.invalidDigit b i)
  | [] => .ok []

/-- The bytes of a hexadecimal text. -/
def decode (text : String) : Except Fault Bytes :=
  let bs := text.toUTF8.toList
  if bs.length % 2 = 1 then .error .oddLength else decodePairs 0 bs

end Hex

end Handover
