import Handover.Json.Wire
import Handover.Text.Hex

/-!
# Base64 text

The standard alphabet. Writing pads to a multiple of four characters. Reading takes padding
that is short or missing, and refuses padding in excess or in the middle, unused bits that
are not zero, and any other character.
-/

namespace Handover.Base64

/-- The character of a number below sixty-four. -/
def symbol (n : Nat) : Char :=
  if n < 26 then Char.ofNat (65 + n)
  else if n < 52 then Char.ofNat (71 + n)
  else if n < 62 then Char.ofNat (n - 4)
  else if n = 62 then '+'
  else '/'

/-- The number of a character of the alphabet. -/
def value? (c : Char) : Option Nat :=
  if 'A' ≤ c ∧ c ≤ 'Z' then some (c.toNat - 65)
  else if 'a' ≤ c ∧ c ≤ 'z' then some (c.toNat - 71)
  else if '0' ≤ c ∧ c ≤ '9' then some (c.toNat + 4)
  else if c = '+' then some 62
  else if c = '/' then some 63
  else none

/-- The characters of a sequence of bytes, padded. -/
def encodeChars : Bytes → List Char
  | [] => []
  | [a] => [symbol (a.toNat / 4), symbol (a.toNat % 4 * 16), '=', '=']
  | [a, b] =>
    [symbol (a.toNat / 4), symbol (a.toNat % 4 * 16 + b.toNat / 16),
      symbol (b.toNat % 16 * 4), '=']
  | a :: b :: c :: rest =>
    symbol (a.toNat / 4) :: symbol (a.toNat % 4 * 16 + b.toNat / 16) ::
      symbol (b.toNat % 16 * 4 + c.toNat / 64) :: symbol (c.toNat % 64) :: encodeChars rest

/-- The text of a sequence of bytes. -/
def encode (bs : Bytes) : String :=
  String.ofList (encodeChars bs)

/-- The bytes of a sequence of six-bit numbers. Bits left over have to be zero. -/
def decodeValues : List Nat → Option Bytes
  | [] => some []
  | [_] => none
  | [a, b] => if b % 16 = 0 then some [UInt8.ofNat (a * 4 + b / 16)] else none
  | [a, b, c] =>
    if c % 4 = 0 then
      some [UInt8.ofNat (a * 4 + b / 16), UInt8.ofNat (b % 16 * 16 + c / 4)]
    else none
  | a :: b :: c :: d :: rest =>
    (decodeValues rest).map fun bs =>
      UInt8.ofNat (a * 4 + b / 16) :: UInt8.ofNat (b % 16 * 16 + c / 4) ::
        UInt8.ofNat (c % 4 * 64 + d) :: bs

/-- The bytes of a text. A group has four characters, and padding only completes the last. -/
def decode? (text : String) : Option Bytes :=
  let cs := text.toList
  let symbols := cs.takeWhile (· != '=')
  let padding := cs.dropWhile (· != '=')
  if padding.all (· == '=') && padding.length ≤ (4 - symbols.length % 4) % 4 then
    (symbols.mapM value?).bind decodeValues
  else none

/-- The written form of bytes in a message. -/
def toJson (bs : Bytes) : Json :=
  .str (encode bs)

/-- The bytes of a message. -/
def ofJson? (v : Json) : Option Bytes :=
  v.string?.bind decode?

end Handover.Base64
