import Handover.Text.Hex

/-!
# Text from bytes

Bytes are read as UTF-8, character by character. A byte that starts no character is kept as a
gap, and reading goes on with the next byte. Characters have their shortest encoding, and half
a surrogate pair is none.
-/

namespace Handover.Utf8

/-- The low six bits of a byte that continues a character. -/
def continuation? (b : UInt8) : Option Nat :=
  if 0x80 ≤ b ∧ b < 0xc0 then some (b.toNat - 0x80) else none

/-- The character of two bytes. -/
def two? (a b : UInt8) : Option Char :=
  if 0xc2 ≤ a ∧ a < 0xe0 then
    (continuation? b).map fun y => Char.ofNat ((a.toNat - 0xc0) * 64 + y)
  else none

/-- The character of three bytes. -/
def three? (a b c : UInt8) : Option Char :=
  if 0xe0 ≤ a ∧ a < 0xf0 then
    match continuation? b, continuation? c with
    | some y, some z =>
      let n := ((a.toNat - 0xe0) * 64 + y) * 64 + z
      if n < 0x800 ∨ (0xd800 ≤ n ∧ n < 0xe000) then none else some (Char.ofNat n)
    | _, _ => none
  else none

/-- The character of four bytes. -/
def four? (a b c d : UInt8) : Option Char :=
  if 0xf0 ≤ a ∧ a < 0xf5 then
    match continuation? b, continuation? c, continuation? d with
    | some x, some y, some z =>
      let n := (((a.toNat - 0xf0) * 64 + x) * 64 + y) * 64 + z
      if n < 0x10000 ∨ 0x110000 ≤ n then none else some (Char.ofNat n)
    | _, _, _ => none
  else none

/-- The first character and what follows it, or a gap of one byte. -/
def step (a : UInt8) (rest : Bytes) : Option Char × Nat :=
  if a < 0x80 then (some (Char.ofNat a.toNat), 0)
  else
    match rest with
    | [] => (none, 0)
    | b :: rest =>
      match two? a b with
      | some c => (some c, 1)
      | none =>
        match rest with
        | [] => (none, 0)
        | c :: rest =>
          match three? a b c with
          | some c => (some c, 2)
          | none =>
            match rest with
            | [] => (none, 0)
            | d :: _ =>
              match four? a b c d with
              | some c => (some c, 3)
              | none => (none, 0)

/-- The characters of bytes, with the first `skip` bytes left out. -/
def decodeFrom : Nat → Bytes → List (Option Char)
  | _, [] => []
  | 0, a :: rest =>
    let (c, skip) := step a rest
    c :: decodeFrom skip rest
  | skip + 1, _ :: rest => decodeFrom skip rest

/-- The characters of bytes, with gaps. -/
def decode (bs : Bytes) : List (Option Char) :=
  decodeFrom 0 bs

/-- The text of bytes without gaps. -/
def text? (bs : Bytes) : Option String :=
  ((decode bs).mapM id).map String.ofList

/-- The bytes of a text. -/
def encode (s : String) : Bytes :=
  s.toUTF8.toList

end Handover.Utf8
