import Handover.Text.Utf8

/-!
# Percent escapes

A character that may not stand in a part of an address is written as its bytes, each as a
percent sign and two digits. Which characters these are depends on the part. Everything outside
visible ASCII is escaped in all of them.
-/

namespace Handover.Percent

/-- The upper-case digit of a number below sixteen. -/
def digit (n : Nat) : Char :=
  if n < 10 then Char.ofNat (48 + n) else Char.ofNat (55 + n)

/-- The escape of one byte. -/
def escape (b : UInt8) : List Char :=
  ['%', digit (b.toNat / 16), digit (b.toNat % 16)]

/-- Text with the characters of a set escaped. -/
def encode (escaped : Char → Bool) (cs : List Char) : List Char :=
  cs.flatMap fun c => if escaped c then (Utf8.encode (String.singleton c)).flatMap escape else [c]

/-- The bytes of text whose escapes stand for bytes. A percent sign without two digits after it
stands for itself. -/
def decode : Bytes → Bytes
  | 0x25 :: a :: b :: rest =>
    match Hex.value? a, Hex.value? b with
    | some x, some y => (x * 16 + y) :: decode rest
    | _, _ => 0x25 :: decode (a :: b :: rest)
  | b :: rest => b :: decode rest
  | [] => []

/-! ## Sets -/

/-- Everything outside visible ASCII and the space. -/
def control (c : Char) : Bool :=
  decide (c.toNat < 0x20) || decide (0x7e < c.toNat)

/-- What is escaped in a fragment. -/
def fragment (c : Char) : Bool :=
  control c || [' ', '"', '<', '>', '\x60'].contains c

/-- What is escaped in a query. -/
def query (c : Char) : Bool :=
  control c || [' ', '"', '#', '<', '>', '\''].contains c

/-- What is escaped in a path. -/
def path (c : Char) : Bool :=
  fragment c || ['#', '?', '\x7b', '\x7d'].contains c

/-- What is escaped in the name and password of a user. -/
def user (c : Char) : Bool :=
  path c || ['/', ':', ';', '=', '@', '[', '\\', ']', '^', '|'].contains c

end Handover.Percent
