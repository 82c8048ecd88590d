import Handover.Text.Hex
import Handover.Text.Split

/-!
# Numeric addresses

A host may be a number instead of a name. An address of four bytes is written with dots, and
may be given in fewer parts, the last of which then fills the bytes that are left. Parts may be
octal or hexadecimal. An address of eight pieces is written with colons, and its longest run of
zero pieces is left out.
-/

namespace Handover

/-- The number that digits spell to a base. -/
def digitsValue (base : Nat) (ds : List Nat) : Nat :=
  ds.foldl (fun n d => n * base + d) 0

/-- The value of a digit in any base up to sixteen. -/
def digitValue? (base : Nat) (c : Char) : Option Nat :=
  match Hex.value? (UInt8.ofNat c.toNat) with
  | some d => if c.toNat < 128 ∧ d.toNat < base then some d.toNat else none
  | none => none

/-- The number that characters spell to a base. -/
def number? (base : Nat) (cs : List Char) : Option Nat :=
  (cs.mapM (digitValue? base)).map (digitsValue base)

namespace Ipv4

/-- The number that one part spells : hexadecimal after `0x`, octal after `0`. -/
def part? : List Char → Option Nat
  | [] => none
  | '0' :: 'x' :: ds => number? 16 ds
  | '0' :: 'X' :: ds => number? 16 ds
  | ['0'] => some 0
  | '0' :: ds => number? 8 ds
  | ds => number? 10 ds

/-- The parts of a host. A dot at the end does not count. -/
def parts (cs : List Char) : List (List Char) :=
  match (Text.splitChars '.' cs).reverse with
  | [] :: rest@(_ :: _) => rest.reverse
  | all => all.reverse

/-- Whether a host has to be a number : its last part is one, or at least all digits. -/
def endsInNumber (cs : List Char) : Bool :=
  match (parts cs).getLast? with
  | none => false
  | some last => (!last.isEmpty && last.all Char.isDigit) || (part? last).isSome

/-- The address that parts spell. All but the last are bytes. -/
def ofParts? : List Nat → Nat → Option Nat
  | [], _ => none
  | [last], room => if last < room then some last else none
  | byte :: rest, room =>
    if byte < 256 then (ofParts? rest (room / 256)).map fun n => byte * (room / 256) + n else none

/-- The address that a host spells. -/
def ofChars? (cs : List Char) : Option Nat := do
  let ns ← (parts cs).mapM part?
  if ns.length ≤ 4 then ofParts? ns UInt32.size else none

/-- The written form : four bytes with dots. -/
def text (n : Nat) : String :=
  ".".intercalate ([24, 16, 8, 0].map fun shift => toString ((n >>> shift) % 256))

end Ipv4

namespace Ipv6

/-- One piece : up to four digits. -/
def piece? (cs : List Char) : Option (List Nat) :=
  if cs.isEmpty ∨ 4 < cs.length then none else (number? 16 cs).map fun n => [n]

/-- One byte of a dotted ending, without zeros in front. -/
def byte? (cs : List Char) : Option Nat :=
  if cs.isEmpty ∨ (cs.head? = some '0' ∧ 1 < cs.length) then none
  else (number? 10 cs).filter fun n => decide (n < 256)

/-- Two pieces that are written as four bytes with dots. -/
def dotted? (cs : List Char) : Option (List Nat) :=
  match (Text.splitChars '.' cs).mapM byte? with
  | some [a, b, c, d] => some [a * 256 + b, c * 256 + d]
  | _ => none

/-- Pieces, the last of which may be dotted. -/
def pieces? : List (List Char) → Option (List Nat)
  | [] => some []
  | [last] => if last.contains '.' then dotted? last else piece? last
  | p :: rest => do return (← piece? p) ++ (← pieces? rest)

/-- Pieces on both sides of a gap, which stands for at least one zero piece. -/
def withGap? (left right : List (List Char)) : Option (List Nat) := do
  let l := (← left.mapM piece?).flatten
  let r ← pieces? right
  if l.length + r.length ≤ 7 then
    some (l ++ List.replicate (8 - l.length - r.length) 0 ++ r)
  else none

/-- The pieces of an address. -/
def ofChars? (cs : List Char) : Option (List Nat) :=
  let ps := Text.splitChars ':' cs
  let left := ps.takeWhile fun p => !p.isEmpty
  match left, ps.drop left.length with
  | _, [] => (pieces? ps).filter fun ns => ns.length == 8
  | [], [[], [], []] => withGap? [] []
  | [], [] :: [] :: right => if right.isEmpty then none else withGap? [] right
  | [], _ => none
  | left, [[], []] => withGap? left []
  | left, [] :: right => if right.isEmpty then none else withGap? left right
  | _, _ => none

/-- The digits of one piece. -/
def pieceText (n : Nat) : String :=
  String.ofList (Nat.toDigits 16 n)

/-- How many zero pieces a list starts with. -/
def zeros (ns : List Nat) : Nat :=
  (ns.takeWhile (· == 0)).length

/-- Where the longest run of zero pieces starts, and its length. The first of equal ones. -/
def longestGap (ns : List Nat) : Nat × Nat :=
  (List.range ns.length).foldl (fun best i =>
    let n := zeros (ns.drop i)
    if best.2 < n then (i, n) else best) (0, 0)

/-- The written form. A gap stands for two zero pieces at least. -/
def text (ns : List Nat) : String :=
  let join := fun ns : List Nat => ":".intercalate (ns.map pieceText)
  match longestGap ns with
  | (i, n) => if n < 2 then join ns else join (ns.take i) ++ "::" ++ join (ns.drop (i + n))

end Ipv6

end Handover
