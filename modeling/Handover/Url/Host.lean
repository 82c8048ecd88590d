import Handover.Url.Address
import Handover.Url.Percent
import Handover.Url.Punycode

/-!
# Hosts

A host is a name, a number, or an address in brackets. Names are lower-cased, and a label with
letters outside ASCII is written in Punycode. A name whose last label is a number has to be an
address of four bytes as a whole.
-/

namespace Handover.Host

/-- The small letter of a capital, and the plain form of a wide one. ASCII, Latin, Greek,
Cyrillic and full-width letters are known. -/
def lowered (c : Char) : Char :=
  let n := c.toNat
  let shift := fun d => Char.ofNat (n + d)
  if 0x41 ≤ n ∧ n ≤ 0x5a then shift 32
  else if n < 0xc0 then c
  else if n ≤ 0xde then if n = 0xd7 then c else shift 32
  else if n < 0x100 then c
  else if n ≤ 0x137 then if n % 2 = 0 then shift 1 else c
  else if n ≤ 0x148 then if n % 2 = 1 then shift 1 else c
  else if n ≤ 0x177 then if n % 2 = 0 then shift 1 else c
  else if n = 0x178 then 'ÿ'
  else if n ≤ 0x17e then if n % 2 = 1 then shift 1 else c
  else if n = 0x386 then 'ά'
  else if 0x388 ≤ n ∧ n ≤ 0x38a then shift 37
  else if n = 0x38c then 'ό'
  else if n = 0x38e ∨ n = 0x38f then shift 63
  else if 0x391 ≤ n ∧ n ≤ 0x3ab ∧ n ≠ 0x3a2 then shift 32
  else if 0x400 ≤ n ∧ n ≤ 0x40f then shift 80
  else if 0x410 ≤ n ∧ n ≤ 0x42f then shift 32
  else if 0x460 ≤ n ∧ n ≤ 0x481 then if n % 2 = 0 then shift 1 else c
  else if n = 0x3002 ∨ n = 0xff61 then '.'
  else if 0xff21 ≤ n ∧ n ≤ 0xff3a then Char.ofNat (n - 0xff21 + 0x61)
  else if 0xff01 ≤ n ∧ n ≤ 0xff5e then Char.ofNat (n - 0xff01 + 0x21)
  else c

/-- Characters that a name may hold and that leave no trace in it. -/
def isIgnored (c : Char) : Bool :=
  [0xad, 0x200b, 0x2060, 0xfeff].contains c.toNat || decide (0xfe00 ≤ c.toNat ∧ c.toNat ≤ 0xfe0f)

/-- Characters outside ASCII that no name holds : controls, spaces, and those of no meaning. -/
def isRefused (c : Char) : Bool :=
  let n := c.toNat
  decide (0x80 ≤ n ∧ n ≤ 0xa0) || decide (0x2000 ≤ n ∧ n ≤ 0x200f) ||
    decide (0x2028 ≤ n ∧ n ≤ 0x202f) || n == 0x3000 || decide (0xe000 ≤ n ∧ n ≤ 0xf8ff) ||
    decide (0xfff0 ≤ n ∧ n ≤ 0xffff) || decide (0xe0000 ≤ n)

/-- Characters that stand for something else in an address. -/
def isDelimiter (c : Char) : Bool :=
  decide (c.toNat ≤ 0x20) ||
    ['#', '/', ':', '<', '>', '?', '@', '[', '\\', ']', '^', '|'].contains c

/-- Whether all characters are ASCII. -/
def isAscii (cs : List Char) : Bool :=
  cs.all fun c => decide (c.toNat < 128)

/-- Whether a label in Punycode is the written form of one that needs it. -/
def isWrittenLabel (cs : List Char) : Bool :=
  match Punycode.decode? cs with
  | none => false
  | some label =>
    !isAscii label && !label.any (fun c => isRefused c || isIgnored c || lowered c != c) &&
      Punycode.encode label == cs

/-- The written form of one label. -/
def label? (cs : List Char) : Option (List Char) :=
  match cs with
  | 'x' :: 'n' :: '-' :: '-' :: rest =>
    if isAscii rest && isWrittenLabel rest then some cs else none
  | _ => some (if isAscii cs then cs else 'x' :: 'n' :: '-' :: '-' :: Punycode.encode cs)

/-- The written form of a name. -/
def name? (cs : List Char) : Option (List Char) := do
  let cs := (cs.filter fun c => !isIgnored c).map lowered
  if cs.any isRefused then none
  else
    let labels ← (Text.splitChars '.' cs).mapM label?
    let name := ['.'].intercalate labels
    if name.isEmpty ∨ name.any fun c => isDelimiter c || c == '%' || c == '\x7f' then none
    else some name

/-- The written form of an address in brackets. -/
def bracketed? (cs : List Char) : Option String :=
  match cs.reverse with
  | ']' :: inner => (Ipv6.ofChars? inner.reverse).map fun ns => "[" ++ Ipv6.text ns ++ "]"
  | _ => none

/-- The written form of a host. Escapes in a name stand for bytes. -/
def ofChars? (cs : List Char) : Option String :=
  match cs with
  | '[' :: rest => bracketed? rest
  | _ => do
    let text ← Utf8.text? (Percent.decode (Utf8.encode (String.ofList cs)))
    let name ← name? text.toList
    if Ipv4.endsInNumber name then (Ipv4.ofChars? name).map Ipv4.text
    else some (String.ofList name)

/-- Whether characters are the host of an address of another kind, where names are taken as
they are. -/
def isOpaque (cs : List Char) : Bool :=
  match cs with
  | '[' :: rest => (bracketed? rest).isSome
  | _ => !cs.any fun c => isDelimiter c && (c.toNat == 0 || decide (0x20 ≤ c.toNat))

end Handover.Host
