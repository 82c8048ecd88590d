/-!
# Prefix codes

A canonical prefix code is given by the length of the code of each symbol, zero for symbols
without one. Codes of one length are consecutive numbers, in the order of their symbols, and
shorter codes come first. Reading takes bit after bit and compares the number so far with the
codes of its length.
-/

namespace Handover.Gzip

/-- A prefix code : the number of codes of each length from one to fifteen, and the symbols in
the order of their codes. -/
structure PrefixCode where
  counts : List Nat
  symbols : Array Nat
  deriving Repr

namespace PrefixCode

/-- The code with given lengths for the symbols from zero on. -/
def ofLengths (lengths : List Nat) : PrefixCode :=
  let sizes := List.range' 1 15
  let numbered := lengths.zipIdx
  { counts := sizes.map fun n => lengths.count n
    symbols := (sizes.flatMap fun n =>
      (numbered.filter fun s => s.1 == n).map Prod.snd).toArray }

/-- How much of the code space is left when `free` codes of the length before were left, or
`none` if there are too many codes. -/
def remaining : Nat → List Nat → Option Nat
  | free, [] => some free
  | free, count :: counts => if 2 * free < count then none else remaining (2 * free - count) counts

/-- Whether the codes fill the code space exactly. -/
def isComplete (c : PrefixCode) : Bool :=
  remaining 1 c.counts == some 0

/-- What reading a symbol comes to. -/
inductive Read where
  | symbol (s : Nat) (rest : List Bool)
  /-- The bits end inside a code. -/
  | truncated
  /-- No code starts like this. -/
  | invalid

/-- Reads a symbol. `first` is the first code of the present length, `index` its place among
all codes and `code` the number read, each before the next bit. -/
def readFrom (symbols : Array Nat) : List Nat → Nat → Nat → Nat → List Bool → Read
  | [], _, _, _, _ => .invalid
  | _, _, _, _, [] => .truncated
  | count :: counts, first, index, code, bit :: bits =>
    let code := 2 * code + bit.toNat
    if code < first + count then
      match symbols[index + (code - first)]? with
      | some s => .symbol s bits
      | none => .invalid
    else readFrom symbols counts (2 * (first + count)) (index + count) code bits

/-- Reads a symbol. -/
def read (c : PrefixCode) (bits : List Bool) : Read :=
  readFrom c.symbols c.counts 0 0 0 bits

end PrefixCode

end Handover.Gzip
