import Handover.Gzip.Crc32
import Handover.Gzip.Inflate

/-!
# Gzip files

A file starts with a header, whose flags tell which optional parts it has, then holds the
compressed data, and ends with checksum and size of what was compressed.

`unzip?` takes the whole first member and checks its end. `start?` asks only for the first
bytes. It looks at the first `32768` bytes of output at most, so that corruption further on,
an end that does not fit and a missing end go unnoticed.
-/

namespace Handover.Gzip

/-- The two bytes that gzip files start with. -/
def magic : Bytes := [0x1f, 0x8b]

/-- What follows a text that ends with a zero byte. -/
def afterZero : Bytes → Option Bytes
  | [] => none
  | b :: bs => if b = 0 then some bs else afterZero bs

/-- What follows a field that gives its own length in two bytes. -/
def afterExtra : Bytes → Option Bytes
  | low :: high :: bs =>
    let length := low.toNat + 256 * high.toNat
    if bs.length < length then none else some (bs.drop length)
  | _ => none

/-- The bytes after the header. -/
def afterHeader : Bytes → Option Bytes
  | 0x1f :: 0x8b :: 8 :: flags :: _ :: _ :: _ :: _ :: _ :: _ :: bs => do
    if flags &&& 0xe0 ≠ 0 then none
    let bs ← if flags &&& 4 ≠ 0 then afterExtra bs else some bs
    let bs ← if flags &&& 8 ≠ 0 then afterZero bs else some bs
    let bs ← if flags &&& 16 ≠ 0 then afterZero bs else some bs
    if flags &&& 2 ≠ 0 then
      if bs.length < 2 then none else some (bs.drop 2)
    else some bs
  | _ => none

/-- The number of four bytes, lowest first. -/
def word? : Bytes → Option UInt32
  | [a, b, c, d] =>
    some (a.toUInt32 ||| (b.toUInt32 <<< 8) ||| (c.toUInt32 <<< 16) ||| (d.toUInt32 <<< 24))
  | _ => none

/-- The content of the first member, if all of it is there and its end fits. -/
def unzip? (bs : Bytes) : Option Bytes := do
  let data ← afterHeader bs
  let inflated := inflate (1032 * data.length) data
  if inflated.stop ≠ .finished then none
  let check ← word? (inflated.rest.take 4)
  let size ← word? ((inflated.rest.drop 4).take 4)
  if check = crc32 inflated.output ∧ size = UInt32.ofNat inflated.output.length then
    some inflated.output
  else none

/-- The first `n` bytes of the content. -/
def start? (n : Nat) (bs : Bytes) : Option Bytes := do
  let inflated := inflate 32768 (← afterHeader bs)
  if inflated.stop = .corrupt ∨ inflated.output.length < n then none
  else some (inflated.output.take n)

end Handover.Gzip
