import Handover.Json.Basic

/-!
# Numbers as JSON text denotes them

A number without point and exponent is an integer if it fits into 64 bits, with a sign or
without. Everything else is a double, and so is `-0`.

A double is found with one multiplication or division. The digits that fit into 64 bits make
the significand, the digits after them only count for the exponent, and the significand is
scaled by the power of ten. An exponent below `-308` divides by `10 ^ 308` first. A result
past the largest double denotes nothing.
-/

namespace Handover

/-- A number as written : sign, digits before the point, digits after it, and the exponent
with its sign. -/
structure Numeral where
  negative : Bool
  whole : List Nat
  fraction : Option (List Nat)
  exponent : Option (Bool × List Nat)
  deriving DecidableEq, Repr

namespace Numeral

/-- The power of ten nearest to `10 ^ e`. -/
def powerOfTen (e : Nat) : Float :=
  Float.ofScientific 1 false e

/-- `significand * 10 ^ e` in double arithmetic, unless it is past the largest double. -/
def scaled (significand : Nat) (e : Int) : Option Float :=
  let f := Float.ofNat significand
  if significand = 0 then some 0
  else if 308 < e then none
  else if 0 ≤ e then
    let g := f * powerOfTen e.toNat
    if g.isInf then none else some g
  else if -308 ≤ e then some (f / powerOfTen (-e).toNat)
  else if -616 ≤ e then some (f / powerOfTen 308 / powerOfTen (-e - 308).toNat)
  else some 0

/-- Appends digits to a significand as long as it fits into 64 bits, and gives back the
digits that did not fit. -/
def absorb : Nat → List Nat → Nat × List Nat
  | s, [] => (s, [])
  | s, d :: ds => if s * 10 + d < UInt64.size then absorb (s * 10 + d) ds else (s, d :: ds)

/-- The number that digits spell. -/
def ofDigits (ds : List Nat) : Nat :=
  ds.foldl (fun n d => n * 10 + d) 0

/-- The double a numeral denotes. -/
def double? (n : Numeral) : Option Float :=
  let (s, left) := absorb 0 n.whole
  let fraction := n.fraction.getD []
  let (t, dropped) := absorb s fraction
  let shift := (left.length : Int) - ((fraction.length - dropped.length : Nat) : Int)
  let size := match n.exponent with
    | none => some shift
    | some (minus, ds) =>
      let e := ofDigits ds
      if e < 0x80000000 then some (if minus then shift - (e : Int) else shift + (e : Int))
      else if minus || t = 0 then some (-1000) else none
  match size with
  | none => none
  | some e => (scaled t e).map fun f => if n.negative then -f else f

/-- The number a numeral denotes. -/
def number? (n : Numeral) : Option Number :=
  match n.fraction, n.exponent with
  | none, none =>
    let m := ofDigits n.whole
    if !n.negative && m < UInt64.size then some (.natural (UInt64.ofNat m))
    else if h : n.negative = true ∧ 0 < m ∧ m ≤ 0x8000000000000000 then
      some (.negative ⟨m - 1, by omega⟩)
    else n.double?.map fun f => .decimal (.ofFloat f)
  | _, _ => n.double?.map fun f => .decimal (.ofFloat f)

end Numeral

end Handover
