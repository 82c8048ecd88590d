/-!
# Doubles and their decimal text

A double is kept as its 64 bits, so that two of them can be told apart and compared by
decision. `magnitude` reads the bits as `m * 2 ^ q`. `shortest` finds the fewest decimal
digits that still round to that double : for one digit, two, and so on up to seventeen it
tests the two neighbours of the value on that decimal grid, in exact natural arithmetic.
`layout` then writes the digits down, by position from `0.0001` up to below `10 ^ 16` and
with an exponent outside.

`truncated` and `ceiling` are the conversions to a whole number, towards zero and upwards.
Both are clamped to the range asked for, and zero for what is no number.
-/

namespace Handover

/-- A double by its bits : sign, eleven bits of exponent, fifty-two of fraction. -/
structure Binary64 where
  bits : UInt64
  deriving DecidableEq, Repr, Inhabited

namespace Binary64

/-- The double a machine float holds. -/
def ofFloat (x : Float) : Binary64 :=
  ⟨x.toBits⟩

/-- The machine float with these bits. -/
def toFloat (x : Binary64) : Float :=
  Float.ofBits x.bits

/-- The sign bit, set also for negative zero. -/
def isNegative (x : Binary64) : Bool :=
  x.bits >>> 63 == 1

/-- The exponent field as it stands in the bits. -/
def exponentField (x : Binary64) : Nat :=
  ((x.bits >>> 52) &&& 0x7ff).toNat

/-- The fraction field as it stands in the bits. -/
def fractionField (x : Binary64) : Nat :=
  (x.bits &&& 0xfffffffffffff).toNat

/-- Neither infinite nor undefined. -/
def isFinite (x : Binary64) : Bool :=
  x.exponentField != 0x7ff

/-- The bits of no number at all. -/
def isUndefined (x : Binary64) : Bool :=
  x.exponentField == 0x7ff && x.fractionField != 0

/-- Zero of either sign. -/
def isZero (x : Binary64) : Bool :=
  x.exponentField == 0 && x.fractionField == 0

/-- A double with negative zero replaced by zero. -/
def unsignedZero (x : Binary64) : Binary64 :=
  if x.isZero then ⟨0⟩ else x

/-- Equality as numbers : the zeros are equal, and what is no number equals nothing. -/
def same (x y : Binary64) : Bool :=
  !x.isUndefined && x.unsignedZero == y.unsignedZero

/-- The absolute value of a finite double as `m * 2 ^ q`. -/
def magnitude (x : Binary64) : Nat × Int :=
  if x.exponentField = 0 then (x.fractionField, -1074)
  else (x.fractionField + 0x10000000000000, (x.exponentField : Int) - 1075)

/-- The whole number a double stands for, cut off towards zero and clamped to `0 .. limit`. -/
def truncated (limit : Nat) (x : Binary64) : Nat :=
  if x.isUndefined || x.isNegative then 0
  else if !x.isFinite then limit
  else
    let (m, q) := x.magnitude
    min limit (if 0 ≤ q then m <<< q.toNat else m >>> (-q).toNat)

/-- The least whole number that is no less than a double, clamped to `0 .. limit`. -/
def ceiling (limit : Nat) (x : Binary64) : Nat :=
  if x.isUndefined || x.isNegative then 0
  else if !x.isFinite then limit
  else
    let (m, q) := x.magnitude
    min limit (if 0 ≤ q then m <<< q.toNat else (m + (1 <<< (-q).toNat) - 1) >>> (-q).toNat)

/-! ## The fewest digits -/

/-- Number of decimal digits of `n`. -/
def digitCount (n : Nat) : Nat :=
  (Nat.toDigits 10 n).length

/-- The exponent `k` with `10 ^ k ≤ num / den < 10 ^ (k + 1)`. -/
def decimalExponent (num den : Nat) : Int :=
  let guess : Int := (digitCount num : Int) - digitCount den
  let reached :=
    if 0 ≤ guess then den * Nat.pow 10 guess.toNat ≤ num
    else den ≤ num * Nat.pow 10 (-guess).toNat
  if reached then guess else guess - 1

/-- The multiple of `10 ^ e` nearest to `value / den` among those between `low / den` and
`high / den`, if there is one. The ends count when `closed`, and a tie goes to the even
multiple. -/
def nearestOnGrid (low value high den : Nat) (closed : Bool) (e : Int) : Option Nat :=
  let up := Nat.pow 10 (-e).toNat
  let unit := den * Nat.pow 10 e.toNat
  let within := fun c : Nat =>
    if closed then decide (low * up ≤ c * unit) && decide (c * unit ≤ high * up)
    else decide (low * up < c * unit) && decide (c * unit < high * up)
  let c := value * up / unit
  match within c, within (c + 1) with
  | false, false => none
  | true, false => some c
  | false, true => some (c + 1)
  | true, true =>
    let twice := 2 * (value * up - c * unit)
    if twice < unit || (twice == unit && c % 2 == 0) then some c else some (c + 1)

/-- A coefficient and exponent without trailing zeros in the coefficient. -/
def withoutTrailingZeros : Nat → Nat → Int → Nat × Int
  | 0, d, e => (d, e)
  | fuel + 1, d, e =>
    if d % 10 = 0 then withoutTrailingZeros fuel (d / 10) (e + 1) else (d, e)

/-- Digits `d` and exponent `e` of the shortest decimal `d * 10 ^ e` that rounds to the
double `m * 2 ^ q`. The gap below a power of two is half the gap above it. -/
def shortest (m : Nat) (q : Int) : Nat × Int :=
  let narrow := m == 0x10000000000000 && decide (-1074 < q)
  let up := 1 <<< (q - 2).toNat
  let den := 1 <<< (2 - q).toNat
  let value := 4 * m * up
  let low := (if narrow then 4 * m - 1 else 4 * m - 2) * up
  let high := (4 * m + 2) * up
  let top := decimalExponent value den
  let hit := (List.range 17).findSome? fun n : Nat =>
    let e := top - (n : Int)
    (nearestOnGrid low value high den (m % 2 == 0) e).map (·, e)
  match hit with
  | some (d, e) => withoutTrailingZeros 17 d e
  | none => (value / den, 0)

/-! ## Written form -/

/-- The characters of a natural number in base ten. -/
def digits (n : Nat) : List Char :=
  Nat.toDigits 10 n

/-- A decimal number laid out by position, always with a digit on each side of the point. -/
def positional (ds : List Char) (e : Int) : List Char :=
  let point := (ds.length : Int) + e
  if 0 ≤ e then ds ++ List.replicate e.toNat '0' ++ ['.', '0']
  else if 0 < point then ds.take point.toNat ++ '.' :: ds.drop point.toNat
  else '0' :: '.' :: List.replicate (-point).toNat '0' ++ ds

/-- A decimal number laid out with an exponent of a sign and at least two digits. -/
def scientific (ds : List Char) (e : Int) : List Char :=
  let x := (ds.length : Int) + e - 1
  let mantissa := match ds with
    | [] => []
    | [d] => [d]
    | d :: rest => d :: '.' :: rest
  let size := digits x.natAbs
  mantissa ++ ['e', if 0 ≤ x then '+' else '-'] ++
    (if size.length < 2 then '0' :: size else size)

/-- Digits and exponent by position for exponents from `-4` to `15`, and with an exponent
outside. -/
def layout (ds : List Char) (e : Int) : List Char :=
  let x := (ds.length : Int) + e - 1
  if -5 < x ∧ x < 16 then positional ds e else scientific ds e

/-- The text of a finite double under a layout of its shortest digits. -/
def textWith (lay : List Char → Int → List Char) (x : Binary64) : List Char :=
  let body :=
    if x.isZero then ['0', '.', '0']
    else
      let (m, q) := x.magnitude
      let (d, e) := shortest m q
      lay (digits d) e
  if x.isNegative then '-' :: body else body

/-- The text of a finite double. -/
def text (x : Binary64) : List Char :=
  x.textWith layout

end Binary64

end Handover
