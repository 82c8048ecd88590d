import Handover.Decimal

/-!
# Reading doubles

The double nearest to a decimal, for text with digits, a point and an exponent, and for the
names of the values that are no finite number.
-/

namespace Handover.Binary64

/-- The positive infinity. -/
def infinity : Binary64 := ⟨0x7ff0000000000000⟩

/-- The bits of no number. -/
def undefined : Binary64 := ⟨0x7ff8000000000000⟩

/-- A double with the other sign. -/
def negated (x : Binary64) : Binary64 :=
  ⟨x.bits ^^^ 0x8000000000000000⟩

/-- The double nearest to `m * 10 ^ e`. Far outside of the range of doubles nothing has to be
computed. -/
def nearest (m : Nat) (e : Int) : Binary64 :=
  let size := (digitCount m : Int) + e
  if m = 0 ∨ size < -400 then ⟨0⟩
  else if 400 < size then infinity
  else if 0 ≤ e then ofFloat (Float.ofScientific m false e.toNat)
  else ofFloat (Float.ofScientific m true (-e).toNat)

/-- The number that decimal digits spell. -/
def ofDigits (ds : List Char) : Nat :=
  ds.foldl (fun n c => n * 10 + (c.toNat - 48)) 0

/-- An exponent after its mark, with an optional sign. -/
def exponent? (cs : List Char) : Option Int :=
  let number := fun ds : List Char =>
    if ds.isEmpty || !ds.all Char.isDigit then none else some (ofDigits ds : Int)
  match cs with
  | '+' :: ds => number ds
  | '-' :: ds => (number ds).map (- ·)
  | ds => number ds

/-- A decimal without sign : digits with at most one point, and an exponent. -/
def decimal? (cs : List Char) : Option Binary64 :=
  let isMark := fun c : Char => c == 'e' || c == 'E'
  let mantissa := cs.takeWhile fun c => !isMark c
  let whole := mantissa.takeWhile (· != '.')
  let fraction := (mantissa.dropWhile (· != '.')).drop 1
  let exponent := match cs.dropWhile fun c => !isMark c with
    | [] => some 0
    | _ :: cs => exponent? cs
  if (whole ++ fraction).isEmpty || !(whole ++ fraction).all Char.isDigit then none
  else exponent.map fun e => nearest (ofDigits (whole ++ fraction)) (e - fraction.length)

/-- A double without sign, in any case of letters. -/
def unsigned? (cs : List Char) : Option Binary64 :=
  let name := String.ofList (cs.map Char.toLower)
  if name = "inf" ∨ name = "infinity" then some infinity
  else if name = "nan" then some undefined
  else decimal? cs

/-- The double that a text spells. -/
def ofText? (text : String) : Option Binary64 :=
  match text.toList with
  | '-' :: cs => (unsigned? cs).map negated
  | '+' :: cs => unsigned? cs
  | cs => unsigned? cs

end Handover.Binary64
