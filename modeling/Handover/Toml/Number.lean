import Handover.Decimal.Reader
import Handover.Json.Reader
import Handover.Text.Split

/-!
# Numbers in TOML

Integers come in four bases, with underscores between digits and no zeros in front of a
decimal one. Doubles have a fraction, an exponent or both, or a name.
-/

namespace Handover.Toml

/-! ## Digits -/

/-- The digits of a text in which single underscores stand between digits. -/
def underscored? (isDigit : Char → Bool) (cs : List Char) : Option (List Char) :=
  let pieces := Text.splitChars '_' cs
  if pieces.all fun piece => !piece.isEmpty && piece.all isDigit then some pieces.flatten
  else none

/-- The digits of a decimal integer without sign. There is no zero in front of others. -/
def wholeDigits? (cs : List Char) : Option (List Char) :=
  match underscored? Char.isDigit cs with
  | some ('0' :: _ :: _) => none
  | ds => ds

/-- Whether a character is a digit of a base up to sixteen. -/
def isDigitOf (base : Nat) (c : Char) : Bool :=
  match Json.hexValue? c with
  | some d => decide (d < base)
  | none => false

/-- The number that digits of a base spell. -/
def ofDigits (base : Nat) (ds : List Char) : Nat :=
  ds.foldl (fun n c => n * base + (Json.hexValue? c).getD 0) 0

/-! ## Numbers -/

/-- The integer of a sign and size. Integers of more than 64 bits are in no range that is
asked for, and integers of more than 128 bits are refused. -/
def integer? (negative : Bool) (n : Nat) : Option Json :=
  if negative then
    if h : 0 < n ∧ n ≤ 0x8000000000000000 then some (.num (.negative ⟨n - 1, by omega⟩))
    else if n = 0 then some (.ofNat 0)
    else if n ≤ 0x80000000000000000000000000000000 then some .unreadable else none
  else if n < UInt64.size then some (.ofNat n)
  else if n < 0x100000000000000000000000000000000 then some .unreadable else none

/-- A finite double of digits, or nothing if it is too large. -/
def float? (negative : Bool) (whole fraction : List Char) (exponent : Int) : Option Json :=
  let ds := whole ++ fraction
  let x := Binary64.nearest (Binary64.ofDigits ds) (exponent - fraction.length)
  if x.isFinite then some (.num (.decimal (if negative then x.negated else x))) else none

/-- An exponent after its mark. -/
def exponent? (cs : List Char) : Option Int :=
  let number := fun ds => (underscored? Char.isDigit ds).map fun ds => (ofDigits 10 ds : Int)
  match cs with
  | '+' :: ds => number ds
  | '-' :: ds => (number ds).map (- ·)
  | ds => number ds

/-- A decimal number after its sign. -/
def decimal? (negative : Bool) (cs : List Char) : Option Json :=
  let isMark := fun c : Char => c == 'e' || c == 'E'
  let mantissa := cs.takeWhile fun c => !isMark c
  let tail := cs.dropWhile fun c => !isMark c
  let whole := mantissa.takeWhile (· != '.')
  match mantissa.dropWhile (· != '.'), tail with
  | [], [] => (wholeDigits? whole).bind fun ds => integer? negative (ofDigits 10 ds)
  | [], _ :: e => do float? negative (← wholeDigits? whole) [] (← exponent? e)
  | _ :: fraction, [] => do
    float? negative (← wholeDigits? whole) (← underscored? Char.isDigit fraction) 0
  | _ :: fraction, _ :: e => do
    float? negative (← wholeDigits? whole) (← underscored? Char.isDigit fraction)
      (← exponent? e)

/-- A number after its sign, or one of the names of a double. -/
def signed? (negative : Bool) (cs : List Char) : Option Json :=
  if cs = ['i', 'n', 'f'] then
    some (.num (.decimal (if negative then Binary64.infinity.negated else .infinity)))
  else if cs = ['n', 'a', 'n'] then
    some (.num (.decimal (if negative then Binary64.undefined.negated else .undefined)))
  else decimal? negative cs

/-- A number. Only decimals have a sign. -/
def number? : List Char → Option Json
  | '0' :: 'x' :: cs =>
    (underscored? (isDigitOf 16) cs).bind fun ds => integer? false (ofDigits 16 ds)
  | '0' :: 'o' :: cs =>
    (underscored? (isDigitOf 8) cs).bind fun ds => integer? false (ofDigits 8 ds)
  | '0' :: 'b' :: cs =>
    (underscored? (isDigitOf 2) cs).bind fun ds => integer? false (ofDigits 2 ds)
  | '-' :: cs => signed? true cs
  | '+' :: cs => signed? false cs
  | cs => signed? false cs

end Handover.Toml
