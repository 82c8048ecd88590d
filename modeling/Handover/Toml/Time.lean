import Handover.Toml.Number

/-!
# Times in TOML

A time has a date, a time of day, or both, and then possibly an offset. Nothing reads times
here, so that only their form is checked and their text kept.
-/

namespace Handover.Toml

/-- A number of `n` digits at the front of a text. -/
def fixed? (n : Nat) (cs : List Char) : Option (Nat × List Char) :=
  let ds := cs.take n
  if ds.length = n ∧ ds.all Char.isDigit then some (ofDigits 10 ds, cs.drop n) else none

/-- What follows a character. -/
def after? (c : Char) : List Char → Option (List Char)
  | d :: cs => if c = d then some cs else none
  | [] => none

/-- The number of days of a month. -/
def daysOf (year month : Nat) : Nat :=
  if month = 2 then
    if year % 4 = 0 ∧ (year % 100 ≠ 0 ∨ year % 400 = 0) then 29 else 28
  else if month = 4 ∨ month = 6 ∨ month = 9 ∨ month = 11 then 30
  else 31

/-- What follows a date. -/
def date? (cs : List Char) : Option (List Char) := do
  let (year, cs) ← fixed? 4 cs
  let (month, cs) ← fixed? 2 (← after? '-' cs)
  let (day, cs) ← fixed? 2 (← after? '-' cs)
  if 1 ≤ month ∧ month ≤ 12 ∧ 1 ≤ day ∧ day ≤ daysOf year month then some cs else none

/-- What follows the fraction of a second, if there is one. -/
def fraction? : List Char → Option (List Char)
  | '.' :: cs =>
    if (cs.takeWhile Char.isDigit).isEmpty then none else some (cs.dropWhile Char.isDigit)
  | cs => some cs

/-- What follows a time of day. The seconds may be missing. -/
def time? (cs : List Char) : Option (List Char) := do
  let (hour, cs) ← fixed? 2 cs
  let (minute, cs) ← fixed? 2 (← after? ':' cs)
  if 24 ≤ hour ∨ 60 ≤ minute then none
  match cs with
  | ':' :: cs =>
    let (second, cs) ← fixed? 2 cs
    if 60 < second then none else fraction? cs
  | cs => some cs

/-- Whether a text is an offset or empty. -/
def isOffset : List Char → Bool
  | [] => true
  | ['Z'] => true
  | ['z'] => true
  | sign :: cs =>
    if sign == '+' || sign == '-' then
      match fixed? 2 cs with
      | some (hour, ':' :: cs) =>
        match fixed? 2 cs with
        | some (minute, []) => decide (hour < 24) && decide (minute < 60)
        | _ => false
      | _ => false
    else false

/-- Whether a text is a time with a date, a time of day, or both. -/
def isTime (cs : List Char) : Bool :=
  match date? cs with
  | none => time? cs == some []
  | some [] => true
  | some (mark :: cs) =>
    if mark == 'T' || mark == 't' || mark == ' ' then
      match time? cs with
      | some cs => isOffset cs
      | none => false
    else false

/-- The field that the text of a time stands in. -/
def timeField : String := "$__toml_private_datetime"

/-- A value without quotes. -/
def plain? (cs : List Char) : Option Json :=
  if cs = ['t', 'r', 'u', 'e'] then some (.bool true)
  else if cs = ['f', 'a', 'l', 's', 'e'] then some (.bool false)
  else if isTime cs then some (.obj [(timeField, .str (String.ofList cs))])
  else number? cs

end Handover.Toml
