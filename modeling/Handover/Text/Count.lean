/-!
# Whole numbers in text

A whole number is read from an optional plus sign and decimal digits, and has to be below a
bound. Leading zeros are fine.
-/

namespace Handover

/-- The number that a text spells, if it is below `bound`. -/
def count? (bound : Nat) (text : String) : Option (Fin bound) :=
  let ds := match text.toList with
    | '+' :: cs => cs
    | cs => cs
  if ds.isEmpty || !ds.all Char.isDigit then none
  else
    let n := ds.foldl (fun n c => n * 10 + (c.toNat - 48)) 0
    if h : n < bound then some ⟨n, h⟩ else none

end Handover
