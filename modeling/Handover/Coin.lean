import Handover.Json.Wire
import Handover.Text.Count

/-!
# Coins

An amount of one denomination. Amounts have 128 bits, more than a JSON number holds, so they
are written as decimal text.
-/

namespace Handover

/-- The denomination that fees and purchases are paid in. -/
def uscrt : String := "uscrt"

/-- An amount of one denomination. -/
structure Coin where
  amount : Fin 0x100000000000000000000000000000000
  denom : String
  deriving DecidableEq, Repr, Inhabited

namespace Coin

/-- A coin as it is shown : the amount right before the denomination. -/
def text (c : Coin) : String :=
  toString c.amount.val ++ c.denom

/-- The written form of a coin, with the amount as decimal text. -/
def toJson (c : Coin) : Json :=
  .obj [("amount", .str (toString c.amount.val)), ("denom", .str c.denom)]

/-- Reads a coin. An amount is digits only, and has to fit 128 bits. -/
def ofJson? (v : Json) : Option Coin := do
  let r ← v.record? ["amount", "denom"]
  let amount ← r.required "amount" fun v => v.string?.bind (count? 0x100000000000000000000000000000000)
  let denom ← r.required "denom" Json.string?
  return ⟨amount, denom⟩

instance : Wire Coin := ⟨toJson, ofJson?⟩

end Coin

end Handover
