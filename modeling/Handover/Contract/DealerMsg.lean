import Handover.Coin
import Handover.Contract.Basic

/-!
# Messages of the dealer

What a dealer executes and answers. A message is an object with one field, named for the
message, and an empty object in it.
-/

namespace Handover

/-- What a dealer executes. -/
inductive DealerMsg where
  | purchaseMint
  deriving DecidableEq, Repr

namespace DealerMsg

/-- The message by its name. The coins go with the transaction. -/
def toJson : DealerMsg → Json
  | purchaseMint => .ofVariant "purchase_mint" (.obj [])

/-- Reads the message by its name. Nothing may stand in it. -/
def ofJson? (v : Json) : Option DealerMsg := do
  let (name, payload) ← v.variant?
  let _ ← payload.unit?
  if name = "purchase_mint" then return purchaseMint else none

instance : Wire DealerMsg := ⟨toJson, ofJson?⟩

instance : Message DealerMsg where

end DealerMsg

/-- What a dealer answers. -/
inductive DealerQuery where
  | prices
  | child
  deriving DecidableEq, Repr

namespace DealerQuery

/-- A query by its name. -/
def toJson : DealerQuery → Json
  | prices => .ofVariant "get_prices" (.obj [])
  | child => .ofVariant "get_child_snip721" (.obj [])

/-- Reads a query by its name. Nothing may stand in it. -/
def ofJson? (v : Json) : Option DealerQuery := do
  let (name, payload) ← v.variant?
  let _ ← payload.unit?
  if name = "get_prices" then return prices
  else if name = "get_child_snip721" then return child
  else none

instance : Wire DealerQuery := ⟨toJson, ofJson?⟩

instance : Message DealerQuery where

end DealerQuery

/-- The prices of a dealer, one coin for each denomination it takes. -/
structure PricesAnswer where
  prices : List Coin
  deriving DecidableEq, Repr

namespace PricesAnswer

/-- The prices, under the name of the query. -/
def toJson (a : PricesAnswer) : Json :=
  .obj [("get_prices", .obj [("prices", Wire.toJson a.prices)])]

/-- Reads the prices, each of them a coin. -/
def ofJson? (v : Json) : Option PricesAnswer :=
  (v.inField? "get_prices" (Json.inField? "prices" Wire.ofJson?)).map PricesAnswer.mk

instance : Wire PricesAnswer := ⟨toJson, ofJson?⟩

end PricesAnswer

/-- The collection of a dealer. -/
structure ChildAnswer where
  contract : ContractInfo
  deriving DecidableEq, Repr

namespace ChildAnswer

/-- The collection, under a name other than that of the query. -/
def toJson (a : ChildAnswer) : Json :=
  .obj [("contract_info", Wire.toJson a.contract)]

/-- Reads address and code hash of the collection. -/
def ofJson? (v : Json) : Option ChildAnswer :=
  (v.inField? "contract_info" Wire.ofJson?).map ChildAnswer.mk

instance : Wire ChildAnswer := ⟨toJson, ofJson?⟩

end ChildAnswer

end Handover
