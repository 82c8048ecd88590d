import Handover.Json.Wire

/-!
# Contracts

Two kinds of contract are deployed : a dealer, which sells mints of the collection it owns,
and the collection itself, which holds the tokens.
-/

namespace Handover

/-- Address and code hash of a contract. -/
structure ContractInfo where
  address : String
  codeHash : String
  deriving DecidableEq, Repr, Inhabited

namespace ContractInfo

/-- The address, and the code hash in parentheses. -/
def text (c : ContractInfo) : String :=
  c.address ++ " (" ++ c.codeHash ++ ")"

/-- Address and code hash, as other contracts are referred to in messages. -/
def toJson (c : ContractInfo) : Json :=
  .obj [("address", .str c.address), ("code_hash", .str c.codeHash)]

/-- The code hash may be missing. -/
def ofJson? (v : Json) : Option ContractInfo := do
  let r ← v.record? ["address", "code_hash"]
  return ⟨← r.required "address" Json.string?, ← r.defaulted "code_hash" "" Json.string?⟩

instance : Wire ContractInfo := ⟨toJson, ofJson?⟩

end ContractInfo

/-- The contracts that can be deployed. -/
inductive ContractKind where
  /-- Sells mints of its collection at fixed prices. -/
  | dealer
  /-- A collection of tokens that can move to a new instance. -/
  | migratable
  deriving DecidableEq, Repr

namespace ContractKind

/-- Every kind. -/
def all : List ContractKind :=
  [dealer, migratable]

/-- The name of a kind, also of the directories that belong to it. -/
def name : ContractKind → String
  | dealer => "snip721-dealer"
  | migratable => "snip721-migratable"

/-- The kind of a name. -/
def ofName? (name : String) : Option ContractKind :=
  all.find? fun k => k.name == name

/-- The file of the optimized and compressed build. -/
def artifactFileName : ContractKind → String
  | dealer => "snip721_dealer.wasm.gz"
  | migratable => "snip721_migratable.wasm.gz"

/-- What the labels of instances start with. -/
def labelBase : ContractKind → String
  | dealer => "Snip721Dealer"
  | migratable => "Snip721Migratable"

/-- Whether a new instance has to import tokens page by page. A dealer holds no tokens. -/
def importsTokens : ContractKind → Bool
  | dealer => false
  | migratable => true

/-- A kind is written as its name. -/
def toJson (k : ContractKind) : Json :=
  .str k.name

/-- Reads a kind from its name. -/
def ofJson? (v : Json) : Option ContractKind :=
  v.unitVariant?.bind ofName?

instance : Wire ContractKind := ⟨toJson, ofJson?⟩

end ContractKind

end Handover
