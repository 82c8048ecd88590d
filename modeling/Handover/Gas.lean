import Handover.Coin
import Handover.Decimal

/-!
# Gas and fees

Gas that a simulation reports is padded by a factor before it becomes a limit, and the fee of
a limit is its price rounded up. Both are computed in doubles and clamped to the range of the
result.
-/

namespace Handover

/-- How gas limits and fees are found. -/
structure GasSettings where
  /-- The factor on simulated gas. -/
  adjustment : Binary64
  /-- The limit for instantiating and executing when the simulation fails. -/
  fallbackLimit : UInt64
  /-- The limit for uploading code when the simulation fails. -/
  uploadFallbackLimit : UInt64
  /-- The price of one unit of gas. -/
  price : Binary64
  feeDenom : String
  deriving DecidableEq, Repr

namespace GasSettings

/-- A tenth on top of simulated gas, and a tenth of a coin for each unit of gas. -/
def standard : GasSettings :=
  ⟨.ofFloat 1.1, 500000, 5000000, .ofFloat 0.1, uscrt⟩

/-- Simulated gas with the padding on top. -/
def padded (g : GasSettings) (simulated : UInt64) : UInt64 :=
  UInt64.ofNat
    ((Binary64.ofFloat (simulated.toFloat * g.adjustment.toFloat)).truncated (UInt64.size - 1))

/-- The amount a limit costs. -/
def feeAmount (g : GasSettings) (limit : UInt64) : Nat :=
  (Binary64.ofFloat (limit.toFloat * g.price.toFloat)).ceiling (0x100000000000000000000000000000000 - 1)

/-- The fee of a transaction with a limit, whatever its outcome. -/
def fee (g : GasSettings) (limit : UInt64) : Coin :=
  ⟨Fin.ofNat 0x100000000000000000000000000000000 (g.feeAmount limit), g.feeDenom⟩

/-- The names of the settings, in their order. -/
def fieldNames : List String :=
  ["adjustment", "fallback_limit", "upload_fallback_limit", "price", "fee_denom"]

/-- The written form of the settings, with the doubles as numbers. -/
def toJson (g : GasSettings) : Json :=
  .obj [("adjustment", .num (.decimal g.adjustment)),
    ("fallback_limit", .ofUInt64 g.fallbackLimit), ("fee_denom", .str g.feeDenom),
    ("price", .num (.decimal g.price)),
    ("upload_fallback_limit", .ofUInt64 g.uploadFallbackLimit)]

/-- What is missing has its standard value. -/
def ofJson? (v : Json) : Option GasSettings := do
  let r ← v.record? fieldNames
  let adjustment ← r.defaulted "adjustment" standard.adjustment Json.double?
  let fallbackLimit ← r.defaulted "fallback_limit" standard.fallbackLimit Json.uint64?
  let uploadFallbackLimit ←
    r.defaulted "upload_fallback_limit" standard.uploadFallbackLimit Json.uint64?
  let price ← r.defaulted "price" standard.price Json.double?
  let feeDenom ← r.defaulted "fee_denom" standard.feeDenom Json.string?
  return ⟨adjustment, fallbackLimit, uploadFallbackLimit, price, feeDenom⟩

instance : Wire GasSettings := ⟨toJson, ofJson?⟩

end GasSettings

end Handover
