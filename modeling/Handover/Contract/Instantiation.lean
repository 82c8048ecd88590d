import Handover.Coin
import Handover.Permit.Basic

/-!
# What contracts are instantiated with

An instance starts from scratch or with the state of another contract. In the second case the
message carries an owner permit by the admin of that contract, as proof that the admin wants
the move.
-/

namespace Handover

/-- Public or private data of a token. -/
structure Metadata where
  tokenUri : Option String
  extension : Option Json
  deriving DecidableEq, Repr

namespace Metadata

/-- The written form of metadata. What is missing is left out. -/
def toJson (m : Metadata) : Json :=
  .obj (Json.fieldIfSome "extension" id m.extension ++
    Json.fieldIfSome "token_uri" .str m.tokenUri)

/-- Reads metadata. The extension may be any free value. -/
def ofJson? (v : Json) : Option Metadata := do
  let r ← v.record? ["token_uri", "extension"]
  return ⟨← r.maybe "token_uri" Json.string?, ← r.maybe "extension" Json.free?⟩

instance : Wire Metadata := ⟨toJson, ofJson?⟩

end Metadata

/-- The contract that state comes from, with an owner permit by its admin. -/
structure MigrateFrom where
  address : String
  codeHash : String
  adminPermit : Permit
  deriving DecidableEq, Repr

namespace MigrateFrom

/-- The written form of a source, with the permit next to the address. -/
def toJson (m : MigrateFrom) : Json :=
  .obj [("address", .str m.address), ("admin_permit", Wire.toJson m.adminPermit),
    ("code_hash", .str m.codeHash)]

/-- Reads a source. Unlike elsewhere, the code hash has to be there. -/
def ofJson? (v : Json) : Option MigrateFrom := do
  let r ← v.record? ["address", "code_hash", "admin_permit"]
  let address ← r.required "address" Json.string?
  let codeHash ← r.required "code_hash" Json.string?
  let adminPermit ← r.required "admin_permit" Wire.ofJson?
  return ⟨address, codeHash, adminPermit⟩

instance : Wire MigrateFrom := ⟨toJson, ofJson?⟩

end MigrateFrom

/-- Instantiation with the state of another contract. -/
structure Migration where
  source : MigrateFrom
  /-- Randomness for one use. -/
  entropy : String
  deriving DecidableEq, Repr

namespace Migration

/-- The written form of a migration. -/
def toJson (m : Migration) : Json :=
  .obj [("entropy", .str m.entropy), ("migrate_from", Wire.toJson m.source)]

/-- Reads a migration. -/
def ofJson? (v : Json) : Option Migration := do
  let r ← v.record? ["migrate_from", "entropy"]
  return ⟨← r.required "migrate_from" Wire.ofJson?, ← r.required "entropy" Json.string?⟩

instance : Wire Migration := ⟨toJson, ofJson?⟩

end Migration

/-- How a contract comes to its state : from another contract, or from scratch. -/
inductive InstantiateMsg (α : Type) where
  | migrate (m : Migration)
  | fresh (init : α)
  deriving DecidableEq, Repr

namespace InstantiateMsg

variable {α : Type} [Wire α]

/-- The message by its name, with what the contract starts with in it. -/
def toJson : InstantiateMsg α → Json
  | migrate m => .ofVariant "migrate" (Wire.toJson m)
  | fresh init => .ofVariant "new" (Wire.toJson init)

/-- Reads the message by its name. Only a start from scratch depends on the contract. -/
def ofJson? (v : Json) : Option (InstantiateMsg α) := do
  let (name, payload) ← v.variant?
  if name = "migrate" then return migrate (← Wire.ofJson? payload)
  else if name = "new" then return fresh (← Wire.ofJson? payload)
  else none

instance : Wire (InstantiateMsg α) := ⟨toJson, ofJson?⟩

end InstantiateMsg

/-- A dealer from scratch. It instantiates its own collection from the given code. -/
structure DealerInit where
  childCodeHash : String
  childCodeId : UInt64
  childLabel : String
  prices : List Coin
  publicMetadata : Option Metadata
  privateMetadata : Option Metadata
  admin : Option String
  entropy : String
  royaltyInfo : Option Json
  deriving DecidableEq, Repr

namespace DealerInit

/-- The written form of the start of a dealer. What is missing is `null`. -/
def toJson (d : DealerInit) : Json :=
  .obj [("admin", .ofOption .str d.admin), ("entropy", .str d.entropy),
    ("prices", Wire.toJson d.prices),
    ("private_metadata", .ofOption Wire.toJson d.privateMetadata),
    ("public_metadata", .ofOption Wire.toJson d.publicMetadata),
    ("royalty_info", .ofOption id d.royaltyInfo),
    ("snip721_code_hash", .str d.childCodeHash),
    ("snip721_code_id", .ofUInt64 d.childCodeId), ("snip721_label", .str d.childLabel)]

/-- Reads the start of a dealer, field by field in this order. -/
def ofJson? (v : Json) : Option DealerInit := do
  let r ← v.record? ["snip721_code_hash", "snip721_code_id", "snip721_label", "prices",
    "public_metadata", "private_metadata", "admin", "entropy", "royalty_info"]
  let childCodeHash ← r.required "snip721_code_hash" Json.string?
  let childCodeId ← r.required "snip721_code_id" Json.uint64?
  let childLabel ← r.required "snip721_label" Json.string?
  let prices ← r.required "prices" Wire.ofJson?
  let publicMetadata ← r.optional "public_metadata" Wire.ofJson?
  let privateMetadata ← r.optional "private_metadata" Wire.ofJson?
  let admin ← r.optional "admin" Json.string?
  let entropy ← r.required "entropy" Json.string?
  let royaltyInfo ← r.maybe "royalty_info" Json.free?
  return ⟨childCodeHash, childCodeId, childLabel, prices, publicMetadata, privateMetadata,
    admin, entropy, royaltyInfo⟩

instance : Wire DealerInit := ⟨toJson, ofJson?⟩

end DealerInit

end Handover
