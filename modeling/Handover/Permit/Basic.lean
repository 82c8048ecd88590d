import Handover.Coin
import Handover.Json.Writer
import Handover.Text.Base64

/-!
# Query permits

A permit lets its holder query contracts in the name of an account, without a transaction. It
names the contracts, the permissions, the chain and the application, and carries a signature
of exactly that.

`signDoc` is what is signed : the text of a transaction that could never run, with the
parameters of the permit as its only message. Its fields are in the order of their names and
its text is compact, so that contracts can rebuild it byte for byte.
-/

namespace Handover

/-- What a permit can allow. -/
inductive Permission where
  | allowance
  | balance
  | history
  | owner
  deriving DecidableEq, Repr

namespace Permission

/-- The name of a permission. -/
def name : Permission → String
  | allowance => "allowance"
  | balance => "balance"
  | history => "history"
  | owner => "owner"

/-- Every permission. -/
def all : List Permission :=
  [allowance, balance, history, owner]

/-- A permission is written as its name. -/
def toJson (p : Permission) : Json :=
  .str p.name

/-- Reads a permission from its name. -/
def ofJson? (v : Json) : Option Permission :=
  v.unitVariant?.bind fun name => all.find? fun p => p.name == name

instance : Wire Permission := ⟨toJson, ofJson?⟩

end Permission

/-- The parameters of a permit. -/
structure PermitParams where
  allowedTokens : List String
  permitName : String
  chainId : String
  permissions : List Permission
  deriving DecidableEq, Repr

namespace PermitParams

/-- The written form of the parameters. -/
def toJson (p : PermitParams) : Json :=
  .obj [("allowed_tokens", .ofStrings p.allowedTokens), ("chain_id", .str p.chainId),
    ("permissions", Wire.toJson p.permissions), ("permit_name", .str p.permitName)]

/-- Reads the parameters. All of them have to be there. -/
def ofJson? (v : Json) : Option PermitParams := do
  let r ← v.record? ["allowed_tokens", "permit_name", "chain_id", "permissions"]
  let allowedTokens ← r.required "allowed_tokens" Json.strings?
  let permitName ← r.required "permit_name" Json.string?
  let chainId ← r.required "chain_id" Json.string?
  let permissions ← r.required "permissions" Wire.ofJson?
  return ⟨allowedTokens, permitName, chainId, permissions⟩

instance : Wire PermitParams := ⟨toJson, ofJson?⟩

/-- The document that is signed, as a tree. -/
def signDocTree (p : PermitParams) : Json :=
  .obj [("account_number", .str "0"),
    ("chain_id", .str p.chainId),
    ("fee", .obj [
      ("amount", .arr [.obj [("amount", .str "0"), ("denom", .str uscrt)]]),
      ("gas", .str "1")]),
    ("memo", .str ""),
    ("msgs", .arr [.obj [
      ("type", .str "query_permit"),
      ("value", .obj [
        ("allowed_tokens", .ofStrings p.allowedTokens),
        ("permissions", Wire.toJson p.permissions),
        ("permit_name", .str p.permitName)])]]),
    ("sequence", .str "0")]

/-- The text of the document that is signed. -/
def signDoc (p : PermitParams) : String :=
  p.signDocTree.compact

/-- The bytes that are signed. -/
def signDocBytes (p : PermitParams) : Bytes :=
  p.signDoc.toUTF8.toList

end PermitParams

/-- A public key and its type. -/
structure PubKey where
  kind : String
  value : Bytes
  deriving DecidableEq, Repr

namespace PubKey

/-- The type of the keys that sign permits. -/
def secp256k1 : String := "tendermint/PubKeySecp256k1"

/-- The written form of a key, with its bytes in base 64. -/
def toJson (k : PubKey) : Json :=
  .obj [("type", .str k.kind), ("value", Base64.toJson k.value)]

/-- Reads a key. Whether its type is known is checked with the permit. -/
def ofJson? (v : Json) : Option PubKey := do
  let r ← v.record? ["type", "value"]
  return ⟨← r.required "type" Json.string?, ← r.required "value" Base64.ofJson?⟩

instance : Wire PubKey := ⟨toJson, ofJson?⟩

end PubKey

/-- A signature with the key that verifies it. -/
structure PermitSignature where
  pubKey : PubKey
  signature : Bytes
  deriving DecidableEq, Repr

namespace PermitSignature

/-- The written form of a signature, with its bytes in base 64. -/
def toJson (s : PermitSignature) : Json :=
  .obj [("pub_key", Wire.toJson s.pubKey), ("signature", Base64.toJson s.signature)]

/-- Reads a signature, of any length. -/
def ofJson? (v : Json) : Option PermitSignature := do
  let r ← v.record? ["pub_key", "signature"]
  return ⟨← r.required "pub_key" Wire.ofJson?, ← r.required "signature" Base64.ofJson?⟩

instance : Wire PermitSignature := ⟨toJson, ofJson?⟩

end PermitSignature

/-- A signed authorization for certain contracts and permissions. -/
structure Permit where
  params : PermitParams
  signature : PermitSignature
  deriving DecidableEq, Repr

namespace Permit

/-- The written form of a permit, as it goes along with messages and queries. -/
def toJson (p : Permit) : Json :=
  .obj [("params", Wire.toJson p.params), ("signature", Wire.toJson p.signature)]

/-- Reads a permit. Reading does not verify it. -/
def ofJson? (v : Json) : Option Permit := do
  let r ← v.record? ["params", "signature"]
  return ⟨← r.required "params" Wire.ofJson?, ← r.required "signature" Wire.ofJson?⟩

instance : Wire Permit := ⟨toJson, ofJson?⟩

/-- Whether the permit allows a permission for a contract. -/
def isScopedTo (p : Permit) (contract : String) (permission : Permission) : Bool :=
  p.params.allowedTokens.contains contract && p.params.permissions.contains permission

end Permit

end Handover
