import Handover.Permit.Basic

/-!
# Messages of the collection

What a collection executes and answers. A message is an object with one field, named for the
message. What only some may see is asked for with a permit.
-/

namespace Handover

/-- What a collection executes. -/
inductive CollectionMsg where
  | transferNft (recipient tokenId : String) (memo : Option String)
  /-- Imports the next pages of tokens. Without `pages` everything left is imported, and the
  contract picks the size of a page that is not given. -/
  | migrateTokensIn (pages pageSize : Option UInt32)
  deriving DecidableEq, Repr

namespace CollectionMsg

/-- The written form of a message. A missing memo is left out, and a missing number is `null`. -/
def toJson : CollectionMsg → Json
  | transferNft recipient tokenId memo =>
    .ofVariant "transfer_nft" (.obj (Json.fieldIfSome "memo" .str memo ++
      [("recipient", .str recipient), ("token_id", .str tokenId)]))
  | migrateTokensIn pages pageSize =>
    .ofVariant "migrate_tokens_in" (.obj
      [("page_size", .ofOption .ofUInt32 pageSize), ("pages", .ofOption .ofUInt32 pages)])

/-- Reads a message from the object with its name. -/
def ofJson? (v : Json) : Option CollectionMsg := do
  let (name, payload) ← v.variant?
  if name = "transfer_nft" then
    let r ← payload.record? ["recipient", "token_id", "memo"]
    return transferNft (← r.required "recipient" Json.string?)
      (← r.required "token_id" Json.string?) (← r.maybe "memo" Json.string?)
  else if name = "migrate_tokens_in" then
    let r ← payload.record? ["pages", "page_size"]
    return migrateTokensIn (← r.optional "pages" Json.uint32?)
      (← r.optional "page_size" Json.uint32?)
  else none

instance : Wire CollectionMsg := ⟨toJson, ofJson?⟩

instance : Message CollectionMsg where

end CollectionMsg

/-- How far an import of tokens has come. -/
structure ImportAnswer where
  complete : Bool
  nextMintIndex : Option UInt32
  total : Option UInt32
  deriving DecidableEq, Repr

namespace ImportAnswer

/-- The written form of a report, with `null` for what it does not tell. -/
def toJson (a : ImportAnswer) : Json :=
  .obj [("complete", .bool a.complete), ("next_mint_index", .ofOption .ofUInt32 a.nextMintIndex),
    ("total", .ofOption .ofUInt32 a.total)]

/-- Reads a report. Only whether the import is complete has to be there. -/
def ofJson? (v : Json) : Option ImportAnswer := do
  let r ← v.record? ["complete", "next_mint_index", "total"]
  let complete ← r.required "complete" Json.bool?
  let nextMintIndex ← r.optional "next_mint_index" Json.uint32?
  let total ← r.optional "total" Json.uint32?
  return ⟨complete, nextMintIndex, total⟩

instance : Wire ImportAnswer := ⟨toJson, ofJson?⟩

end ImportAnswer

/-- What a collection answers to what it executes. -/
inductive CollectionAnswer where
  | migrateTokensIn (progress : ImportAnswer)
  deriving DecidableEq, Repr

namespace CollectionAnswer

/-- An answer stands under the name of the message that it answers. -/
def toJson : CollectionAnswer → Json
  | migrateTokensIn progress => .ofVariant "migrate_tokens_in" (Wire.toJson progress)

/-- Reads an answer by the name that it stands under. -/
def ofJson? (v : Json) : Option CollectionAnswer := do
  let (name, payload) ← v.variant?
  if name = "migrate_tokens_in" then return migrateTokensIn (← Wire.ofJson? payload)
  else none

instance : Wire CollectionAnswer := ⟨toJson, ofJson?⟩

end CollectionAnswer

/-- What a collection answers to the holder of a permit. -/
inductive PermitQuery where
  | numTokensOfOwner (owner : String)
  | batchNftDossier (tokenIds : List String)
  | transactionHistory (page pageSize : Option UInt32)
  deriving DecidableEq, Repr

namespace PermitQuery

/-- The written form of a query with a permit. Numbers of pages that are not given are left out. -/
def toJson : PermitQuery → Json
  | numTokensOfOwner owner => .ofVariant "num_tokens_of_owner" (.obj [("owner", .str owner)])
  | batchNftDossier tokenIds =>
    .ofVariant "batch_nft_dossier" (.obj [("token_ids", .ofStrings tokenIds)])
  | transactionHistory page pageSize =>
    .ofVariant "transaction_history" (.obj (Json.fieldIfSome "page" .ofUInt32 page ++
      Json.fieldIfSome "page_size" .ofUInt32 pageSize))

/-- Reads a query with a permit by its name. -/
def ofJson? (v : Json) : Option PermitQuery := do
  let (name, payload) ← v.variant?
  if name = "num_tokens_of_owner" then
    let r ← payload.record? ["owner"]
    return numTokensOfOwner (← r.required "owner" Json.string?)
  else if name = "batch_nft_dossier" then
    let r ← payload.record? ["token_ids"]
    return batchNftDossier (← r.required "token_ids" Json.strings?)
  else if name = "transaction_history" then
    let r ← payload.record? ["page", "page_size"]
    return transactionHistory (← r.maybe "page" Json.uint32?) (← r.maybe "page_size" Json.uint32?)
  else none

instance : Wire PermitQuery := ⟨toJson, ofJson?⟩

instance : Message PermitQuery where

end PermitQuery

/-- What a collection answers. -/
inductive CollectionQuery where
  | contractInfo
  | contractConfig
  | numTokens
  | minters
  | withPermit (permit : Permit) (query : PermitQuery)
  deriving DecidableEq, Repr

namespace CollectionQuery

/-- Whether the query is for the history of transactions. -/
def asksHistory : CollectionQuery → Bool
  | withPermit _ (.transactionHistory ..) => true
  | _ => false

/-- The written form of a query. A permit stands next to the query that it allows. -/
def toJson : CollectionQuery → Json
  | contractInfo => .ofVariant "contract_info" (.obj [])
  | contractConfig => .ofVariant "contract_config" (.obj [])
  | numTokens => .ofVariant "num_tokens" (.obj [])
  | minters => .ofVariant "minters" (.obj [])
  | withPermit permit query =>
    .ofVariant "with_permit" (.obj
      [("permit", Wire.toJson permit), ("query", Wire.toJson query)])

/-- Reads a query by its name. Nothing may stand in those that ask without a permit. -/
def ofJson? (v : Json) : Option CollectionQuery := do
  let (name, payload) ← v.variant?
  if name = "with_permit" then
    let r ← payload.record? ["permit", "query"]
    return withPermit (← r.required "permit" Wire.ofJson?) (← r.required "query" Wire.ofJson?)
  else
    let _ ← payload.unit?
    if name = "contract_info" then return contractInfo
    else if name = "contract_config" then return contractConfig
    else if name = "num_tokens" then return numTokens
    else if name = "minters" then return minters
    else none

instance : Wire CollectionQuery := ⟨toJson, ofJson?⟩

/-- Whether the payload is an object, and so is that of the query for which there is a permit. -/
def inObjects : Json → Bool
  | .obj [("with_permit", .obj fs)] => ((fs.lookup "query").map (Message.inObjects PermitQuery)).getD true
  | v => v.hasBody

instance : Message CollectionQuery where
  inObjects := inObjects

end CollectionQuery

/-- The number of tokens in a collection or of an owner. -/
structure NumTokensAnswer where
  count : UInt32
  deriving DecidableEq, Repr

namespace NumTokensAnswer

/-- The count, under the name of the query. -/
def toJson (a : NumTokensAnswer) : Json :=
  .obj [("num_tokens", .obj [("count", .ofUInt32 a.count)])]

/-- Reads the count. It has to fit 32 bits. -/
def ofJson? (v : Json) : Option NumTokensAnswer :=
  (v.inField? "num_tokens" (Json.inField? "count" Json.uint32?)).map NumTokensAnswer.mk

instance : Wire NumTokensAnswer := ⟨toJson, ofJson?⟩

end NumTokensAnswer

/-- The accounts that may mint. -/
structure MintersAnswer where
  minters : List String
  deriving DecidableEq, Repr

namespace MintersAnswer

/-- The accounts, under the name of the query. -/
def toJson (a : MintersAnswer) : Json :=
  .obj [("minters", .obj [("minters", .ofStrings a.minters)])]

/-- Reads the accounts, each of them a text. -/
def ofJson? (v : Json) : Option MintersAnswer :=
  (v.inField? "minters" (Json.inField? "minters" Json.strings?)).map MintersAnswer.mk

instance : Wire MintersAnswer := ⟨toJson, ofJson?⟩

end MintersAnswer

end Handover
