import Handover.Coin
import Handover.Text.Base64

/-!
# Messages of a transaction

What a transaction can ask of the chain : to store code, to instantiate it, to execute a
message on an instance, to send coins. Every message names its own sender. The written form
carries the kind of message under `type`.
-/

namespace Handover

/-- A message of a transaction. -/
inductive Msg where
  | storeCode (sender : String) (wasm : Bytes)
  | instantiate (sender : String) (codeId : UInt64) (codeHash : String) (initMsg : Json)
      (label : String) (admin : Option String) (funds : List Coin)
  | execute (sender contract codeHash : String) (msg : Json) (funds : List Coin)
  | send (sender recipient : String) (amount : List Coin)
  deriving DecidableEq, Repr

namespace Msg

/-- The account that signs the message. -/
def sender : Msg → String
  | storeCode sender .. => sender
  | instantiate sender .. => sender
  | execute sender .. => sender
  | send sender .. => sender

/-- Whether the message uploads code. -/
def isUpload : Msg → Bool
  | storeCode .. => true
  | _ => false

/-- The written form of a message, with its kind among its fields. -/
def toJson : Msg → Json
  | storeCode sender wasm =>
    .obj [("sender", .str sender), ("type", .str "store_code"),
      ("wasm_byte_code", Base64.toJson wasm)]
  | instantiate sender codeId codeHash initMsg label admin funds =>
    .obj [("admin", .ofOption .str admin), ("code_hash", .str codeHash),
      ("code_id", .ofUInt64 codeId), ("init_funds", Wire.toJson funds), ("init_msg", initMsg),
      ("label", .str label), ("sender", .str sender), ("type", .str "instantiate_contract")]
  | execute sender contract codeHash msg funds =>
    .obj [("code_hash", .str codeHash), ("contract", .str contract), ("msg", msg),
      ("sender", .str sender), ("sent_funds", Wire.toJson funds),
      ("type", .str "execute_contract")]
  | send sender recipient amount =>
    .obj [("amount", Wire.toJson amount), ("from_address", .str sender),
      ("to_address", .str recipient), ("type", .str "send")]

/-- Reads the fields of a message of a known kind. -/
def ofFields? (kind : String) (fields : Json) : Option Msg :=
  if kind = "store_code" then do
    let r ← fields.record? ["sender", "wasm_byte_code"]
    return storeCode (← r.required "sender" Json.string?)
      (← r.required "wasm_byte_code" Base64.ofJson?)
  else if kind = "instantiate_contract" then do
    let r ← fields.record?
      ["sender", "code_id", "code_hash", "init_msg", "label", "admin", "init_funds"]
    let sender ← r.required "sender" Json.string?
    let codeId ← r.required "code_id" Json.uint64?
    let codeHash ← r.required "code_hash" Json.string?
    let initMsg ← r.required "init_msg" Json.free?
    let label ← r.required "label" Json.string?
    let admin ← r.optional "admin" Json.string?
    let funds ← r.defaulted "init_funds" [] Wire.ofJson?
    return instantiate sender codeId codeHash initMsg label admin funds
  else if kind = "execute_contract" then do
    let r ← fields.record? ["sender", "contract", "code_hash", "msg", "sent_funds"]
    let sender ← r.required "sender" Json.string?
    let contract ← r.required "contract" Json.string?
    let codeHash ← r.required "code_hash" Json.string?
    let msg ← r.required "msg" Json.free?
    let funds ← r.defaulted "sent_funds" [] Wire.ofJson?
    return execute sender contract codeHash msg funds
  else if kind = "send" then do
    let r ← fields.record? ["from_address", "to_address", "amount"]
    return send (← r.required "from_address" Json.string?)
      (← r.required "to_address" Json.string?) (← r.required "amount" Wire.ofJson?)
  else none

/-- Reads a message by its kind. -/
def ofJson? (v : Json) : Option Msg :=
  v.tagged?.bind fun (kind, fields) => ofFields? kind fields

instance : Wire Msg := ⟨toJson, ofJson?⟩

end Msg

/-- What a transaction is sent with. -/
structure TxOptions where
  gasLimit : UInt64
  memo : Option String
  deriving DecidableEq, Repr

namespace TxOptions

/-- A gas limit and no memo. -/
def ofGasLimit (gasLimit : UInt64) : TxOptions :=
  ⟨gasLimit, none⟩

/-- The written fields of the options. A missing memo is left out. -/
def toFields (o : TxOptions) : List (String × Json) :=
  ("gas_limit", .ofUInt64 o.gasLimit) :: Json.fieldIfSome "memo" .str o.memo

/-- The options as an object of their own. -/
def toJson (o : TxOptions) : Json :=
  .obj o.toFields

/-- Reads the options. The gas limit has to be there. -/
def ofJson? (v : Json) : Option TxOptions := do
  let r ← v.record? ["gas_limit", "memo"]
  return ⟨← r.required "gas_limit" Json.uint64?, ← r.maybe "memo" Json.string?⟩

instance : Wire TxOptions := ⟨toJson, ofJson?⟩

end TxOptions

end Handover
