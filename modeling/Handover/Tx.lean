import Handover.Json.Wire
import Handover.Text.Base64

/-!
# Transactions as the chain reports them

A transaction that went through carries the events of each message and the data each message
answered with. `firstValue` and `eventValue` look for the first value of a key, in all
events or in those of one kind.
-/

namespace Handover

/-- A key and value of an event. -/
structure Attribute where
  key : String
  value : String
  deriving DecidableEq, Repr

/-- Something that happened while a message ran. -/
structure TxEvent where
  kind : String
  attributes : List Attribute
  deriving DecidableEq, Repr

/-- The events of one message. -/
structure TxLog where
  msgIndex : UInt32
  events : List TxEvent
  deriving DecidableEq, Repr

/-- A transaction that was included in a block and went through. -/
structure TxResponse where
  txHash : String
  gasWanted : UInt64
  gasUsed : UInt64
  logs : List TxLog
  /-- The answer of each message. -/
  data : List Bytes
  deriving DecidableEq, Repr

namespace Attribute

/-- The written form of an attribute. -/
def toJson (a : Attribute) : Json :=
  .obj [("key", .str a.key), ("value", .str a.value)]

/-- Reads an attribute. Both parts are texts. -/
def ofJson? (v : Json) : Option Attribute := do
  let r ← v.record? ["key", "value"]
  return ⟨← r.required "key" Json.string?, ← r.required "value" Json.string?⟩

instance : Wire Attribute := ⟨toJson, ofJson?⟩

end Attribute

namespace TxEvent

/-- The written form of an event, with its kind under `type`. -/
def toJson (e : TxEvent) : Json :=
  .obj [("attributes", Wire.toJson e.attributes), ("type", .str e.kind)]

/-- Reads an event with its attributes. -/
def ofJson? (v : Json) : Option TxEvent := do
  let r ← v.record? ["type", "attributes"]
  return ⟨← r.required "type" Json.string?, ← r.required "attributes" Wire.ofJson?⟩

instance : Wire TxEvent := ⟨toJson, ofJson?⟩

end TxEvent

namespace TxLog

/-- The written form of the events of one message. -/
def toJson (l : TxLog) : Json :=
  .obj [("events", Wire.toJson l.events), ("msg_index", .ofUInt32 l.msgIndex)]

/-- Reads the events of one message. -/
def ofJson? (v : Json) : Option TxLog := do
  let r ← v.record? ["msg_index", "events"]
  return ⟨← r.required "msg_index" Json.uint32?, ← r.required "events" Wire.ofJson?⟩

instance : Wire TxLog := ⟨toJson, ofJson?⟩

end TxLog

namespace TxResponse

/-- The written form of a transaction, with the data of each message in base 64. -/
def toJson (t : TxResponse) : Json :=
  .obj [("data", .arr (t.data.map Base64.toJson)), ("gas_used", .ofUInt64 t.gasUsed),
    ("gas_wanted", .ofUInt64 t.gasWanted), ("logs", Wire.toJson t.logs),
    ("tx_hash", .str t.txHash)]

/-- Reads a transaction. Without data no message answered anything. -/
def ofJson? (v : Json) : Option TxResponse := do
  let r ← v.record? ["tx_hash", "gas_wanted", "gas_used", "logs", "data"]
  let txHash ← r.required "tx_hash" Json.string?
  let gasWanted ← r.required "gas_wanted" Json.uint64?
  let gasUsed ← r.required "gas_used" Json.uint64?
  let logs ← r.required "logs" Wire.ofJson?
  let data ← r.defaulted "data" [] (Json.list? Base64.ofJson?)
  return ⟨txHash, gasWanted, gasUsed, logs, data⟩

instance : Wire TxResponse := ⟨toJson, ofJson?⟩

/-- All events, message by message. -/
def events (t : TxResponse) : List TxEvent :=
  t.logs.flatMap TxLog.events

/-- The first value of a key among events. -/
def valueIn (events : List TxEvent) (key : String) : Option String :=
  ((events.flatMap TxEvent.attributes).find? fun a => a.key == key).map Attribute.value

/-- The first value of a key. -/
def firstValue (t : TxResponse) (key : String) : Option String :=
  valueIn t.events key

/-- The first value of a key in the events of one kind. -/
def eventValue (t : TxResponse) (kind key : String) : Option String :=
  valueIn (t.events.filter fun e => e.kind == kind) key

/-- The value of a key in the events of one kind, or else in any event. -/
def valueOf (t : TxResponse) (kind key : String) : Option String :=
  (t.eventValue kind key).or (t.firstValue key)

/-- The answer of one message. -/
def dataFor (t : TxResponse) (index : Nat) : Option Bytes :=
  t.data[index]?

end TxResponse

end Handover
