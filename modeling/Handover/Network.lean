import Handover.Json.Wire

/-!
# Nodes

A deployment targets one node. The configuration lists the known nodes, each of a type, and
the environment or the configuration picks a type. The first node of that type is used.
-/

namespace Handover

/-- The types of node. -/
inductive NodeType where
  | localSecret
  | pulsar2
  | gitpod
  | custom
  | secret4
  deriving DecidableEq, Repr

namespace NodeType

/-- The name of a type. -/
def name : NodeType → String
  | localSecret => "LocalSecret"
  | pulsar2 => "Pulsar2"
  | gitpod => "Gitpod"
  | custom => "Custom"
  | secret4 => "Secret4"

/-- Every type. -/
def all : List NodeType :=
  [localSecret, pulsar2, gitpod, custom, secret4]

/-- The type of a name. -/
def ofName? (name : String) : Option NodeType :=
  all.find? fun t => t.name == name

/-- A type is written as its name. -/
def toJson (t : NodeType) : Json :=
  .str t.name

/-- Reads a type from its name. -/
def ofJson? (v : Json) : Option NodeType :=
  v.unitVariant?.bind ofName?

instance : Wire NodeType := ⟨toJson, ofJson?⟩

end NodeType

/-- How to reach a node. -/
inductive NodeInfo where
  | localSecret (chainId gateway faucet : String)
  | pulsar2 (chainId gateway faucet : String)
  /-- A local node in a workspace. Its addresses follow from the workspace. -/
  | gitpod (chainId workspace : String)
  | custom (chainId gateway faucet : String)
  /-- The main network, which has no faucet. -/
  | secret4 (chainId gateway : String)
  deriving DecidableEq, Repr

namespace NodeInfo

/-- The node that is used when nothing is configured. -/
def standard : NodeInfo :=
  localSecret "secretdev-1" "http://localhost:1317" "http://localhost:5000/faucet?address="

/-- The type of a node. -/
def nodeType : NodeInfo → NodeType
  | localSecret .. => .localSecret
  | pulsar2 .. => .pulsar2
  | gitpod .. => .gitpod
  | custom .. => .custom
  | secret4 .. => .secret4

/-- The chain a node belongs to. -/
def chainId : NodeInfo → String
  | localSecret chainId .. => chainId
  | pulsar2 chainId .. => chainId
  | gitpod chainId .. => chainId
  | custom chainId .. => chainId
  | secret4 chainId .. => chainId

/-- The address of the gateway. -/
def gateway : NodeInfo → String
  | localSecret _ gateway _ => gateway
  | pulsar2 _ gateway _ => gateway
  | gitpod _ workspace => "https://1317-" ++ workspace ++ ".gitpod.io"
  | custom _ gateway _ => gateway
  | secret4 _ gateway => gateway

/-- What the address of an account is appended to, to fund it. -/
def faucet? : NodeInfo → Option String
  | localSecret _ _ faucet => some faucet
  | pulsar2 _ _ faucet => some faucet
  | gitpod _ workspace => some ("https://5000-" ++ workspace ++ ".gitpod.io/faucet?address=")
  | custom _ _ faucet => some faucet
  | secret4 .. => none

/-- The fields of a node with a gateway and a faucet. -/
def endpointFields (type : NodeType) (chainId gateway faucet : String) : Json :=
  .obj [("chain_id", .str chainId), ("faucet_address_endpoint", .str faucet),
    ("grpc_gateway_endpoint", .str gateway), ("type", .str type.name)]

/-- The written form of a node, with its type among its fields. -/
def toJson : NodeInfo → Json
  | localSecret chainId gateway faucet => endpointFields .localSecret chainId gateway faucet
  | pulsar2 chainId gateway faucet => endpointFields .pulsar2 chainId gateway faucet
  | gitpod chainId workspace =>
    .obj [("chain_id", .str chainId), ("gitpod_id", .str workspace),
      ("type", .str NodeType.gitpod.name)]
  | custom chainId gateway faucet => endpointFields .custom chainId gateway faucet
  | secret4 chainId gateway =>
    .obj [("chain_id", .str chainId), ("grpc_gateway_endpoint", .str gateway),
      ("type", .str NodeType.secret4.name)]

/-- Reads a node with a gateway and a faucet. -/
def ofEndpointFields? (make : String → String → String → NodeInfo) (fields : Json) :
    Option NodeInfo := do
  let r ← fields.record? ["chain_id", "grpc_gateway_endpoint", "faucet_address_endpoint"]
  return make (← r.required "chain_id" Json.string?)
    (← r.required "grpc_gateway_endpoint" Json.string?)
    (← r.required "faucet_address_endpoint" Json.string?)

/-- Reads a node by its type. Which fields have to be there depends on that. -/
def ofJson? (v : Json) : Option NodeInfo := do
  let (tag, fields) ← v.tagged?
  match ← NodeType.ofName? tag with
  | .localSecret => ofEndpointFields? localSecret fields
  | .pulsar2 => ofEndpointFields? pulsar2 fields
  | .gitpod =>
    let r ← fields.record? ["chain_id", "gitpod_id"]
    return gitpod (← r.required "chain_id" Json.string?) (← r.required "gitpod_id" Json.string?)
  | .custom => ofEndpointFields? custom fields
  | .secret4 =>
    let r ← fields.record? ["chain_id", "grpc_gateway_endpoint"]
    return secret4 (← r.required "chain_id" Json.string?)
      (← r.required "grpc_gateway_endpoint" Json.string?)

instance : Wire NodeInfo := ⟨toJson, ofJson?⟩

end NodeInfo

/-! ## Choosing a node -/

/-- Why no node could be chosen. -/
inductive NodeFault where
  | unknownType (name : String)
  | notConfigured (type : NodeType)
  deriving DecidableEq, Repr

/-- The wording of a fault. -/
def NodeFault.message : NodeFault → String
  | unknownType name => "unknown node type " ++ name ++ " in DAPP_NODE_TYPE"
  | notConfigured type => "no " ++ type.name ++ " node configured"

/-- The type the environment selects. A test environment of continuous integration always
runs on the local node, and without a name the fallback is taken. -/
def NodeType.select (testEnv name : Option String) (fallback : NodeType) :
    Except NodeFault NodeType :=
  if testEnv = some "CI" then .ok .localSecret
  else
    match name with
    | none => .ok fallback
    | some name =>
      match NodeType.ofName? name with
      | some type => .ok type
      | none => .error (.unknownType name)

/-- The first node of a type. -/
def NodeInfo.select (nodes : List NodeInfo) (type : NodeType) : Except NodeFault NodeInfo :=
  match nodes.find? fun n => n.nodeType == type with
  | some node => .ok node
  | none => .error (.notConfigured type)

end Handover
