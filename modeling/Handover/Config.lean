import Handover.Config.Client
import Handover.Config.Log
import Handover.Gas
import Handover.Migration.Settings
import Handover.Network
import Handover.Toml.Reader
import Handover.Toml.Writer

/-!
# The configuration

All settings together, as they are read from a document and written to one. Everything may be
left out. An unknown setting is ignored.
-/

namespace Handover

/-- All settings. -/
structure Config where
  /-- The type of node that is used when the environment names none. -/
  nodeType : Option NodeType
  client : ClientSettings
  gas : GasSettings
  migration : MigrationSettings
  nodes : List NodeInfo
  log : LogSettings
  deriving DecidableEq, Repr

namespace Config

/-- The settings that stand for what is missing. -/
def standard (env : Environment) : Config :=
  ⟨none, .standard env, .standard, .standard, [.standard], .standard⟩

/-- The names of the settings, in their order. -/
def fieldNames : List String :=
  ["node_type", "client", "gas", "migration", "nodes", "log"]

/-- All settings as a document, also those that have their standard value. -/
def toJson (c : Config) : Json :=
  .obj [("client", c.client.toJson), ("gas", c.gas.toJson), ("log", c.log.toJson),
    ("migration", c.migration.toJson), ("node_type", .ofOption NodeType.toJson c.nodeType),
    ("nodes", Wire.toJson c.nodes)]

/-- The type of node in a document : its name, or a table or list of that name with nothing
in it. -/
def nodeType? : Json → Option NodeType
  | .str name => NodeType.ofName? name
  | .obj [(name, .obj [])] => NodeType.ofName? name
  | .obj [(name, .arr [])] => NodeType.ofName? name
  | _ => none

/-- What is missing has its standard value. -/
def ofJson? (env : Environment) (v : Json) : Option Config := do
  let r ← v.record? fieldNames
  let nodeType ← r.maybe "node_type" nodeType?
  let client ← r.defaulted "client" (.standard env) (ClientSettings.ofJson? env)
  let gas ← r.defaulted "gas" .standard GasSettings.ofJson?
  let migration ← r.defaulted "migration" .standard MigrationSettings.ofJson?
  let nodes ← r.defaulted "nodes" [.standard] Wire.ofJson?
  let log ← r.defaulted "log" .standard LogSettings.ofJson?
  return ⟨nodeType, client, gas, migration, nodes, log⟩

/-- The settings of a document. -/
def ofText? (env : Environment) (text : String) : Option Config :=
  (Toml.read text).bind (ofJson? env)

/-- The settings as a document. -/
def text (c : Config) : String :=
  Toml.write c.toJson

/-- The node to deploy to. Without any choice it is a local one. -/
def node (c : Config) (env : Environment) : Except NodeFault NodeInfo :=
  (NodeType.select (env.get? "TEST_ENV") (env.get? "DAPP_NODE_TYPE")
    (c.nodeType.getD .localSecret)).bind (NodeInfo.select c.nodes)

end Config

end Handover
