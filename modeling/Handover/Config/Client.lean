import Handover.Contract.Basic
import Handover.Environment
import Handover.ServiceAddress

/-!
# Settings of files and service

Where contracts, their builds, the records of stored code and the keys are found, and how the
service is reached. The environment overrules the directory of builds and the service.
-/

namespace Handover

/-- Places of files, and the service. -/
structure ClientSettings where
  /-- The root of the records of stored code. -/
  deployedDir : String
  /-- The contracts, each in a directory of its own with its manifest. -/
  contractsDir : String
  /-- The builds, if they are not with the contracts. -/
  artifactDir : Option String
  keystore : String
  /-- The service, in its written form. -/
  service : Option String
  /-- In seconds. -/
  timeout : UInt64
  deriving DecidableEq, Repr

namespace ClientSettings

/-- The settings that stand for what is missing. -/
def standard (env : Environment) : ClientSettings where
  deployedDir := "deployed"
  contractsDir := "contracts"
  artifactDir := none
  keystore := (env.dataDir?.map (Path.join · "keystore.json")).getD "keystore.json"
  service := none
  timeout := 60

/-- The names of the settings, in their order. -/
def fieldNames : List String :=
  ["deployed_dir", "contracts_dir", "artifact_dir", "keystore", "api_info", "rpc_timeout"]

/-- The written form of the settings. What is not set is `null`. -/
def toJson (c : ClientSettings) : Json :=
  .obj [("api_info", .ofOption .str c.service), ("artifact_dir", .ofOption .str c.artifactDir),
    ("contracts_dir", .str c.contractsDir), ("deployed_dir", .str c.deployedDir),
    ("keystore", .str c.keystore), ("rpc_timeout", .ofUInt64 c.timeout)]

/-- What is missing has its standard value. -/
def ofJson? (env : Environment) (v : Json) : Option ClientSettings := do
  let r ← v.record? fieldNames
  let s := standard env
  let deployedDir ← r.defaulted "deployed_dir" s.deployedDir Json.string?
  let contractsDir ← r.defaulted "contracts_dir" s.contractsDir Json.string?
  let artifactDir ← r.maybe "artifact_dir" Json.string?
  let keystore ← r.defaulted "keystore" s.keystore Json.string?
  let service ← r.maybe "api_info" Json.string?
  let timeout ← r.defaulted "rpc_timeout" s.timeout Json.uint64?
  return ⟨deployedDir, contractsDir, artifactDir, keystore, service, timeout⟩

/-- The directory of builds. -/
def buildDir (c : ClientSettings) (env : Environment) : String :=
  ((env.get? "CONTRACT_PATH").or c.artifactDir).getD c.contractsDir

/-- The build of a kind of contract. -/
def artifactPath (c : ClientSettings) (env : Environment) (kind : ContractKind) : String :=
  Path.join (c.buildDir env) kind.artifactFileName

/-- The manifest of a kind of contract. -/
def manifestPath (c : ClientSettings) (kind : ContractKind) : String :=
  Path.join (Path.join c.contractsDir kind.name) "Cargo.toml"

/-- The service that is used : the one of the environment, else the configured one, else the
standard one. -/
def serviceAddress (c : ClientSettings) (env : Environment) :
    Except AddressFault ServiceAddress :=
  match env.get? "SECRET_SIGNER_API_INFO", c.service with
  | some text, _ => ServiceAddress.ofText text
  | none, some text => ServiceAddress.ofText text
  | none, none => .ok ServiceAddress.standard

end ClientSettings

end Handover
