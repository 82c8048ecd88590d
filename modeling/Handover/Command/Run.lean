import Handover.Code.Store
import Handover.Command.Arguments
import Handover.Command.Fault
import Handover.Migration.Orchestrator
import Handover.Migration.Verifier
import Handover.Network.Check
import Handover.Permit.KeyFile

/-!
# Running commands

A command first finds its configuration. `store` and `migrate` then open a session : they choose
the node, load the key of their account, connect to the service and check that it serves the
chain of the node. Only then is anything sent.

With tokens to verify, a migration asks the source all queries before it starts and the new
instance the same afterwards, and fails if the answers differ.
-/

namespace Handover

/-! ## Configuration -/

/-- Where the configuration is : where the option says, else where the environment says, else
at its usual place if there is anything. -/
def configPath? (env : Environment) (options : CommonOptions) : Dialogue host (Option String) :=
  match options.config, env.get? "DAPP_CONFIG_PATH", env.configDir? with
  | some path, _, _ => .done (some path)
  | none, some path, _ => .done (some path)
  | none, none, some dir => do
    let path := Path.join dir "config.toml"
    return if ← Host.isPresent path then some path else none
  | none, none, none => .done none

/-- The configuration of a file. -/
def Config.load (env : Environment) (path : String) : CommandProgram Config := do
  match (← (Host.read path : Dialogue host _)).bind Utf8.text? with
  | none => throw (.configUnreadable path)
  | some text =>
    match Config.ofText? env text with
    | some config => return config
    | none => throw (.configInvalid path)

/-- The configuration that is in force. -/
def Config.find (env : Environment) (options : CommonOptions) : CommandProgram Config := do
  match ← (configPath? env options : Dialogue host _) with
  | some path => Config.load env path
  | none => return .standard env

/-! ## Sessions -/

/-- An account at a node whose chain the service serves. -/
structure Session where
  node : NodeInfo
  account : LocalKey

/-- Opens a session. Nothing is sent before the chain was checked. -/
def Session.open (env : Environment) (config : Config) (account : String) :
    CommandProgram Session := do
  let node ← (config.node env).mapError CommandFault.node
  let path := config.client.keystore
  let keys ← (KeyStore.load path).orFail (.keystore path)
  let key ← (keys.key account).mapError fun why => CommandFault.plain (.signing why)
  let address ← (config.client.serviceAddress env).mapError CommandFault.address
  match ← (Host.connect address config.client.timeout : Dialogue host _) with
  | .error why => throw (.unreachable address.url why)
  | .ok () =>
    node.checkChainId.onHost.orFail .plain
    return ⟨node, key⟩

/-- The stored code of a kind of contract at the version of its manifest. -/
def Session.code (s : Session) (env : Environment) (config : Config) (kind : ContractKind) :
    CommandProgram (Version × CodeArtifact) := do
  let version ← (readManifestVersion (config.client.manifestPath kind)).orFail (.manifest kind)
  let store : CodeStore := ⟨config.client.deployedDir⟩
  let artifact ← (store.getOrStoreCode config.gas s.account.address
    (config.client.artifactPath env kind) ⟨kind.name, version, s.node.nodeType.name⟩).orFail .plain
  return (version, artifact)

/-! ## Storing code -/

/-- An entry of the report on stored code. -/
def storedEntry (kind : ContractKind) (version : Version) (artifact : CodeArtifact) :
    String × Json :=
  (kind.name, .obj [("version", .str version.text), ("code_id", .ofUInt64 artifact.codeId),
    ("code_hash", .str artifact.codeHash)])

/-- Stores the code of kinds of contract in turn and reports on each. -/
def Session.storeAll (s : Session) (env : Environment) (config : Config) :
    List ContractKind → CommandProgram (List (String × Json))
  | [] => return []
  | kind :: kinds => do
    let (version, artifact) ← s.code env config kind
    return storedEntry kind version artifact :: (← storeAll s env config kinds)

/-- Stores the code of one kind of contract or of all, and reports on it. -/
def runStore (env : Environment) (config : Config) (account : String)
    (kind : Option ContractKind) : CommandProgram String := do
  let session ← Session.open env config account
  let kinds := (kind.map fun k => [k]).getD ContractKind.all
  let stored ← session.storeAll env config kinds
  return (Json.obj stored).pretty ++ "\n"

/-! ## Migrating -/

/-- The verifier of a migration, if there is anything to verify. -/
def MigrateOptions.verifier? (o : MigrateOptions) (settings : MigrationSettings) :
    Option StateVerifier :=
  if o.kind.importsTokens && !o.verifyTokens.isEmpty then
    some (.standard settings.permitName o.verifyTokens)
  else none

/-- Moves the contract to a new instance of code. -/
def MigrateOptions.move (o : MigrateOptions) (orchestrator : Orchestrator) (code : CodeArtifact)
    (admin : Signer) : CommandProgram ContractInstance :=
  (orchestrator.migrate o.contract code o.kind admin).onHost.orFail (.migrate o.address)

/-- Moves the contract, between two captures if there is a verifier. -/
def MigrateOptions.moveVerified (o : MigrateOptions) (orchestrator : Orchestrator)
    (code : CodeArtifact) (admin : Signer) : CommandProgram ContractInstance := do
  match o.verifier? orchestrator.settings with
  | none => o.move orchestrator code admin
  | some verifier =>
    let before ← (verifier.capture admin o.contract).onHost.orFail (.capture o.address)
    let destination ← o.move orchestrator code admin
    let after ← (verifier.capture admin destination.info).onHost.orFail .plain
    (verifier.assertEquivalent before after).mapError CommandFault.plain
    return destination

/-- Goes on with the import into the contract. -/
def MigrateOptions.goOn (o : MigrateOptions) (orchestrator : Orchestrator) (admin : Signer) :
    CommandProgram ImportProgress :=
  if o.kind.importsTokens then
    (orchestrator.importTokens o.contract admin.address).onHost.orFail (.resume o.address)
  else throw (.nothingToResume o.kind)

/-- Migrates a contract, or goes on with an import, and reports on it. -/
def runMigrate (env : Environment) (config : Config) (fresh : Fresh) (o : MigrateOptions) :
    CommandProgram String := do
  let session ← Session.open env config o.account
  let admin := session.account.toSigner
  let orchestrator : Orchestrator := ⟨config.gas, config.migration, fresh⟩
  (Host.ofService (initializeAccount admin.address) : Dialogue host Unit)
  if o.resume then
    let progress ← o.goOn orchestrator admin
    return "token import into " ++ o.address ++ " complete after " ++ toString progress.calls ++
      " calls\n"
  else
    let (_, code) ← session.code env config o.kind
    let destination ← o.moveVerified orchestrator code admin
    return destination.info.text ++ "\n"

/-! ## Any command -/

/-- Runs a command and gives what it prints. -/
def Command.run (env : Environment) (fresh : Fresh) (options : CommonOptions)
    (command : Command) : CommandProgram String := do
  let config ← Config.find env options
  match command with
  | .store account kind => runStore env config account kind
  | .migrate o => runMigrate env config fresh o
  | .dumpConfig => return config.text ++ "\n"

/-- What the program says about its version. -/
def versionText : String :=
  "secret-dapp-deploy 0.4.0\n"

/-- What the program says about its use. -/
def helpText : String :=
  "Usage: dapp-deploy [OPTIONS] <COMMAND>\n\nCommands:\n" ++
    "  store    Upload contract code the selected node does not have yet\n" ++
    "  migrate  Migrate a running contract to a new instance\n" ++
    "  config   Inspect the configuration\n"

end Handover
