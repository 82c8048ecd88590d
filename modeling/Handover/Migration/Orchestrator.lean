import Handover.Contract.Calls
import Handover.Contract.Instantiation
import Handover.Deploy
import Handover.Migration.Settings

/-!
# Migrating a contract

A contract moves by a new instance that pulls its state. The new instance is made with an
owner permit for the old one, signed by the admin. A collection then imports its tokens page
by page, until it reports that it is complete. Nothing that changes the chain is tried twice.
-/

namespace Handover

/-- What the new instance needs to pull state. -/
structure MigrationRequest where
  source : ContractInfo
  adminPermit : Permit
  entropy : String
  deriving DecidableEq, Repr

/-- The message that the new instance is made with. -/
def MigrationRequest.initMsg (r : MigrationRequest) : InstantiateMsg Json :=
  .migrate ⟨⟨r.source.address, r.source.codeHash, r.adminPermit⟩, r.entropy⟩

/-- How migrations are sent. -/
structure Orchestrator where
  gas : GasSettings
  settings : MigrationSettings
  /-- The numbers drawn for the new instance. -/
  fresh : Fresh
  deriving DecidableEq, Repr

namespace Orchestrator

/-- Signs an owner permit for the source, as proof that its admin wants the move. -/
def request (o : Orchestrator) (source : ContractInfo) (admin : Signer) :
    Procedure MigrationRequest := do
  let permit ← admin.ownerPermit o.settings.permitName source.address
  return ⟨source, permit, o.fresh.entropyText⟩

/-- Makes the new instance. -/
def start (o : Orchestrator) (source : ContractInfo) (code : CodeArtifact)
    (kind : ContractKind) (admin : Signer) : Procedure ContractInstance := do
  let request ← o.request source admin
  instantiate o.gas code (toJson request.initMsg)
    ⟨admin.address, o.fresh.labelFor kind.labelBase, none, none⟩

/-- One call of an import, and what it reports. -/
def importCall (o : Orchestrator) (destination : ContractInfo) (admin : String) :
    Procedure ImportAnswer := do
  let result ← destination.migrateTokensIn o.gas admin o.settings.pagesPerCall
    o.settings.pageSize
  match ← result.intoAnswer with
  | some (.migrateTokensIn answer) => return answer
  | none => throw (.paging .noProgress)

/-- Calls until the import is complete, at most `calls` times from `progress` on. -/
def importFrom (o : Orchestrator) (destination : ContractInfo) (admin : String) :
    Nat → ImportProgress → Procedure ImportProgress
  | 0, progress => throw (.paging (.incomplete destination.address progress.calls))
  | calls + 1, progress => do
    let answer ← o.importCall destination admin
    match progress.observe answer with
    | (_, some fault) => throw (.paging fault)
    | (progress, none) =>
      if progress.complete then return progress
      else importFrom o destination admin calls progress

/-- Imports tokens until the new instance reports that it is complete. The contract keeps the
cursor, so this also goes on with an import that was interrupted. -/
def importTokens (o : Orchestrator) (destination : ContractInfo) (admin : String) :
    Procedure ImportProgress :=
  o.importFrom destination admin o.settings.maxPageCalls.toNat .start

/-- Makes the new instance and imports the tokens, if the kind of contract holds any. -/
def migrate (o : Orchestrator) (source : ContractInfo) (code : CodeArtifact)
    (kind : ContractKind) (admin : Signer) : Procedure ContractInstance := do
  let destination ← o.start source code kind admin
  if kind.importsTokens then
    let _ ← o.importTokens destination.info admin.address
    return destination
  else return destination

end Orchestrator

end Handover
