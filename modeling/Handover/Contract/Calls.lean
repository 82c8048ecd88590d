import Handover.Contract.CollectionMsg
import Handover.Contract.DealerMsg
import Handover.Contract.MigrationQuery
import Handover.Execute
import Handover.Permit.Signer

/-!
# Calls on contracts

What the contracts can be asked and told, each with the type of its answer. The calls on a
dealer come first, then those on a collection.
-/

namespace Handover.ContractInfo

/-- Asks a contract and reads its answer. -/
def ask {α : Type} (contract : ContractInfo) (query : Json) (read : Json → Option α) :
    Procedure α := do
  let answer ← Procedure.ofCall (Service.query contract.address contract.codeHash query)
  Procedure.ofOption .json (read answer)

/-- The message that executes something on a contract. -/
def executeMsg (contract : ContractInfo) (sender : String) (msg : Json) (funds : List Coin) :
    Msg :=
  .execute sender contract.address contract.codeHash msg funds

/-- Where a contract was migrated from, if it was. -/
def queryMigratedFrom (contract : ContractInfo) : Procedure (Option ContractInfo) :=
  MigrationInfoAnswer.contract <$> contract.ask (Wire.toJson MigrationQuery.migratedFrom) Wire.ofJson?

/-- Where a contract was migrated to, once a migration has started. -/
def queryMigratedTo (contract : ContractInfo) : Procedure (Option ContractInfo) :=
  MigrationInfoAnswer.contract <$> contract.ask (Wire.toJson MigrationQuery.migratedTo) Wire.ofJson?

/-! ## The dealer -/

/-- Buys one mint. The funds have to match one of the prices. -/
def purchaseMint (dealer : ContractInfo) (g : GasSettings) (buyer : String)
    (funds : List Coin) : Procedure (ExecuteResult Json) :=
  execute g Json.free? [dealer.executeMsg buyer (Wire.toJson DealerMsg.purchaseMint) funds]

/-- The prices of a mint. -/
def queryPrices (dealer : ContractInfo) : Procedure (List Coin) :=
  PricesAnswer.prices <$> dealer.ask (Wire.toJson DealerQuery.prices) Wire.ofJson?

/-- The collection that the dealer mints into. -/
def queryChild (dealer : ContractInfo) : Procedure ContractInfo :=
  ChildAnswer.contract <$> dealer.ask (Wire.toJson DealerQuery.child) Wire.ofJson?

/-! ## The collection -/

/-- Gives a token to another account. -/
def transferNft (contract : ContractInfo) (g : GasSettings) (sender recipient tokenId : String) :
    Procedure (ExecuteResult Json) :=
  execute g Json.free?
    [contract.executeMsg sender (Wire.toJson (CollectionMsg.transferNft recipient tokenId none)) []]

/-- Imports the next pages of tokens. The contract keeps the cursor, so that another call goes
on where this one stopped. -/
def migrateTokensIn (contract : ContractInfo) (g : GasSettings) (admin : String)
    (pages pageSize : Option UInt32) : Procedure (ExecuteResult CollectionAnswer) :=
  execute g Wire.ofJson?
    [contract.executeMsg admin (Wire.toJson (CollectionMsg.migrateTokensIn pages pageSize)) []]

/-- Name and symbol. -/
def queryContractInfo (contract : ContractInfo) : Procedure Json :=
  contract.ask (Wire.toJson CollectionQuery.contractInfo) Json.free?

/-- What the collection allows. -/
def queryContractConfig (contract : ContractInfo) : Procedure Json :=
  contract.ask (Wire.toJson CollectionQuery.contractConfig) Json.free?

/-- The number of tokens. -/
def queryNumTokens (contract : ContractInfo) : Procedure UInt32 :=
  NumTokensAnswer.count <$> contract.ask (Wire.toJson CollectionQuery.numTokens) Wire.ofJson?

/-- The accounts that may mint. -/
def queryMinters (contract : ContractInfo) : Procedure (List String) :=
  MintersAnswer.minters <$> contract.ask (Wire.toJson CollectionQuery.minters) Wire.ofJson?

/-- Asks with an owner permit by the viewer. The answer is a free value. -/
def queryWithPermit (contract : ContractInfo) (viewer : Signer) (permitName : String)
    (query : PermitQuery) : Procedure Json := do
  let permit ← viewer.ownerPermit permitName contract.address
  contract.ask (Wire.toJson (CollectionQuery.withPermit permit query)) Json.free?

/-- The number of tokens of an owner, as the viewer may see it. -/
def queryNumTokensOfOwner (contract : ContractInfo) (viewer : Signer) (permitName : String)
    (owner : String) : Procedure UInt32 := do
  let answer ← contract.queryWithPermit viewer permitName (.numTokensOfOwner owner)
  NumTokensAnswer.count <$> Procedure.ofOption .json (Wire.ofJson? answer)

/-- The dossiers of tokens. -/
def queryBatchNftDossier (contract : ContractInfo) (viewer : Signer) (permitName : String)
    (tokenIds : List String) : Procedure Json :=
  contract.queryWithPermit viewer permitName (.batchNftDossier tokenIds)

/-- The transactions of the viewer. -/
def queryTransactionHistory (contract : ContractInfo) (viewer : Signer) (permitName : String) :
    Procedure Json :=
  contract.queryWithPermit viewer permitName (.transactionHistory none none)

end Handover.ContractInfo
