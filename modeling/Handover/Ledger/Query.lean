import Handover.Contract.DealerMsg
import Handover.Contract.MigrationQuery
import Handover.Json.Writer
import Handover.Ledger.Access

/-!
# Queries on the chain

Every contract tells where it came from and went to, in any mode. A dealer answers while it
runs. A collection answers while it runs and while its tokens are being moved, and a retired
collection still shows the history.
-/

namespace Handover

/-- Whether a run of characters stands in a text. -/
def Text.hasRun (run : List Char) : List Char → Bool
  | [] => run.isEmpty
  | c :: cs => run.isPrefixOf (c :: cs) || hasRun run cs

namespace Collection

/-- Whether the written entry names an account, in quotes. -/
def entryNames (viewer : String) (e : HistoryEntry) : Bool :=
  Text.hasRun ('"' :: (viewer.toList ++ ['"'])) (Json.write e.toJson [])

/-- What a collection allows. -/
def configAnswer : Json :=
  .obj [("contract_config", .obj [
    ("burn_is_enabled", .bool false),
    ("minter_may_update_metadata", .bool true),
    ("owner_is_public", .bool false),
    ("owner_may_update_metadata", .bool false),
    ("sealed_metadata_is_enabled", .bool false),
    ("token_supply_is_public", .bool true),
    ("unwrapped_metadata_is_private", .bool false)])]

/-- The number of tokens in an answer. -/
def countAnswer (n : Nat) : Json :=
  .obj [("num_tokens", .obj [("count", .ofNat n)])]

/-- The dossier of a token. -/
def dossier (c : Collection) (id : String) : Except Refusal Json :=
  match c.tokens.find? fun t => t.id == id with
  | some t => .ok t.dossier
  | none => .error (.noToken id)

/-- What a collection answers to the viewer that a permit names. -/
def answerViewer (c : Collection) (viewer : String) : PermitQuery → Except Refusal Json
  | .numTokensOfOwner owner =>
    if owner ≠ viewer ∧ viewer ≠ c.admin then .error (.notViewer viewer owner)
    else .ok (countAnswer (c.tokens.filter fun t => t.owner == owner).length)
  | .batchNftDossier ids => do
    let dossiers ← ids.mapM c.dossier
    return .obj [("batch_nft_dossier", .obj [("nft_dossiers", .arr dossiers)])]
  | .transactionHistory .. =>
    let txs := (c.history.filter (entryNames viewer)).map HistoryEntry.toJson
    .ok (.obj [("transaction_history", .obj [("total", .ofNat txs.length), ("txs", .arr txs)])])

end Collection

namespace Ledger

/-- Whether a collection in a mode answers a query. -/
def answersIn (mode : Mode) (query : CollectionQuery) : Bool :=
  match mode with
  | .running => true
  | .migrateOutStarted => true
  | .migratedOut => query.asksHistory
  | .migrateDataIn => false

/-- What a dealer answers. -/
def queryDealer (contract : Contract) (d : Dealer) (query : Json) : Except Refusal Json := do
  let query ← parseMessage (α := DealerQuery) ofObject? "QueryMsg" query
  contract.ensureRunning
  match query with
  | .prices => return toJson (PricesAnswer.mk d.prices)
  | .child => return toJson (ChildAnswer.mk d.child)

/-- What a collection answers. -/
def queryCollection (rules : ChainRules) (contract : Contract) (c : Collection)
    (query : Json) : Except Refusal Json := do
  let query ← parseMessage (α := CollectionQuery) ofObject? "QueryMsg" query
  if !answersIn contract.mode query then throw (.unavailable contract.mode)
  match query with
  | .contractInfo =>
    return .obj [("contract_info", .obj [("name", .str c.name), ("symbol", .str c.symbol)])]
  | .contractConfig => return Collection.configAnswer
  | .numTokens => return Collection.countAnswer c.tokens.length
  | .minters => return toJson (MintersAnswer.mk c.minters)
  | .withPermit permit query =>
    let viewer ← rules.permitCreator permit contract.address
    c.answerViewer viewer query

/-- What a contract answers. A code hash that is empty is not compared. -/
def query (rules : ChainRules) (l : Ledger) (address codeHash : String) (query : Json) :
    Except Refusal Json := do
  let contract ← l.contract address
  if codeHash ≠ "" ∧ contract.codeHash ≠ codeHash then throw (.contractHashMismatch address)
  match (ofObject? query : Option MigrationQuery) with
  | some .migratedFrom => return toJson (MigrationInfoAnswer.mk contract.migratedFrom)
  | some .migratedTo => return toJson (MigrationInfoAnswer.mk contract.migratedTo)
  | none =>
    match contract.model with
    | .dealer d => queryDealer contract d query
    | .collection c => queryCollection rules contract c query

end Ledger

end Handover
