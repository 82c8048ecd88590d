import Handover.Contract.Basic
import Handover.Contract.CollectionMsg
import Handover.Contract.Instantiation

/-!
# The state of the chain

The ledger holds the stored code, the contracts and the height. A contract is a dealer or a
collection of tokens, and it is in one of four modes. A collection that is migrated goes from
`running` over `migrateOutStarted` to `migratedOut`, while the collection that takes its place
goes from `migrateDataIn` to `running`. A dealer goes from `running` to `migratedOut` at once.
-/

namespace Handover

/-- Where a contract stands in its life. -/
inductive Mode where
  | running
  | migrateDataIn
  | migrateOutStarted
  | migratedOut
  deriving DecidableEq, Repr

/-- The name of a mode. -/
def Mode.name : Mode → String
  | running => "Running"
  | migrateDataIn => "MigrateDataIn"
  | migrateOutStarted => "MigrateOutStarted"
  | migratedOut => "MigratedOut"

/-- A token of a collection. -/
structure Token where
  id : String
  owner : String
  publicMetadata : Option Metadata
  privateMetadata : Option Metadata
  collectionCreator : String
  tokenCreator : String
  timeOfMinting : Nat
  deriving DecidableEq, Repr

/-- What a collection tells about a token. -/
def Token.dossier (t : Token) : Json :=
  .obj [
    ("mint_run_info", .obj [
      ("collection_creator", .str t.collectionCreator),
      ("mint_run", .ofNat 1),
      ("quantity_minted_this_run", .null),
      ("serial_number", .null),
      ("time_of_minting", .ofNat t.timeOfMinting),
      ("token_creator", .str t.tokenCreator)]),
    ("owner", .str t.owner),
    ("private_metadata", .ofOption Wire.toJson t.privateMetadata),
    ("public_metadata", .ofOption Wire.toJson t.publicMetadata),
    ("token_id", .str t.id)]

/-- What happened to a token. -/
inductive TokenAction where
  | mint (minter recipient : String)
  | transfer (sender recipient : String)
  deriving DecidableEq, Repr

/-- The written form of an action. -/
def TokenAction.toJson : TokenAction → Json
  | mint minter recipient =>
    .ofVariant "mint" (.obj [("minter", .str minter), ("recipient", .str recipient)])
  | transfer sender recipient =>
    .ofVariant "transfer" (.obj [("from", .str sender), ("recipient", .str recipient)])

/-- An entry of the history of a collection. -/
structure HistoryEntry where
  txId : Nat
  height : Nat
  tokenId : String
  action : TokenAction
  deriving DecidableEq, Repr

/-- The written form of an entry. -/
def HistoryEntry.toJson (e : HistoryEntry) : Json :=
  .obj [("action", e.action.toJson), ("block_height", .ofNat e.height),
    ("token_id", .str e.tokenId), ("tx_id", .ofNat e.txId)]

/-- A collection of tokens. -/
structure Collection where
  name : String
  symbol : String
  admin : String
  /-- Who instantiated it, reported with every token. -/
  creator : String
  minters : List String
  /-- The contracts that are told of its successor. -/
  notify : List String
  tokens : List Token
  /-- How many tokens were imported so far. -/
  importCursor : UInt32
  history : List HistoryEntry
  deriving DecidableEq, Repr

/-- A collection without tokens. -/
def Collection.fresh (name symbol admin creator : String) (minters notify : List String) :
    Collection :=
  ⟨name, symbol, admin, creator, minters, notify, [], 0, []⟩

/-- A collection with one more entry in its history. -/
def Collection.recordEntry (c : Collection) (height : Nat) (tokenId : String)
    (action : TokenAction) : Collection :=
  { c with history := c.history ++ [⟨c.history.length, height, tokenId, action⟩] }

/-- A dealer of tokens. -/
structure Dealer where
  admin : String
  prices : List Coin
  publicMetadata : Option Metadata
  privateMetadata : Option Metadata
  /-- The collection it mints into. -/
  child : ContractInfo
  deriving DecidableEq, Repr

/-- The state of a contract by its kind. -/
inductive Model where
  | dealer (d : Dealer)
  | collection (c : Collection)
  deriving DecidableEq, Repr

/-- A contract on the chain. -/
structure Contract where
  address : String
  codeHash : String
  mode : Mode
  migratedFrom : Option ContractInfo
  migratedTo : Option ContractInfo
  model : Model
  deriving DecidableEq, Repr

namespace Contract

/-- A contract that starts in a mode, with where it came from. -/
def start (address codeHash : String) (mode : Mode) (source : Option ContractInfo)
    (model : Model) : Contract :=
  ⟨address, codeHash, mode, source, none, model⟩

/-- Address and code hash. -/
def info (c : Contract) : ContractInfo :=
  ⟨c.address, c.codeHash⟩

/-- The admin of a contract. -/
def admin (c : Contract) : String :=
  match c.model with
  | .dealer d => d.admin
  | .collection c => c.admin

end Contract

/-- Code that was stored. -/
structure StoredCode where
  hash : String
  kind : ContractKind
  deriving DecidableEq, Repr

/-- The state of the chain. -/
structure Ledger where
  codes : List StoredCode
  contracts : List Contract
  height : Nat
  /-- How many addresses were given out. -/
  instantiated : Nat
  deriving DecidableEq, Repr

namespace Ledger

/-- A chain on which nothing happened. -/
def empty : Ledger :=
  ⟨[], [], 0, 0⟩

/-- The contract of an address. -/
def contract? (l : Ledger) (address : String) : Option Contract :=
  l.contracts.find? fun c => c.address == address

/-- Puts a contract in the place of the one with its address, or at the end. -/
def putContract (c : Contract) : List Contract → List Contract
  | [] => [c]
  | d :: ds => if d.address = c.address then c :: ds else d :: putContract c ds

/-- Puts a contract. -/
def put (l : Ledger) (c : Contract) : Ledger :=
  { l with contracts := putContract c l.contracts }

/-- The code of a number. Numbers start from one. -/
def code? (l : Ledger) (codeId : UInt64) : Option StoredCode :=
  if codeId = 0 then none else l.codes[codeId.toNat - 1]?

/-- A number in at least four digits. -/
def paddedNumber (n : Nat) : String :=
  let ds := Nat.toDigits 10 n
  String.ofList (List.replicate (4 - ds.length) '0' ++ ds)

/-- The address with a number. -/
def addressOf (n : Nat) : String :=
  "secret1contract" ++ paddedNumber n

/-- The address that is given out next. -/
def nextAddress (l : Ledger) : String :=
  addressOf (l.instantiated + 1)

/-- The ledger after an address was given out. -/
def afterAddress (l : Ledger) : Ledger :=
  { l with instantiated := l.instantiated + 1 }

/-- The time of the present block, in seconds. -/
def blockTime (l : Ledger) : Nat :=
  1700000000 + l.height * 6

end Ledger

end Handover
