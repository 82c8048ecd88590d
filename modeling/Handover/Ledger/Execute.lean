import Handover.Contract.DealerMsg
import Handover.Gzip.Member
import Handover.Json.Writer
import Handover.Ledger.Instantiate
import Handover.Text.Utf8

/-!
# Running messages

Each message acts on the ledger and reports events, data and gas, or is refused. A purchase
goes from the dealer on to its collection, where it mints one token for the buyer. An import
copies a slice of the tokens of the old collection, from the cursor on, and when it reaches the
end both collections change their mode and the subscribed dealers follow the new one.
-/

namespace Handover

namespace Ledger

/-- The gas of executing one message on one contract. -/
def executeGas : Nat := 150000

/-! ## Uploads -/

/-- What a module of a contract holds, up to the name of the contract. -/
def moduleStart : Bytes := [0x00, 0x61, 0x73, 0x6d, 0x01, 0x00, 0x00, 0x00]

/-- The kind of contract that compressed code is. -/
def detectKind (wasm : Bytes) : Option ContractKind :=
  (Gzip.unzip? wasm).bind fun content =>
    ContractKind.all.find? fun kind => content == moduleStart ++ Utf8.encode kind.name

/-- Stores code under the next number. -/
def storeCode (rules : ChainRules) (l : Ledger) (wasm : Bytes) :
    Except Refusal (Outcome × Ledger) :=
  if rules.rejectUploads then .error .uploadsOff
  else
    match detectKind wasm with
    | none => .error .unknownContract
    | some kind =>
      let codes := l.codes ++ [⟨Hex.encode (Sha256.digest wasm), kind⟩]
      let event : TxEvent := ⟨"message", [⟨"action", "/secret.compute.v1beta1.MsgStoreCode"⟩,
        ⟨"code_id", toString codes.length⟩]⟩
      .ok (⟨[event], [], 1500000 + wasm.length⟩, { l with codes })

/-! ## Tokens -/

/-- Refuses unless exactly one coin is sent and it is the first price in its denomination. -/
def checkFunds (prices funds : List Coin) : Except Refusal Unit :=
  match funds with
  | [sent] =>
    match prices.find? fun price => price.denom == sent.denom with
    | none => .error (.denomNotAllowed sent.denom)
    | some price => if price.amount = sent.amount then .ok () else .error (.wrongPrice price sent)
  | _ => .error (.notOneCoin funds.length)

/-- Sells one mint of a dealer. -/
def purchaseMint (l : Ledger) (buyer address : String) (funds : List Coin) :
    Except Refusal (Outcome × Ledger) := do
  let contract ← l.contract address
  contract.ensureRunning
  let dealer ← contract.dealer
  checkFunds dealer.prices funds
  let child ← l.contract dealer.child.address
  child.ensureRunning
  let collection ← child.collection
  if !collection.minters.contains address then throw .notMinter
  let id := toString collection.tokens.length
  let token : Token := ⟨id, buyer, dealer.publicMetadata, dealer.privateMetadata,
    collection.creator, address, l.blockTime⟩
  let collection := { collection with tokens := collection.tokens ++ [token] }
  let l := l.put (child.withCollection
    (collection.recordEntry l.height id (.mint address buyer)))
  let events := [Outcome.contractEvent address [],
    Outcome.contractEvent dealer.child.address [⟨"token_id", id⟩]]
  return (⟨events, [], 2 * executeGas⟩, l)

/-- Gives the first token of an id to a new owner. -/
def giveToken (id recipient : String) : List Token → List Token
  | [] => []
  | t :: ts =>
    if t.id = id then { t with owner := recipient } :: ts else t :: giveToken id recipient ts

/-- Gives a token of the sender to another account. -/
def transferNft (l : Ledger) (sender address recipient tokenId : String) :
    Except Refusal (Outcome × Ledger) := do
  let contract ← l.contract address
  contract.ensureRunning
  let collection ← contract.collection
  match collection.tokens.find? fun t => t.id == tokenId with
  | none => throw (.noToken tokenId)
  | some token =>
    if token.owner ≠ sender then throw (.notOwner tokenId)
    let collection := { collection with tokens := giveToken tokenId recipient collection.tokens }
    let l := l.put (contract.withCollection
      (collection.recordEntry l.height tokenId (.transfer sender recipient)))
    return (⟨[Outcome.contractEvent address []], [], executeGas⟩, l)

/-! ## Imports -/

/-- A natural number as a word of 32 bits, at most the largest one. -/
def saturated (n : Nat) : UInt32 :=
  UInt32.ofNat (min n (UInt32.size - 1))

/-- Where an import from `start` on stops : after some pages of at least one token each, or at
the end. Sums and products stop at the largest word. -/
def importEnd (start total : UInt32) (pages : Option UInt32) (pageSize : UInt32) : UInt32 :=
  match pages with
  | none => total
  | some pages =>
    let tokens := saturated (pages.toNat * max pageSize.toNat 1)
    UInt32.ofNat (min (saturated (start.toNat + tokens.toNat)).toNat total.toNat)

/-- A collection with one more token, minted again by the collection itself. -/
def importToken (height time : Nat) (address : String) (c : Collection) (t : Token) :
    Collection :=
  let c := c.recordEntry height t.id (.mint address t.owner)
  { c with tokens := c.tokens ++ [{ t with
      collectionCreator := c.creator
      tokenCreator := address
      timeOfMinting := time }] }

/-- Points a dealer to a new collection, if its collection was the one that is replaced. -/
def repoint (old : String) (new : ContractInfo) (l : Ledger) (receiver : String) : Ledger :=
  match l.contract? receiver with
  | some contract =>
    match contract.model with
    | .dealer dealer =>
      if dealer.child.address = old then
        l.put { contract with model := .dealer { dealer with child := new } }
      else l
    | .collection _ => l
  | none => l

/-- Ends an import : the new collection runs, the old one is retired, and the subscribed
dealers are told. -/
def finishImport (l : Ledger) (destination : Contract) (old : String) (notify : List String) :
    Except Refusal Ledger := do
  let l := l.put { destination with mode := .running }
  let source ← l.contract old
  let l := l.put { source with mode := .migratedOut }
  return notify.foldl (repoint old destination.info) l

/-- Imports the next tokens of a collection. -/
def importTokens (l : Ledger) (sender address : String) (pages : Option UInt32)
    (pageSize : UInt32) : Except Refusal (Outcome × Ledger) := do
  let contract ← l.contract address
  let collection ← contract.collection
  if contract.mode ≠ .migrateDataIn then throw (.unavailable contract.mode)
  match contract.migratedFrom with
  | none => throw (.nothingToImport address)
  | some origin =>
    if sender ≠ collection.admin then throw (.notImportAdmin origin.address)
    let source ← (← l.contract origin.address).collection
    let total := UInt32.ofNat source.tokens.length
    let start := collection.importCursor
    let stop := importEnd start total pages pageSize
    let slice := (source.tokens.take stop.toNat).drop start.toNat
    let filled := slice.foldl (importToken l.height l.blockTime contract.address) collection
    let destination := contract.withCollection { filled with importCursor := stop }
    let complete := stop = total
    let progress : ImportAnswer :=
      if complete then ⟨true, none, none⟩ else ⟨false, some stop, some total⟩
    let l ← if complete then finishImport l destination origin.address collection.notify
      else pure (l.put destination)
    let data := Utf8.encode (toJson (CollectionAnswer.migrateTokensIn progress)).compact
    let gas := executeGas + (stop.toNat - start.toNat) * 10000
    return (⟨[Outcome.contractEvent address []], data, gas⟩, l)

/-! ## Messages -/

/-- Executes a message on a contract. -/
def execute (rules : ChainRules) (l : Ledger) (sender address codeHash : String) (msg : Json)
    (funds : List Coin) : Except Refusal (Outcome × Ledger) := do
  let target ← l.contract address
  if target.codeHash ≠ codeHash then throw (.contractHashMismatch address)
  match target.model with
  | .dealer _ =>
    match ← parseMessage (α := DealerMsg) ofObject? "ExecuteMsg" msg with
    | .purchaseMint => l.purchaseMint sender address funds
  | .collection _ =>
    match ← parseMessage (α := CollectionMsg) ofObject? "ExecuteMsg" msg with
    | .transferNft recipient tokenId _ => l.transferNft sender address recipient tokenId
    | .migrateTokensIn pages pageSize =>
      l.importTokens sender address pages (pageSize.getD rules.pageSize)

/-- Sends coins. Balances are not kept. -/
def send (rules : ChainRules) (l : Ledger) (sender recipient : String) (amount : List Coin) :
    Except Refusal (Outcome × Ledger) :=
  if rules.rejectSends then .error (.sendsOff sender amount)
  else
    .ok (⟨[⟨"transfer", [⟨"recipient", recipient⟩, ⟨"sender", sender⟩]⟩], [], 60000⟩, l)

/-- Runs one message. -/
def apply (rules : ChainRules) (l : Ledger) : Msg → Except Refusal (Outcome × Ledger)
  | .storeCode _ wasm => storeCode rules l wasm
  | .instantiate sender codeId codeHash initMsg _ _ _ =>
    instantiate rules l sender codeId codeHash initMsg
  | .execute sender contract codeHash msg funds =>
    execute rules l sender contract codeHash msg funds
  | .send sender recipient amount => send rules l sender recipient amount

/-- Runs messages one after the other, from one index on. -/
def applyFrom (rules : ChainRules) : Nat → Ledger → List Msg →
    Except Refusal (List Outcome × Ledger)
  | _, l, [] => .ok ([], l)
  | index, l, msg :: msgs =>
    match apply rules l msg with
    | .error why => .error (.inMessage index why)
    | .ok (outcome, l) =>
      match applyFrom rules (index + 1) l msgs with
      | .error why => .error why
      | .ok (outcomes, l) => .ok (outcome :: outcomes, l)

/-- Runs the messages of a transaction in a new block. -/
def run (rules : ChainRules) (l : Ledger) (msgs : List Msg) :
    Except Refusal (List Outcome × Ledger) :=
  applyFrom rules 0 { l with height := l.height + 1 } msgs

end Ledger

end Handover
