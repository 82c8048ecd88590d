import Handover.Ledger.Access

/-!
# Instantiating on the chain

A fresh dealer brings its collection with it, as minter of it and subscribed to its successor.
A migrating dealer takes over the state of the old one at once, together with its place at the
collection. A migrating collection only takes over name, minters and subscribers, and then
imports the tokens.
-/

namespace Handover

/-- What a collection from scratch is instantiated with. -/
structure CollectionInit where
  name : String
  symbol : String
  admin : Option String
  deriving DecidableEq, Repr

namespace CollectionInit

/-- The written form of the start of a collection. -/
def toJson (c : CollectionInit) : Json :=
  .obj [("admin", .ofOption .str c.admin), ("name", .str c.name), ("symbol", .str c.symbol)]

/-- Reads the start of a collection. Only the admin may be missing. -/
def ofJson? (v : Json) : Option CollectionInit := do
  let r ← v.record? ["name", "symbol", "admin"]
  return ⟨← r.required "name" Json.string?, ← r.required "symbol" Json.string?,
    ← r.maybe "admin" Json.string?⟩

instance : Wire CollectionInit := ⟨toJson, ofJson?⟩

end CollectionInit

namespace Ledger

/-- The gas of one new contract. -/
def instantiateGas : Nat := 200000

/-- Who instantiates what, and the address it gets. -/
structure Site where
  sender : String
  address : String
  codeHash : String
  deriving DecidableEq, Repr

/-- A collection from scratch. Its admin may mint. -/
def newCollection (l : Ledger) (site : Site) (init : CollectionInit) : Ledger :=
  let admin := init.admin.getD site.sender
  l.put (.start site.address site.codeHash .running none
    (.collection (.fresh init.name init.symbol admin site.sender [admin] [])))

/-- A dealer from scratch with its collection, and the address of that. -/
def newDealer (l : Ledger) (site : Site) (init : DealerInit) :
    Except Refusal (Ledger × String) := do
  let code ← l.code init.childCodeId
  if code.kind ≠ .migratable ∨ code.hash ≠ init.childCodeHash then
    throw (.notChildCode init.childCodeId init.childCodeHash)
  let admin := init.admin.getD site.sender
  let child := l.nextAddress
  let collection := Collection.fresh "PurchasableSnip721" "PUR721" admin site.address
    [site.address] [site.address]
  let dealer : Dealer := ⟨admin, init.prices, init.publicMetadata, init.privateMetadata,
    ⟨child, code.hash⟩⟩
  let l := l.afterAddress.put (.start child code.hash .running none (.collection collection))
  let l := l.put (.start site.address site.codeHash .running none (.dealer dealer))
  return (l, child)

/-- An address replaced by another. -/
def swapped (old new address : String) : String :=
  if address = old then new else address

/-- A dealer with the state of another one, which it replaces also at their collection. -/
def migrateDealer (rules : ChainRules) (l : Ledger) (site : Site) (m : MigrateFrom) :
    Except Refusal Ledger := do
  let source ← l.contract m.address
  let dealer ← source.dealer
  source.ensureRunning
  rules.checkAdminPermit m.adminPermit m.address dealer.admin
  let child ← l.contract dealer.child.address
  let collection ← child.collection
  let swap := swapped source.address site.address
  let l := l.put (child.withCollection
    { collection with
      minters := collection.minters.map swap
      notify := collection.notify.map swap })
  let source ← l.contract m.address
  let l := l.put { source with
    mode := .migratedOut
    migratedTo := some ⟨site.address, site.codeHash⟩ }
  return l.put (.start site.address site.codeHash .running (some source.info) (.dealer dealer))

/-- A collection that will import the tokens of another one. -/
def migrateCollection (rules : ChainRules) (l : Ledger) (site : Site) (m : MigrateFrom) :
    Except Refusal Ledger := do
  let source ← l.contract m.address
  let collection ← source.collection
  if source.migratedTo.isSome then throw .alreadyMigrated
  source.ensureRunning
  rules.checkAdminPermit m.adminPermit m.address collection.admin
  let l := l.put { source with
    mode := .migrateOutStarted
    migratedTo := some ⟨site.address, site.codeHash⟩ }
  return l.put (.start site.address site.codeHash .migrateDataIn (some source.info)
    (.collection (.fresh collection.name collection.symbol collection.admin site.sender
      collection.minters collection.notify)))

/-- Makes an instance of code. -/
def instantiate (rules : ChainRules) (l : Ledger) (sender : String) (codeId : UInt64)
    (codeHash : String) (initMsg : Json) : Except Refusal (Outcome × Ledger) := do
  let code ← l.code codeId
  if code.hash ≠ codeHash then throw (.codeHashMismatch codeId)
  let msg ← parseMessage (α := InstantiateMsg Json) Wire.ofJson? "InstantiateMsg" initMsg
  let site : Site := ⟨sender, l.nextAddress, code.hash⟩
  let made := Outcome.contractEvent site.address []
  let l := l.afterAddress
  match code.kind, msg with
  | .dealer, .fresh init =>
    let init ← parseMessage (α := DealerInit) Wire.ofJson? "InstantiateMsg" init
    let (l, child) ← l.newDealer site init
    return (⟨[made, Outcome.contractEvent child []], [], 2 * instantiateGas⟩, l)
  | .migratable, .fresh init =>
    let init ← parseMessage (α := CollectionInit) Wire.ofJson? "InstantiateMsg" init
    return (⟨[made], [], instantiateGas⟩, l.newCollection site init)
  | .dealer, .migrate m =>
    let l ← migrateDealer rules l site m.source
    return (⟨[made], [], instantiateGas⟩, l)
  | .migratable, .migrate m =>
    let l ← migrateCollection rules l site m.source
    return (⟨[made], [], instantiateGas⟩, l)

end Ledger

end Handover
