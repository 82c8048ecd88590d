import Handover.Proofs.Ledger.Address
import Handover.Proofs.Ledger.Checks

/-!
# What messages do

A message that goes through has found certain contracts in certain states, and then changes
the ledger in a way that follows from them. Each kind of message has a record of what it found
(`Sale`, `Transfer`, `Import`, `DealerMove`, `CollectionMove`), with the ledger after it, and
goes through exactly when there is such a record (`purchaseMint_eq_ok` and its siblings).
-/

namespace Handover

namespace Ledger

/-! ## Sales -/

/-- A running dealer, and its running collection in which it may mint. -/
structure Sale (l : Ledger) (address : String) (funds : List Coin) where
  contract : Contract
  dealer : Dealer
  child : Contract
  collection : Collection
  found : l.contract? address = some contract
  running : contract.mode = .running
  isDealer : contract.model = .dealer dealer
  paid : PaysPrice dealer.prices funds
  childFound : l.contract? dealer.child.address = some child
  childRunning : child.mode = .running
  isCollection : child.model = .collection collection
  isMinter : address ∈ collection.minters

namespace Sale

variable {l : Ledger} {address : String} {funds : List Coin} (sale : Sale l address funds)

/-- The token that is minted. -/
def token (buyer : String) : Token :=
  ⟨toString sale.collection.tokens.length, buyer, sale.dealer.publicMetadata,
    sale.dealer.privateMetadata, sale.collection.creator, address, l.blockTime⟩

/-- The collection after the sale. -/
def sold (buyer : String) : Collection :=
  { sale.collection with tokens := sale.collection.tokens ++ [sale.token buyer] }.recordEntry
    l.height (sale.token buyer).id (.mint address buyer)

/-- The ledger after the sale. -/
def after (buyer : String) : Ledger :=
  l.put (sale.child.withCollection (sale.sold buyer))

/-- What the sale reports. -/
def outcome (buyer : String) : Outcome :=
  ⟨[Outcome.contractEvent address [],
    Outcome.contractEvent sale.dealer.child.address [⟨"token_id", (sale.token buyer).id⟩]],
    [], 2 * executeGas⟩

end Sale

/-- A purchase goes through exactly as a sale. -/
theorem purchaseMint_eq_ok {l l' : Ledger} {buyer address : String} {funds : List Coin}
    {o : Outcome} : l.purchaseMint buyer address funds = .ok (o, l') ↔
      ∃ sale : Sale l address funds, sale.outcome buyer = o ∧ sale.after buyer = l' := by
  unfold purchaseMint
  simp only [bind_eq_ok, refuse_if_eq_ok, pure_eq_ok, contract_eq_ok, Contract.dealer_eq_ok,
    Contract.collection_eq_ok, Contract.ensureRunning_eq_ok, checkFunds_eq_ok]
  constructor
  · rintro ⟨c, hc, -, hr, d, hd, -, hf, k, hk, -, hkr, s, hs, hm, h⟩
    obtain ⟨rfl, rfl⟩ := Prod.mk.inj h
    exact ⟨⟨c, d, k, s, hc, hr, hd, hf, hk, hkr, hs, by simpa using hm⟩, rfl, rfl⟩
  · rintro ⟨⟨c, d, k, s, hc, hr, hd, hf, hk, hkr, hs, hm⟩, rfl, rfl⟩
    exact ⟨c, hc, (), hr, d, hd, (), hf, k, hk, (), hkr, s, hs, by simpa using hm, rfl⟩

/-! ## Transfers -/

/-- A running collection with a token of the sender. -/
structure Transfer (l : Ledger) (sender address tokenId : String) where
  contract : Contract
  collection : Collection
  token : Token
  found : l.contract? address = some contract
  running : contract.mode = .running
  isCollection : contract.model = .collection collection
  tokenFound : (collection.tokens.find? fun t => t.id == tokenId) = some token
  isOwner : token.owner = sender

namespace Transfer

variable {l : Ledger} {sender address tokenId : String} (t : Transfer l sender address tokenId)

/-- The collection after the transfer. -/
def given (recipient : String) : Collection :=
  { t.collection with
    tokens := giveToken tokenId recipient t.collection.tokens }.recordEntry l.height tokenId
      (.transfer sender recipient)

/-- The ledger after the transfer. -/
def after (recipient : String) : Ledger :=
  l.put (t.contract.withCollection (t.given recipient))

end Transfer

/-- A transfer goes through exactly if the sender owns the token. -/
theorem transferNft_eq_ok {l l' : Ledger} {sender address recipient tokenId : String}
    {o : Outcome} : l.transferNft sender address recipient tokenId = .ok (o, l') ↔
      ∃ t : Transfer l sender address tokenId,
        ⟨[Outcome.contractEvent address []], [], executeGas⟩ = o ∧ t.after recipient = l' := by
  unfold transferNft
  simp only [bind_eq_ok, contract_eq_ok, Contract.collection_eq_ok, Contract.ensureRunning_eq_ok]
  constructor
  · rintro ⟨c, hc, -, hr, s, hs, h⟩
    cases ht : s.tokens.find? fun t => t.id == tokenId with
    | none => simp [ht, throw_eq_ok] at h
    | some t =>
      simp only [ht, refuse_if_eq_ok, pure_eq_ok, ne_eq, not_not] at h
      obtain ⟨ho, h⟩ := h
      obtain ⟨rfl, rfl⟩ := Prod.mk.inj h
      exact ⟨⟨c, s, t, hc, hr, hs, ht, ho⟩, rfl, rfl⟩
  · rintro ⟨⟨c, s, t, hc, hr, hs, ht, ho⟩, rfl, rfl⟩
    refine ⟨c, hc, (), hr, s, hs, ?_⟩
    simp only [ht, refuse_if_eq_ok, pure_eq_ok, ne_eq, not_not]
    exact ⟨ho, rfl⟩

/-! ## Imports -/

/-- A collection that imports for its admin, and the collection it imports from. -/
structure Import (l : Ledger) (sender address : String) where
  contract : Contract
  collection : Collection
  origin : ContractInfo
  source : Contract
  sourceCollection : Collection
  found : l.contract? address = some contract
  isCollection : contract.model = .collection collection
  importing : contract.mode = .migrateDataIn
  comesFrom : contract.migratedFrom = some origin
  isAdmin : sender = collection.admin
  sourceFound : l.contract? origin.address = some source
  sourceIsCollection : source.model = .collection sourceCollection

namespace Import

variable {l : Ledger} {sender address : String} (i : Import l sender address)

/-- How many tokens there are to import, as a word. -/
def total : UInt32 :=
  UInt32.ofNat i.sourceCollection.tokens.length

/-- Where the import stops. -/
def stop (pages : Option UInt32) (pageSize : UInt32) : UInt32 :=
  importEnd i.collection.importCursor i.total pages pageSize

/-- The tokens up to where the import stops. -/
def slice (stop : UInt32) : List Token :=
  (i.sourceCollection.tokens.take stop.toNat).drop i.collection.importCursor.toNat

/-- The collection with the tokens up to where the import stops. -/
def filled (stop : UInt32) : Collection :=
  { (i.slice stop).foldl (importToken l.height l.blockTime i.contract.address) i.collection with
    importCursor := stop }

/-- The contract with the tokens up to where the import stops. -/
def destination (stop : UInt32) : Contract :=
  i.contract.withCollection (i.filled stop)

/-- What the import reports. -/
def answer (stop : UInt32) : ImportAnswer :=
  if stop = i.total then ⟨true, none, none⟩ else ⟨false, some stop, some i.total⟩

/-- The outcome of the import. -/
def outcome (stop : UInt32) : Outcome :=
  ⟨[Outcome.contractEvent address []],
    Utf8.encode (toJson (CollectionAnswer.migrateTokensIn (i.answer stop))).compact,
    executeGas + (stop.toNat - i.collection.importCursor.toNat) * 10000⟩

/-- The ledger with the new collection running, before the old one is retired. -/
def opened (stop : UInt32) : Ledger :=
  l.put { i.destination stop with mode := .running }

/-- The ledger after the last page, `source` being the old collection. -/
def finished (stop : UInt32) (source : Contract) : Ledger :=
  i.collection.notify.foldl (repoint i.origin.address (i.destination stop).info)
    ((i.opened stop).put { source with mode := .migratedOut })

end Import

/-- The end of an import goes through exactly if the old collection is there. -/
theorem finishImport_eq_ok {l l' : Ledger} {destination : Contract} {old : String}
    {notify : List String} : l.finishImport destination old notify = .ok l' ↔
      ∃ source, (l.put { destination with mode := .running }).contract? old = some source ∧
        notify.foldl (repoint old destination.info)
          ((l.put { destination with mode := .running }).put
            { source with mode := .migratedOut }) = l' := by
  unfold finishImport
  simp only [bind_eq_ok, contract_eq_ok, pure_eq_ok]

/-- With the contracts at hand, an import only depends on whether it comes to the end. -/
theorem Import.importTokens_eq {l : Ledger} {sender address : String} (i : Import l sender address)
    (pages : Option UInt32) (pageSize : UInt32) :
    l.importTokens sender address pages pageSize =
      if i.stop pages pageSize = i.total then do
        let l ← l.finishImport (i.destination (i.stop pages pageSize)) i.origin.address
          i.collection.notify
        return (i.outcome (i.stop pages pageSize), l)
      else return (i.outcome (i.stop pages pageSize), l.put (i.destination (i.stop pages pageSize))) := by
  have hc : l.contract address = .ok i.contract := contract_eq_ok.2 i.found
  have hs : i.contract.collection = .ok i.collection :=
    Contract.collection_eq_ok.2 i.isCollection
  have ho : l.contract i.origin.address = .ok i.source := contract_eq_ok.2 i.sourceFound
  have ht : i.source.collection = .ok i.sourceCollection :=
    Contract.collection_eq_ok.2 i.sourceIsCollection
  unfold importTokens
  simp only [hc, hs, i.importing, i.comesFrom, ho, ht, i.isAdmin, bind, Except.bind, ne_eq,
    not_true, if_false]
  rfl

/-- An import goes through exactly for a collection that imports. Before the end it fills the
collection, and at the end it also hands over to it. -/
theorem importTokens_eq_ok {l l' : Ledger} {sender address : String} {pages : Option UInt32}
    {pageSize : UInt32} {o : Outcome} : l.importTokens sender address pages pageSize = .ok (o, l') ↔
      ∃ i : Import l sender address, i.outcome (i.stop pages pageSize) = o ∧
        ((i.stop pages pageSize ≠ i.total ∧ l.put (i.destination (i.stop pages pageSize)) = l') ∨
          (i.stop pages pageSize = i.total ∧ ∃ source,
            (i.opened (i.stop pages pageSize)).contract? i.origin.address = some source ∧
              i.finished (i.stop pages pageSize) source = l')) := by
  have key : ∀ i : Import l sender address,
      l.importTokens sender address pages pageSize = .ok (o, l') ↔
        i.outcome (i.stop pages pageSize) = o ∧
        ((i.stop pages pageSize ≠ i.total ∧ l.put (i.destination (i.stop pages pageSize)) = l') ∨
          (i.stop pages pageSize = i.total ∧ ∃ source,
            (i.opened (i.stop pages pageSize)).contract? i.origin.address = some source ∧
              i.finished (i.stop pages pageSize) source = l')) := by
    intro i
    rw [i.importTokens_eq]
    by_cases hstop : i.stop pages pageSize = i.total
    · simp only [if_pos hstop, bind_eq_ok, pure_eq_ok, finishImport_eq_ok, Prod.mk.injEq]
      constructor
      · rintro ⟨_, hl, ho, rfl⟩
        exact ⟨ho, Or.inr ⟨hstop, hl⟩⟩
      · rintro ⟨ho, ⟨h, -⟩ | ⟨-, hl⟩⟩
        · exact absurd hstop h
        · exact ⟨l', hl, ho, rfl⟩
    · simp [hstop, pure_eq_ok]
  constructor
  · intro h
    have h' := h
    unfold importTokens at h'
    simp only [bind_eq_ok, refuse_if_eq_ok, contract_eq_ok, Contract.collection_eq_ok, ne_eq,
      not_not] at h'
    obtain ⟨c, hc, s, hs, hm, h'⟩ := h'
    cases ho : c.migratedFrom with
    | none => simp [ho, throw_eq_ok] at h'
    | some origin =>
      simp only [ho, refuse_if_eq_ok, bind_eq_ok, contract_eq_ok, Contract.collection_eq_ok,
        not_not] at h'
      obtain ⟨ha, source, hsource, t, ht, -⟩ := h'
      let i : Import l sender address := ⟨c, s, origin, source, t, hc, hs, hm, ho, ha, hsource, ht⟩
      exact ⟨i, (key i).1 h⟩
  · rintro ⟨i, h⟩
    exact (key i).2 h

/-! ## Moves -/

/-- A contract that was left for another one. -/
def leaving (c : Contract) (mode : Mode) (successor : ContractInfo) : Contract :=
  { c with mode, migratedTo := some successor }

/-- The contract that a site makes. -/
def Site.info (site : Site) : ContractInfo :=
  ⟨site.address, site.codeHash⟩

/-- A running dealer whose admin wants it moved, and its collection. -/
structure DealerMove (rules : ChainRules) (l : Ledger) (m : MigrateFrom) where
  source : Contract
  dealer : Dealer
  child : Contract
  collection : Collection
  found : l.contract? m.address = some source
  isDealer : source.model = .dealer dealer
  running : source.mode = .running
  permitted : rules.permitCreator m.adminPermit m.address = .ok dealer.admin
  childFound : l.contract? dealer.child.address = some child
  isCollection : child.model = .collection collection

namespace DealerMove

variable {rules : ChainRules} {l : Ledger} {m : MigrateFrom} (d : DealerMove rules l m)

/-- The collection with the new dealer in the places of the old one. -/
def handedOver (site : Site) : Collection :=
  { d.collection with
    minters := d.collection.minters.map (swapped d.source.address site.address)
    notify := d.collection.notify.map (swapped d.source.address site.address) }

/-- The new dealer. -/
def successor (site : Site) : Contract :=
  .start site.address site.codeHash .running (some d.source.info) (.dealer d.dealer)

/-- The ledger after the move. -/
def after (site : Site) : Ledger :=
  ((l.put (d.child.withCollection (d.handedOver site))).put
    (leaving d.source .migratedOut site.info)).put (d.successor site)

/-- The old dealer is still there once its collection knows the new one. -/
theorem contract?_put_child (s : Collection) :
    (l.put (d.child.withCollection s)).contract? m.address = some d.source := by
  have hne : m.address ≠ d.child.address := by
    intro h
    have ha := address_of_contract? d.childFound
    have hs : some d.source = some d.child := by rw [← d.found, h, ha, d.childFound]
    have hm := d.isDealer
    rw [Option.some.inj hs, d.isCollection] at hm
    cases hm
  rw [contract?_put, Function.update_of_ne (by exact hne), d.found]

end DealerMove

/-- A dealer moves exactly if it runs and its admin signed for it. -/
theorem migrateDealer_eq_ok {rules : ChainRules} {l l' : Ledger} {site : Site} {m : MigrateFrom} :
    migrateDealer rules l site m = .ok l' ↔ ∃ d : DealerMove rules l m, d.after site = l' := by
  unfold migrateDealer
  simp only [bind_eq_ok, contract_eq_ok, Contract.dealer_eq_ok, Contract.collection_eq_ok,
    Contract.ensureRunning_eq_ok, ChainRules.checkAdminPermit_eq_ok, pure_eq_ok]
  constructor
  · rintro ⟨c, hc, d, hd, -, hr, -, hp, k, hk, s, hs, c', hc', h⟩
    let move : DealerMove rules l m := ⟨c, d, k, s, hc, hd, hr, hp, hk, hs⟩
    obtain rfl : c = c' := Option.some.inj ((move.contract?_put_child _).symm.trans hc')
    exact ⟨move, h⟩
  · rintro ⟨move, h⟩
    exact ⟨move.source, move.found, move.dealer, move.isDealer, (), move.running, (),
      move.permitted, move.child, move.childFound, move.collection, move.isCollection, move.source,
      move.contract?_put_child _, h⟩

/-- A running collection that never moved and whose admin wants it moved. -/
structure CollectionMove (rules : ChainRules) (l : Ledger) (m : MigrateFrom) where
  source : Contract
  collection : Collection
  found : l.contract? m.address = some source
  isCollection : source.model = .collection collection
  notMoved : source.migratedTo = none
  running : source.mode = .running
  permitted : rules.permitCreator m.adminPermit m.address = .ok collection.admin

namespace CollectionMove

variable {rules : ChainRules} {l : Ledger} {m : MigrateFrom} (d : CollectionMove rules l m)

/-- The new collection, before it imports any token. -/
def successor (site : Site) : Contract :=
  .start site.address site.codeHash .migrateDataIn (some d.source.info)
    (.collection (.fresh d.collection.name d.collection.symbol d.collection.admin site.sender
      d.collection.minters d.collection.notify))

/-- The ledger after the start of the move. -/
def after (site : Site) : Ledger :=
  (l.put (leaving d.source .migrateOutStarted site.info)).put (d.successor site)

end CollectionMove

/-- A collection starts to move exactly if it runs, never moved, and its admin signed for it. -/
theorem migrateCollection_eq_ok {rules : ChainRules} {l l' : Ledger} {site : Site}
    {m : MigrateFrom} : migrateCollection rules l site m = .ok l' ↔
      ∃ d : CollectionMove rules l m, d.after site = l' := by
  unfold migrateCollection
  simp only [bind_eq_ok, refuse_if_eq_ok, contract_eq_ok, Contract.collection_eq_ok,
    Contract.ensureRunning_eq_ok, ChainRules.checkAdminPermit_eq_ok, pure_eq_ok,
    Option.not_isSome_iff_eq_none]
  constructor
  · rintro ⟨c, hc, s, hs, hn, -, hr, -, hp, h⟩
    exact ⟨⟨c, s, hc, hs, hn, hr, hp⟩, h⟩
  · rintro ⟨⟨c, s, hc, hs, hn, hr, hp⟩, h⟩
    exact ⟨c, hc, s, hs, hn, (), hr, (), hp, h⟩

/-! ## New contracts -/

/-- The dealer and its collection that are made from scratch. -/
def afterNewDealer (l : Ledger) (site : Site) (codeHash : String) (init : DealerInit) : Ledger :=
  let admin := init.admin.getD site.sender
  (l.afterAddress.put (.start l.nextAddress codeHash .running none
    (.collection (.fresh "PurchasableSnip721" "PUR721" admin site.address
      [site.address] [site.address])))).put
    (.start site.address site.codeHash .running none
      (.dealer ⟨admin, init.prices, init.publicMetadata, init.privateMetadata,
        ⟨l.nextAddress, codeHash⟩⟩))

/-- A dealer is made exactly if the code for its collection is that of a collection. -/
theorem newDealer_eq_ok {l l' : Ledger} {site : Site} {init : DealerInit} {child : String} :
    l.newDealer site init = .ok (l', child) ↔
      l.code? init.childCodeId = some ⟨init.childCodeHash, .migratable⟩ ∧
        l.nextAddress = child ∧ l.afterNewDealer site init.childCodeHash init = l' := by
  unfold newDealer
  simp only [bind_eq_ok, refuse_if_eq_ok, code_eq_ok, pure_eq_ok, Prod.mk.injEq, not_or, ne_eq,
    not_not]
  constructor
  · rintro ⟨⟨hash, kind⟩, hc, ⟨hk, hh⟩, hl, hchild⟩
    simp only at hk hh
    subst hk hh
    exact ⟨hc, hchild, hl⟩
  · rintro ⟨hc, hchild, hl⟩
    exact ⟨_, hc, ⟨rfl, rfl⟩, hl, hchild⟩

/-- Where the next contract is made. -/
def nextSite (l : Ledger) (sender codeHash : String) : Site :=
  ⟨sender, l.nextAddress, codeHash⟩

end Ledger

end Handover
