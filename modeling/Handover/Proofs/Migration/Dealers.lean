import Handover.Proofs.Ledger.Births
import Handover.Proofs.Migration.Lockdown

/-!
# A dealer that moved

What a buyer can tell of a dealer is what it answers, which purchases it accepts, and which tokens
it mints. All of this depends on the state of the dealer and on mode and tokens of its collection
(`Shop`), and not on where the dealer stands (`Shop.sellsAs`). A dealer that moves leaves just
that as it was (`DealerMove.shop_after`). So the new dealer sells as the old one did, also after many moves,
and the old one sells nothing any more (`Chain.Reachable.moved_dealer_sells_as_before`).
-/

namespace Handover

open Relation Ledger

/-! ## What a dealer answers -/

/-- What a dealer answers to a question. -/
def Dealer.reply (d : Dealer) : DealerQuery → Json
  | .prices => toJson (PricesAnswer.mk d.prices)
  | .child => toJson (ChildAnswer.mk d.child)

namespace Ledger

/-- A running dealer answers from its state. -/
theorem query_dealer (rules : ChainRules) {l : Ledger} {a hash : String} {k : Contract}
    {d : Dealer} (found : l.contract? a = some k) (running : k.mode = .running)
    (isDealer : k.model = .dealer d) (sameCode : hash = "" ∨ hash = k.codeHash) {q : DealerQuery}
    {v : Json} (read : ofObject? v = some q) : l.query rules a hash v = .ok (d.reply q) := by
  have hk : l.contract a = .ok k := contract_eq_ok.2 found
  have hhash : ¬(hash ≠ "" ∧ k.codeHash ≠ hash) := by
    rintro ⟨hne, hcode⟩
    exact sameCode.elim hne fun h => hcode h.symm
  have hrun : k.ensureRunning = .ok () := Contract.ensureRunning_eq_ok.2 running
  have hread : parseMessage (α := DealerQuery) ofObject? "QueryMsg" v = .ok q := parseMessage_eq_ok.2 read
  simp only [query, hk, bind, Except.bind, if_neg hhash, migrationQuery_eq_none_of_dealer read,
    isDealer, queryDealer, hread, hrun]
  cases q <;> rfl

/-! ## Shops -/

/-- At an address there is a running dealer with this state, and its collection is in this mode
and has this stock. -/
structure Shop (l : Ledger) (i : ContractInfo) (d : Dealer) (mode : Mode) (S : Stock) : Prop where
  dealer : ∃ k, l.contract? i.address = some k ∧ k.info = i ∧ k.mode = .running ∧
    k.model = .dealer d
  child : ∃ e, l.contract? d.child.address = some e ∧ e.mode = mode ∧ e.stock? = some S

/-- A running dealer has a shop. -/
theorem Reached.exists_shop {l : Ledger} (h : l.Reached) {a : String} {k : Contract} {d : Dealer}
    (found : l.contract? a = some k) (running : k.mode = .running)
    (isDealer : k.model = .dealer d) : ∃ mode S, l.Shop k.info d mode S := by
  obtain ⟨e, s, he, -, hs, -⟩ := exists_child h.wellStaffed found running isDealer
  have hk : l.contract? k.info.address = some k := by
    rw [show k.info.address = a from address_of_contract? found, found]
  exact ⟨e.mode, s.stock, ⟨k, hk, rfl, running, isDealer⟩, e, he, rfl,
    Contract.stock?_of_collection hs⟩

end Ledger

/-! ## What a buyer sees of it -/

namespace Ledger.Shop

variable {c c' : Chain} {i : ContractInfo} {d : Dealer} {mode : Mode} {S : Stock}

/-- A shop accepts a purchase exactly if that pays the price, the collection runs, and there is
enough gas. -/
theorem exists_broadcast_iff (shop : c.ledger.Shop i d mode S) (h : c.Reachable) {msg : Json}
    (read : ofObject? msg = some DealerMsg.purchaseMint) (buyer : String) (funds : List Coin)
    (options : TxOptions) :
    (∃ r c', c.broadcast [.execute buyer i.address i.codeHash msg funds] options = (.ok r, c')) ↔
      PaysPrice d.prices funds ∧ mode = .running ∧
        2 * Ledger.executeGas ≤ options.gasLimit.toNat := by
  obtain ⟨k, hk, rfl, running, isDealer⟩ := shop.dealer
  obtain ⟨e, he, rfl, -⟩ := shop.child
  obtain ⟨e', s, he', -, hs, isMinter, -⟩ := exists_child h.reached.wellStaffed hk running isDealer
  obtain rfl := Option.some.inj (he.symm.trans he')
  have hk' : c.ledger.nextBlock.contract? k.info.address = some k := hk
  have he' : c.ledger.nextBlock.contract? d.child.address = some e := he
  rw [Chain.exists_broadcast_singleton]
  exact exists_purchase_iff hk' running isDealer he' hs isMinter read

/-- What the next buyer gets. -/
def token (d : Dealer) (S : Stock) (buyer : String) : Entry :=
  ⟨toString S.entries.length, buyer, d.publicMetadata, d.privateMetadata⟩

/-- An accepted purchase adds a token to the stock, and changes no other one. -/
theorem stock?_of_broadcast (shop : c.ledger.Shop i d mode S) {msg : Json}
    (read : ofObject? msg = some DealerMsg.purchaseMint) {buyer : String} {funds : List Coin}
    {options : TxOptions} {r : TxResponse}
    (hb : c.broadcast [.execute buyer i.address i.codeHash msg funds] options = (.ok r, c')) :
    c'.ledger.stock? = Function.update c.ledger.stock? d.child.address
      (some ⟨S.entries ++ [token d S buyer], S.cursor⟩) := by
  obtain ⟨k, hk, rfl, running, isDealer⟩ := shop.dealer
  obtain ⟨e, he, -, hS⟩ := shop.child
  obtain ⟨o, happly⟩ := Chain.exists_apply_of_broadcast hb
  have hk' : c.ledger.nextBlock.contract? k.info.address = some k := hk
  rw [show k.info.codeHash = k.codeHash from rfl, apply_purchase_eq funds hk' isDealer read] at happly
  obtain ⟨sale, -, hafter⟩ := purchaseMint_eq_ok.1 happly
  have hc : k = sale.contract := Option.some.inj (hk'.symm.trans sale.found)
  have hmodel : k.model = .dealer sale.dealer := (congrArg Contract.model hc).trans sale.isDealer
  obtain rfl : d = sale.dealer := Model.dealer.inj (isDealer.symm.trans hmodel)
  obtain rfl : e = sale.child := Option.some.inj (he.symm.trans sale.childFound)
  obtain rfl := Option.some.inj (hS.symm.trans (Contract.stock?_of_collection sale.isCollection))
  have ha := address_of_contract? sale.childFound
  rw [← hafter, Sale.after, stock?_put_at (c := sale.child.withCollection _) ha,
    Contract.stock?_withCollection, sale.stock_sold, sale.entry_token]
  rfl

end Ledger.Shop

/-- To a buyer the dealer `j` of the one chain is as the dealer `i` of the other : it answers the
same, accepts the same purchases, and mints the same tokens in the same collection. -/
structure Chain.SellsAs (c : Chain) (i : ContractInfo) (c' : Chain) (j : ContractInfo) : Prop where
  answers : ∀ (q : DealerQuery) v hash hash', ofObject? v = some q →
    (hash = "" ∨ hash = i.codeHash) → (hash' = "" ∨ hash' = j.codeHash) →
      ∃ answer, c.ledger.query c.rules i.address hash v = .ok answer ∧
        c'.ledger.query c'.rules j.address hash' v = .ok answer
  accepts : ∀ buyer msg funds options, ofObject? msg = some DealerMsg.purchaseMint →
    ((∃ r d, c'.broadcast [.execute buyer j.address j.codeHash msg funds] options = (.ok r, d)) ↔
      ∃ r d, c.broadcast [.execute buyer i.address i.codeHash msg funds] options = (.ok r, d))
  mints : ∀ buyer msg funds options r d r' d', ofObject? msg = some DealerMsg.purchaseMint →
    c.broadcast [.execute buyer i.address i.codeHash msg funds] options = (.ok r, d) →
    c'.broadcast [.execute buyer j.address j.codeHash msg funds] options = (.ok r', d') →
      ∃ (child : ContractInfo) (S : Stock) (t : Entry),
        c.ledger.query c.rules i.address "" (toJson DealerQuery.child) =
          .ok (toJson (ChildAnswer.mk child)) ∧
        c.ledger.stock? child.address = some S ∧ c'.ledger.stock? child.address = some S ∧
        t.id = toString S.entries.length ∧ t.owner = buyer ∧
        d.ledger.stock? = Function.update c.ledger.stock? child.address
          (some ⟨S.entries ++ [t], S.cursor⟩) ∧
        d'.ledger.stock? = Function.update c'.ledger.stock? child.address
          (some ⟨S.entries ++ [t], S.cursor⟩)

namespace Ledger.Shop

variable {c c' : Chain} {i j : ContractInfo} {d : Dealer} {mode : Mode} {S : Stock}

/-- A shop holds the stock of its collection. -/
theorem stock?_child {l : Ledger} (shop : l.Shop i d mode S) : l.stock? d.child.address = some S := by
  obtain ⟨e, he, -, hS⟩ := shop.child
  rw [stock?, he, Option.bind_some, hS]

/-- A shop answers what its dealer does. -/
theorem query_eq {l : Ledger} (shop : l.Shop i d mode S) (rules : ChainRules) {hash : String}
    (sameCode : hash = "" ∨ hash = i.codeHash) {q : DealerQuery} {v : Json}
    (read : ofObject? v = some q) : l.query rules i.address hash v = .ok (d.reply q) := by
  obtain ⟨k, hk, rfl, running, isDealer⟩ := shop.dealer
  exact query_dealer rules hk running isDealer sameCode read

/-- Shops with the same dealer and the same collection are the same to a buyer. -/
theorem sellsAs (shop : c.ledger.Shop i d mode S) (shop' : c'.ledger.Shop j d mode S)
    (h : c.Reachable) (h' : c'.Reachable) : c.SellsAs i c' j where
  answers q v hash hash' read sameCode sameCode' :=
    ⟨d.reply q, shop.query_eq _ sameCode read, shop'.query_eq _ sameCode' read⟩
  accepts buyer msg funds options read := by
    rw [shop.exists_broadcast_iff h read, shop'.exists_broadcast_iff h' read]
  mints buyer msg funds options r e r' e' read hb hb' :=
    ⟨d.child, S, token d S buyer, shop.query_eq _ (Or.inl rfl) (q := .child) rfl, shop.stock?_child,
      shop'.stock?_child, rfl, rfl, shop.stock?_of_broadcast read hb,
      shop'.stock?_of_broadcast read hb'⟩

end Ledger.Shop

/-! ## Moves -/

namespace Ledger.DealerMove

variable {rules : ChainRules} {l : Ledger} {m : MigrateFrom} (d : DealerMove rules l m)
  {site : Site} (new : l.contract? site.address = none)

include new

/-- The old dealer is retired, and names the new one. -/
theorem contract?_after_source : (d.after site).contract? d.source.address =
    some (leaving d.source .migratedOut site.info) := by
  have hsource : d.source.address ≠ site.address := by
    intro he
    rw [← he, address_of_contract? d.found, d.found] at new
    cases new
  rw [after, contract?_put_of_ne hsource]
  exact contract?_put_self rfl

/-- The collection knows the new dealer in the places of the old one. -/
theorem contract?_after_child : (d.after site).contract? d.dealer.child.address =
    some (d.child.withCollection (d.handedOver site)) := by
  have hchild : d.dealer.child.address ≠ site.address := by
    intro he
    rw [← he, d.childFound] at new
    cases new
  have hne : d.dealer.child.address ≠ d.source.address := by
    intro he
    have hsource := d.found
    rw [← address_of_contract? d.found, ← he, d.childFound] at hsource
    have hm := d.isCollection
    rw [Option.some.inj hsource, d.isDealer] at hm
    cases hm
  have ha := address_of_contract? d.childFound
  rw [after, contract?_put_of_ne hchild, contract?_put_of_ne (by exact hne)]
  exact contract?_put_self ha

end Ledger.DealerMove

namespace Ledger

/-- The message of a dealer's move goes through. -/
theorem DealerMove.instantiate_eq {rules : ChainRules} {l : Ledger} {m : Migration}
    (d : DealerMove rules l.afterAddress m.source) {codeId : UInt64} {codeHash : String}
    {initMsg : Json} (sender : String) (code : l.code? codeId = some ⟨codeHash, .dealer⟩)
    (msg : ofJson? initMsg = some (InstantiateMsg.migrate (α := Json) m)) :
    instantiate rules l sender codeId codeHash initMsg =
      .ok (⟨[Outcome.contractEvent l.nextAddress []], [], instantiateGas⟩,
        d.after (l.nextSite sender codeHash)) := by
  have hcode : l.code codeId = .ok ⟨codeHash, .dealer⟩ := code_eq_ok.2 code
  have hmsg : parseMessage (α := InstantiateMsg Json) Wire.ofJson? "InstantiateMsg" initMsg = .ok (.migrate m) :=
    parseMessage_eq_ok.2 msg
  have hmove : migrateDealer rules l.afterAddress (l.nextSite sender codeHash) m.source =
      .ok (d.after (l.nextSite sender codeHash)) := migrateDealer_eq_ok.2 ⟨d, rfl⟩
  unfold nextSite at hmove ⊢
  simp [instantiate, hcode, hmsg, hmove, bind, Except.bind, pure, Except.pure]


/-- A dealer that is retired. -/
def RetiredDealer (l : Ledger) (i : ContractInfo) : Prop :=
  ∃ k, l.contract? i.address = some k ∧ k.info = i ∧ k.kind = .dealer ∧ k.mode = .migratedOut

/-- It stays retired. -/
theorem RetiredDealer.later {l l' : Ledger} {i : ContractInfo} (h : l.RetiredDealer i)
    (hl : l.Reached) (hlead : l.LeadsTo l') : l'.RetiredDealer i := by
  obtain ⟨k, hk, rfl, hkind, hm⟩ := h
  obtain ⟨k', hk', hadvances⟩ := hlead.advances hl hk
  obtain ⟨k'', hk'', hstays⟩ := hlead.stays hl hk (Or.inr hm)
  obtain rfl := Option.some.inj (hk'.symm.trans hk'')
  exact ⟨k', hk', hadvances.info, hadvances.kind.trans hkind, (hstays.of_retired hm).1⟩

/-- It refuses every purchase. -/
theorem RetiredDealer.refusedIn {c : Chain} {i : ContractInfo} (h : c.ledger.RetiredDealer i)
    {msg : Json} (read : ofObject? msg = some DealerMsg.purchaseMint) (buyer : String)
    (funds : List Coin) :
    c.RefusedIn (.execute buyer i.address i.codeHash msg funds) .migratedOut := by
  obtain ⟨k, hk, rfl, hkind, hm⟩ := h
  obtain ⟨d, hd⟩ : ∃ d, k.model = .dealer d := by
    cases hmodel : k.model with
    | dealer d => exact ⟨d, rfl⟩
    | collection s => simp [Contract.kind, hmodel] at hkind
  have hk' : c.ledger.nextBlock.contract? k.info.address = some k := hk
  have hcontract : c.ledger.nextBlock.contract k.info.address = .ok k := contract_eq_ok.2 hk'
  have hmode : k.ensureRunning = .error (.unavailable .migratedOut) := by
    rw [Contract.ensureRunning, hm]
    rfl
  refine Chain.refusedIn_of_apply ?_
  rw [show k.info.codeHash = k.codeHash from rfl, apply_purchase_eq funds hk' hd read]
  simp [purchaseMint, hcontract, hmode, bind, Except.bind]

/-- A migration of a dealer that makes a contract is a dealer's move there. -/
theorem exists_dealerMove {rules : ChainRules} {l l' : Ledger} {m : Msg} {f : Migration}
    {b : String} {k e : Contract} {d : Dealer} (hs : Step rules l m l')
    (asks : m.migration? = some f) (found : l.contract? f.source.address = some k)
    (isDealer : k.model = .dealer d) (new : l.contract? b = none) (made : l'.contract? b = some e) :
    ∃ sender codeHash, ∃ D : DealerMove rules l.afterAddress f.source, b = l.nextAddress ∧
      l' = D.after (l.nextSite sender codeHash) := by
  have hbirth := exists_birth hs new made
  cases hs with
  | newCollection _ _ msg _ => simp [Msg.migration?, msg] at asks
  | newDealer _ _ msg _ _ => simp [Msg.migration?, msg] at asks
  | @moveDealer sender codeHash _ _ _ _ _ _ code msg D =>
    obtain rfl := Option.some.inj ((Msg.migration?_of_migrate msg).symm.trans asks)
    refine ⟨sender, codeHash, D, ?_, rfl⟩
    cases hbirth with
    | child _ _ msg' _ => simp [msg] at msg'
    | _ => rfl
  | moveCollection _ msg D =>
    obtain rfl := Option.some.inj ((Msg.migration?_of_migrate msg).symm.trans asks)
    obtain rfl : D.source = k := Option.some.inj (D.found.symm.trans found)
    simp [D.isCollection] at isDealer
  | _ => cases asks

end Ledger

/-- A dealer's move leaves its shop as it was, at the new address, and retires the old dealer. -/
theorem Ledger.DealerMove.shop_after {rules : ChainRules} {l : Ledger} {m : MigrateFrom}
    {i : ContractInfo} {d : Dealer} {mode : Mode} {S : Stock} (D : DealerMove rules l m)
    {site : Site} (new : l.contract? site.address = none) (shop : l.Shop i d mode S)
    (isSource : m.address = i.address) :
    (D.after site).Shop site.info d mode S ∧ (D.after site).RetiredDealer i := by
  obtain ⟨k, hk, rfl, -, isDealer⟩ := shop.dealer
  obtain ⟨e, he, rfl, hS⟩ := shop.child
  obtain rfl : D.source = k := Option.some.inj (D.found.symm.trans (isSource ▸ hk))
  obtain rfl : D.dealer = d := Model.dealer.inj (D.isDealer.symm.trans isDealer)
  obtain rfl : D.child = e := Option.some.inj (D.childFound.symm.trans he)
  have hstock : D.collection.stock = S :=
    Option.some.inj ((Contract.stock?_of_collection D.isCollection).symm.trans hS)
  refine ⟨⟨⟨D.successor site, contract?_put_self rfl, rfl, rfl, rfl⟩, ?_⟩, ?_⟩
  · exact ⟨_, D.contract?_after_child new, rfl, hstock ▸ rfl⟩
  · exact ⟨_, D.contract?_after_source new, rfl, by simp [leaving, Contract.kind, isDealer], rfl⟩

namespace Chain

/-- An accepted transaction of one message, which asks to migrate the contract at the first address,
makes the contract at the second. -/
inductive MovesBy : Chain × String → Chain × String → Prop
  | sent {c c' : Chain} {m : Msg} {f : Migration} {b : String} {k : Contract} {options : TxOptions}
      {r : TxResponse} (accepted : c.broadcast [m] options = (.ok r, c'))
      (asks : m.migration? = some f) (new : c.ledger.contract? b = none)
      (made : c'.ledger.contract? b = some k) : MovesBy (c, f.source.address) (c', b)

/-- A move of a dealer is a run. -/
theorem MovesBy.leadsTo {p q : Chain × String} (h : MovesBy p q) : p.1.ledger.LeadsTo q.1.ledger := by
  cases h with
  | sent accepted _ _ _ => exact Ledger.LeadsTo.refl.block.run (ran_of_broadcast accepted)

/-- A move carries the shop along, and retires the old dealer. -/
theorem MovesBy.shop {p q : Chain × String} (h : MovesBy p q) (hp : p.1.Reachable)
    {hash : String} {d : Dealer} {mode : Mode} {S : Stock}
    (shop : p.1.ledger.Shop ⟨p.2, hash⟩ d mode S) :
    q.1.Reachable ∧ (∃ hash', q.1.ledger.Shop ⟨q.2, hash'⟩ d mode S) ∧
      q.1.ledger.RetiredDealer ⟨p.2, hash⟩ := by
  obtain @⟨c, c', m, f, b, e, options, r, accepted, asks, new, made⟩ := h
  obtain ⟨o, happly⟩ := exists_apply_of_broadcast accepted
  obtain ⟨k, hk, -, -, isDealer⟩ := shop.dealer
  have hfound : c.ledger.nextBlock.contract? f.source.address = some k := hk
  obtain ⟨sender, codeHash, D, rfl, hafter⟩ :=
    Ledger.exists_dealerMove (Ledger.step_of_apply happly) asks hfound isDealer new made
  have hshop : c.ledger.nextBlock.afterAddress.Shop ⟨f.source.address, hash⟩ d mode S :=
    ⟨shop.dealer, shop.child⟩
  let site := c.ledger.nextBlock.nextSite sender codeHash
  have hnew : c.ledger.nextBlock.contract? site.address = none := new
  obtain ⟨hshop', hretired⟩ := D.shop_after hnew hshop rfl
  rw [← hafter] at hshop' hretired
  exact ⟨hp.of_broadcast accepted, ⟨codeHash, hshop'⟩, hretired⟩

/-- So do many moves, one after the other. -/
theorem shop_of_transGen {p q : Chain × String} (h : TransGen MovesBy p q) (hp : p.1.Reachable)
    {hash : String} {d : Dealer} {mode : Mode} {S : Stock}
    (shop : p.1.ledger.Shop ⟨p.2, hash⟩ d mode S) :
    q.1.Reachable ∧ (∃ hash', q.1.ledger.Shop ⟨q.2, hash'⟩ d mode S) ∧
      q.1.ledger.RetiredDealer ⟨p.2, hash⟩ := by
  induction h with
  | single h => exact h.shop hp shop
  | tail _ h ih =>
    obtain ⟨hq, ⟨hash₁, hshop⟩, hretired⟩ := ih
    obtain ⟨hr, hshop', -⟩ := h.shop hq hshop
    exact ⟨hr, hshop', hretired.later hq.reached h.leadsTo⟩

/-- On a reachable chain a dealer that moves, once or many times by accepted transactions, sells
in the end as it did at the start, with the same answers. The dealer of the start refuses every
purchase from then on, whatever comes later. -/
theorem Reachable.moved_dealer_sells_as_before {c c' : Chain} (h : c.Reachable) {a b : String}
    {k : Contract} {d : Dealer} (found : c.ledger.contract? a = some k)
    (running : k.mode = .running) (isDealer : k.model = .dealer d)
    (moved : TransGen MovesBy (c, a) (c', b)) :
    ∃ k', c'.ledger.contract? b = some k' ∧ c.SellsAs k.info c' k'.info ∧
      ∀ (moves : List ChainMove) buyer msg funds, ofObject? msg = some DealerMsg.purchaseMint →
        (moves.foldl after c').RefusedIn (.execute buyer a k.codeHash msg funds) .migratedOut := by
  obtain ⟨mode, S, hshop⟩ := h.reached.exists_shop found running isDealer
  have hinfo : k.info = ⟨a, k.codeHash⟩ := by rw [← address_of_contract? found]; rfl
  obtain ⟨h', ⟨hash', hshop'⟩, hretired⟩ := shop_of_transGen moved h (hinfo ▸ hshop)
  obtain ⟨k', hk', hi', -⟩ := hshop'.dealer
  refine ⟨k', hk', hi' ▸ hshop.sellsAs hshop' h h', fun moves buyer msg funds read => ?_⟩
  have hlead := leadsTo_foldl_after moves (.refl (l := c'.ledger))
  exact (hretired.later h'.reached hlead).refusedIn read buyer funds

/-! ## A dealer that moves while it sells -/

theorem verify_dealerPermit : dealerPermit.verify = .ok () := by
  decide +kernel

/-- The dealer on the chain with the sales. -/
def saleDealer : Dealer :=
  ⟨"secret1admin", [price], none, none, saleContract.info⟩

/-- It can move. -/
def saleDealerMove : DealerMove withSales.rules saleLedger.nextBlock.afterAddress
    dealerMigration.source where
  source := .start "secret1contract0001" dealerHash .running none (.dealer saleDealer)
  dealer := saleDealer
  child := saleContract
  collection := saleCollection
  found := rfl
  isDealer := rfl
  running := rfl
  permitted := by
    rw [rules_withSales]
    exact ChainRules.permitCreator_eq_ok.2
      ⟨verify_dealerPermit, rfl, List.mem_cons_self, List.mem_cons_self, List.lookup_cons_self⟩
  childFound := rfl
  isCollection := saleMove.isCollection

/-- The chain after the move. -/
def relocated : Chain :=
  withSales.sent (saleDealerMove.after (saleLedger.nextBlock.nextSite "secret1admin" dealerHash))
    200000

/-- The first of the dealers moved. -/
theorem movesBy_relocated :
    MovesBy (withSales, "secret1contract0001") (relocated, "secret1contract0003") := by
  have hcode : saleLedger.nextBlock.code? 1 = some ⟨dealerHash, .dealer⟩ := rfl
  have hran := saleDealerMove.instantiate_eq "secret1admin" hcode
    (ofJson?_toJson_migrate dealerMigration)
  let m := migrationMsg 1 dealerHash dealerMigration
  have happly : ∀ l, l = saleLedger → Ledger.apply withSales.rules l.nextBlock m =
      .ok (⟨[Outcome.contractEvent saleLedger.nextBlock.nextAddress []], [], instantiateGas⟩,
        saleDealerMove.after (saleLedger.nextBlock.nextSite "secret1admin" dealerHash)) := by
    rintro _ rfl
    exact hran
  have hsent : withSales.broadcast [m] (.ofGasLimit 200000) = (.ok _, relocated) :=
    broadcast_of_apply (c := withSales) (happly _ ledger_withSales) rfl (Nat.le_refl _)
  have hnone : ∀ l, l = saleLedger → l.contract? "secret1contract0003" = none := by
    rintro _ rfl
    rfl
  exact .sent (f := dealerMigration) hsent
    (Msg.migration?_of_migrate (ofJson?_toJson_migrate dealerMigration))
    (hnone _ ledger_withSales) rfl

/-- The new dealer sells a fourth token, and the old one refuses to. -/
theorem withSales_dealer_sells_as_before :
    ∃ k', relocated.ledger.contract? "secret1contract0003" = some k' ∧
      withSales.SellsAs ⟨"secret1contract0001", dealerHash⟩ relocated k'.info ∧
      (∃ r c', relocated.broadcast [.execute "secret1buyer" k'.address k'.codeHash
        (toJson DealerMsg.purchaseMint) [price]] (.ofGasLimit 600000) = (.ok r, c')) ∧
      relocated.RefusedIn purchase .migratedOut := by
  have hfound : withSales.ledger.contract? "secret1contract0001" =
      some (.start "secret1contract0001" dealerHash .running none (.dealer saleDealer)) := by
    rw [ledger_withSales]
    rfl
  obtain ⟨k', hk', hsells, hrefused⟩ := reachable_withSales.moved_dealer_sells_as_before hfound rfl
    rfl (.single movesBy_relocated)
  have hread : ofObject? (toJson DealerMsg.purchaseMint) = some DealerMsg.purchaseMint := rfl
  have hshop : withSales.ledger.Shop ⟨"secret1contract0001", dealerHash⟩ saleDealer .running
      saleCollection.stock := by
    rw [ledger_withSales]
    exact ⟨⟨_, rfl, rfl, rfl, rfl⟩, saleContract, rfl, rfl, rfl⟩
  refine ⟨k', hk', hsells, (hsells.accepts _ _ _ _ hread).2 ?_, hrefused [] _ _ _ hread⟩
  exact (hshop.exists_broadcast_iff reachable_withSales hread _ _ _).2
    ⟨⟨price, price, rfl, by decide, rfl⟩, rfl, by decide⟩

end Chain

end Handover
