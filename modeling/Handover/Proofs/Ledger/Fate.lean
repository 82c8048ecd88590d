import Handover.Proofs.Ledger.Stock

/-!
# The fate of a contract

A message acts on one contract or on a few that belong together, and every other contract stays
as it is. `Fate` lists everything that a message can do to one contract, with what it found, and
a step decides the fate of every contract that is there (`exists_fate`). So what a message may do
to a contract, and for whom, is read off these cases : only a migration gives a successor
(`Fate.migratedTo_eq_or`), and only an import of its admin touches the tokens of a collection
that imports (`Fate.importing`).
-/

namespace Handover

namespace Ledger

/-- What a message does to the contract `c` at `a` when it goes through. -/
inductive Fate (rules : ChainRules) (l : Ledger) (a : String) (c : Contract) : Msg → Contract → Prop
  | kept {m : Msg} : Fate rules l a c m c
  | sold {buyer address codeHash : String} {msg : Json} {funds : List Coin}
      (sale : Sale l address funds) (isChild : sale.child = c)
      (childAt : sale.dealer.child.address = a)
      (read : ofObject? msg = some DealerMsg.purchaseMint) :
      Fate rules l a c (.execute buyer address codeHash msg funds)
        (c.withCollection (sale.sold buyer))
  | given {sender codeHash recipient tokenId : String} {msg : Json} {funds : List Coin}
      {memo : Option String} (t : Transfer l sender a tokenId) (isThis : t.contract = c)
      (read : ofObject? msg = some (CollectionMsg.transferNft recipient tokenId memo)) :
      Fate rules l a c (.execute sender a codeHash msg funds) (c.withCollection (t.given recipient))
  | handedOver {sender codeHash label : String} {codeId : UInt64} {initMsg : Json}
      {admin : Option String} {funds : List Coin} {m : Migration}
      (msg : ofJson? initMsg = some (InstantiateMsg.migrate (α := Json) m))
      (d : DealerMove rules l.afterAddress m.source) (isChild : d.child = c)
      (childAt : d.dealer.child.address = a) :
      Fate rules l a c (.instantiate sender codeId codeHash initMsg label admin funds)
        (c.withCollection (d.handedOver (l.nextSite sender codeHash)))
  | dealerLeft {sender codeHash label : String} {codeId : UInt64} {initMsg : Json}
      {admin : Option String} {funds : List Coin} {m : Migration}
      (msg : ofJson? initMsg = some (InstantiateMsg.migrate (α := Json) m))
      (d : DealerMove rules l.afterAddress m.source) (isSource : d.source = c)
      (sourceAt : m.source.address = a) :
      Fate rules l a c (.instantiate sender codeId codeHash initMsg label admin funds)
        (leaving c .migratedOut (l.nextSite sender codeHash).info)
  | collectionLeft {sender codeHash label : String} {codeId : UInt64} {initMsg : Json}
      {admin : Option String} {funds : List Coin} {m : Migration}
      (msg : ofJson? initMsg = some (InstantiateMsg.migrate (α := Json) m))
      (d : CollectionMove rules l.afterAddress m.source) (isSource : d.source = c)
      (sourceAt : m.source.address = a) :
      Fate rules l a c (.instantiate sender codeId codeHash initMsg label admin funds)
        (leaving c .migrateOutStarted (l.nextSite sender codeHash).info)
  | filled {sender codeHash : String} {msg : Json} {funds : List Coin}
      {pages pageSize : Option UInt32} (i : Import l sender a) (isThis : i.contract = c)
      (read : ofObject? msg = some (CollectionMsg.migrateTokensIn pages pageSize))
      (more : i.stop pages (pageSize.getD rules.pageSize) ≠ i.total) :
      Fate rules l a c (.execute sender a codeHash msg funds)
        (i.destination (i.stop pages (pageSize.getD rules.pageSize)))
  | opened {sender codeHash : String} {msg : Json} {funds : List Coin}
      {pages pageSize : Option UInt32} (i : Import l sender a) (isThis : i.contract = c)
      (read : ofObject? msg = some (CollectionMsg.migrateTokensIn pages pageSize))
      (last : i.stop pages (pageSize.getD rules.pageSize) = i.total) :
      Fate rules l a c (.execute sender a codeHash msg funds)
        { i.destination i.total with mode := .running }
  | retired {sender address codeHash : String} {msg : Json} {funds : List Coin}
      {pages pageSize : Option UInt32} (i : Import l sender address) (isSource : i.source = c)
      (sourceAt : i.origin.address = a)
      (read : ofObject? msg = some (CollectionMsg.migrateTokensIn pages pageSize))
      (last : i.stop pages (pageSize.getD rules.pageSize) = i.total) :
      Fate rules l a c (.execute sender address codeHash msg funds)
        { c with mode := .migratedOut }
  | followed {sender address codeHash : String} {msg : Json} {funds : List Coin}
      {pages pageSize : Option UInt32} (i : Import l sender address) {d : Dealer}
      (isDealer : c.model = .dealer d) (told : a ∈ i.collection.notify)
      (read : ofObject? msg = some (CollectionMsg.migrateTokensIn pages pageSize))
      (last : i.stop pages (pageSize.getD rules.pageSize) = i.total) :
      Fate rules l a c (.execute sender address codeHash msg funds)
        (follow i.origin.address (i.destination i.total).info c)

/-! ## Every contract has one -/

/-- A new dealer and its collection leave the other contracts. -/
theorem contract?_afterNewDealer {l : Ledger} {site : Site} {codeHash : String}
    {init : DealerInit} {a : String} (hchild : a ≠ l.nextAddress) (hsite : a ≠ site.address) :
    (l.afterNewDealer site codeHash init).contract? a = l.contract? a := by
  rw [afterNewDealer, contract?_put_of_ne (by exact hsite), contract?_put_of_ne (by exact hchild),
    contract?_afterAddress]

section Steps

variable {rules : ChainRules} {l l' : Ledger} {a : String} {c : Contract}

/-- What is put where no contract was leaves the others. -/
theorem contract?_put_of_new {d : Contract} (new : l.contract? d.address = none)
    (hc : l.contract? a = some c) : (l.put d).contract? a = some c := by
  rw [contract?_put_of_ne, hc]
  rintro rfl
  simp [new] at hc

/-- The fate of a contract when a dealer moves. -/
theorem DealerMove.exists_fate {m : Migration} (d : DealerMove rules l.afterAddress m.source)
    {sender codeHash label : String} {codeId : UInt64} {initMsg : Json} {admin : Option String}
    {funds : List Coin} (msg : ofJson? initMsg = some (InstantiateMsg.migrate (α := Json) m))
    (new : l.contract? l.nextAddress = none) (hc : l.contract? a = some c) :
    ∃ c', (d.after (l.nextSite sender codeHash)).contract? a = some c' ∧
      Fate rules l a c (.instantiate sender codeId codeHash initMsg label admin funds) c' := by
  have hne : a ≠ l.nextAddress := by
    rintro rfl
    simp [new] at hc
  have hs : d.source.address = m.source.address := address_of_contract? d.found
  have hk : d.child.address = d.dealer.child.address := address_of_contract? d.childFound
  have hnew : (d.after (l.nextSite sender codeHash)).contract? a =
      ((l.afterAddress.put (d.child.withCollection (d.handedOver (l.nextSite sender codeHash)))).put
        (leaving d.source .migratedOut (l.nextSite sender codeHash).info)).contract? a :=
    contract?_put_of_ne hne
  rw [hnew]
  by_cases has : a = m.source.address
  · have hsource : d.source = c := Option.some.inj (d.found.symm.trans (has ▸ hc))
    exact ⟨_, contract?_put_self (hs.trans has.symm), hsource ▸ .dealerLeft msg d rfl has.symm⟩
  · rw [contract?_put_of_ne (by exact fun h => has (h.trans hs))]
    by_cases hak : a = d.dealer.child.address
    · have hchild : d.child = c := Option.some.inj (d.childFound.symm.trans (hak ▸ hc))
      exact ⟨_, contract?_put_self (hk.trans hak.symm), hchild ▸ .handedOver msg d rfl hak.symm⟩
    · rw [contract?_put_of_ne (by exact fun h => hak (h.trans hk))]
      exact ⟨c, hc, .kept⟩

/-- The fate of a contract when a collection starts to move. -/
theorem CollectionMove.exists_fate {m : Migration}
    (d : CollectionMove rules l.afterAddress m.source) {sender codeHash label : String}
    {codeId : UInt64} {initMsg : Json} {admin : Option String} {funds : List Coin}
    (msg : ofJson? initMsg = some (InstantiateMsg.migrate (α := Json) m))
    (new : l.contract? l.nextAddress = none) (hc : l.contract? a = some c) :
    ∃ c', (d.after (l.nextSite sender codeHash)).contract? a = some c' ∧
      Fate rules l a c (.instantiate sender codeId codeHash initMsg label admin funds) c' := by
  have hne : a ≠ l.nextAddress := by
    rintro rfl
    simp [new] at hc
  have hs : d.source.address = m.source.address := address_of_contract? d.found
  have hnew : (d.after (l.nextSite sender codeHash)).contract? a = (l.afterAddress.put
      (leaving d.source .migrateOutStarted (l.nextSite sender codeHash).info)).contract? a :=
    contract?_put_of_ne hne
  rw [hnew]
  by_cases has : a = m.source.address
  · have hsource : d.source = c := Option.some.inj (d.found.symm.trans (has ▸ hc))
    exact ⟨_, contract?_put_self (hs.trans has.symm),
      hsource ▸ .collectionLeft msg d rfl has.symm⟩
  · rw [contract?_put_of_ne (by exact fun h => has (h.trans hs))]
    exact ⟨c, hc, .kept⟩

/-- Who is imported from is on its way out. -/
theorem Import.mode_source {sender address : String} (i : Import l sender address)
    (h : l.registry.WellLinked) : i.source.mode = .migrateOutStarted := by
  obtain ⟨_, o, e, _, -, ho, he, -, hout, -⟩ := exists_source_of_importing h i.found i.importing
  obtain rfl := Option.some.inj (i.comesFrom.symm.trans ho)
  obtain rfl := Option.some.inj (i.sourceFound.symm.trans he)
  exact hout

/-- The last page of an import opens the new collection, retires the old one and is told to the
subscribed dealers. -/
theorem Import.exists_fate {sender address codeHash : String} {msg : Json} {funds : List Coin}
    {pages pageSize : Option UInt32} (i : Import l sender address) (h : l.registry.WellLinked)
    (read : ofObject? msg = some (CollectionMsg.migrateTokensIn pages pageSize))
    (last : i.stop pages (pageSize.getD rules.pageSize) = i.total) {source : Contract}
    (hs : (i.opened i.total).contract? i.origin.address = some source)
    (hc : l.contract? a = some c) :
    ∃ c', (i.finished i.total source).contract? a = some c' ∧
      Fate rules l a c (.execute sender address codeHash msg funds) c' := by
  obtain ⟨rfl, hne⟩ := i.source_of_opened h hs
  have hsa : i.source.address = i.origin.address := address_of_contract? i.sourceFound
  rw [finished]
  by_cases hao : a = i.origin.address
  · obtain rfl : i.source = c := Option.some.inj (i.sourceFound.symm.trans (hao ▸ hc))
    have hput : ((i.opened i.total).put { i.source with mode := .migratedOut }).contract? a =
        some { i.source with mode := .migratedOut } := contract?_put_self (hsa.trans hao.symm)
    have hm : ({ i.source with mode := .migratedOut } : Contract).model =
        .collection i.sourceCollection := i.sourceIsCollection
    exact ⟨_, contract?_foldl_repoint_of_collection hput hm _, .retired i rfl hao.symm read last⟩
  have hput : ((i.opened i.total).put { i.source with mode := .migratedOut }).contract? a =
      (i.opened i.total).contract? a :=
    contract?_put_of_ne (by exact fun ha => hao (ha.trans hsa))
  by_cases haa : a = address
  · subst haa
    obtain rfl : i.contract = c := Option.some.inj (i.found.symm.trans hc)
    have hopen : (i.opened i.total).contract? a =
        some { i.destination i.total with mode := .running } := by
      rw [i.contract?_opened, Function.update_self]
    exact ⟨_, contract?_foldl_repoint_of_collection (s := i.filled i.total) (hput.trans hopen) rfl _,
      .opened i rfl read last⟩
  · have hopen : (i.opened i.total).contract? a = some c := by
      rw [i.contract?_opened, Function.update_of_ne haa, hc]
    rw [contract?_foldl_repoint, hput, hopen]
    by_cases told : a ∈ i.collection.notify
    · rw [if_pos told, Option.map_some]
      cases hm : c.model with
      | collection s => exact ⟨c, by rw [follow_of_collection hm], .kept⟩
      | dealer d => exact ⟨_, rfl, .followed i hm told read last⟩
    · exact ⟨c, if_neg told, .kept⟩

/-- A step decides the fate of every contract. -/
theorem exists_fate {m : Msg} (h : l.registry.WellLinked) (hs : Step rules l m l')
    (hc : l.contract? a = some c) : ∃ c', l'.contract? a = some c' ∧ Fate rules l a c m c' := by
  have hnext : l.contract? l.nextAddress = none :=
    contract?_addressOf_eq_none h (Nat.lt_succ_self _)
  have hafter : l.afterAddress.contract? a = some c := hc
  cases hs with
  | storeCode code _ _ _ => exact ⟨c, hc, .kept⟩
  | send _ => exact ⟨c, hc, .kept⟩
  | newCollection init _ _ _ => exact ⟨c, contract?_put_of_new hnext hafter, .kept⟩
  | newDealer init _ _ _ _ =>
    have hchild : l.contract? l.afterAddress.nextAddress = none :=
      contract?_addressOf_eq_none h (Nat.lt_add_of_pos_right Nat.two_pos)
    have hne : a ≠ l.nextAddress ∧ a ≠ l.afterAddress.nextAddress := by
      constructor <;> rintro rfl
      · simp [hnext] at hc
      · simp [hchild] at hc
    exact ⟨c, (contract?_afterNewDealer hne.2 hne.1).trans hc, .kept⟩
  | moveDealer _ msg d => exact d.exists_fate msg hnext hc
  | moveCollection _ msg d => exact d.exists_fate msg hnext hc
  | sell sale _ read =>
    have ha := address_of_contract? sale.childFound
    by_cases hac : a = sale.dealer.child.address
    · have hchild : sale.child = c := Option.some.inj (sale.childFound.symm.trans (hac ▸ hc))
      exact ⟨_, contract?_put_self (ha.trans hac.symm), hchild ▸ .sold sale rfl hac.symm read⟩
    · exact ⟨c, (contract?_put_of_ne (by exact fun h => hac (h.trans ha))).trans hc, .kept⟩
  | @transfer _ b _ _ _ _ _ _ t _ read =>
    have ha := address_of_contract? t.found
    by_cases hab : a = b
    · subst hab
      have hthis : t.contract = c := Option.some.inj (t.found.symm.trans hc)
      exact ⟨_, contract?_put_self ha, hthis ▸ .given t rfl read⟩
    · exact ⟨c, (contract?_put_of_ne (by exact fun h => hab (h.trans ha))).trans hc, .kept⟩
  | @importPage _ b _ _ _ _ _ i _ read more =>
    have ha := i.address_destination
    by_cases hab : a = b
    · subst hab
      have hthis : i.contract = c := Option.some.inj (i.found.symm.trans hc)
      exact ⟨_, contract?_put_self (ha _), .filled i hthis read more⟩
    · exact ⟨c, (contract?_put_of_ne (by exact fun h => hab (h.trans (ha _)))).trans hc, .kept⟩
  | finishImport i _ read last source hs => exact i.exists_fate h read last hs hc

end Steps

end Ledger

/-! ## Who decides it -/

namespace Msg

/-- The migration that a message asks for. -/
def migration? : Msg → Option Migration
  | instantiate _ _ _ initMsg _ _ _ =>
    match (Wire.ofJson? initMsg : Option (InstantiateMsg Json)) with
    | some (.migrate m) => some m
    | _ => none
  | _ => none

/-- The message is a call of an account to import tokens into the contract at an address. -/
def ImportsAt (m : Msg) (account address : String) : Prop :=
  ∃ codeHash msg funds pages pageSize, m = .execute account address codeHash msg funds ∧
    ofObject? msg = some (CollectionMsg.migrateTokensIn pages pageSize)

theorem migration?_of_migrate {sender codeHash label : String} {codeId : UInt64} {initMsg : Json}
    {admin : Option String} {funds : List Coin} {m : Migration}
    (h : Wire.ofJson? initMsg = some (InstantiateMsg.migrate (α := Json) m)) :
    (instantiate sender codeId codeHash initMsg label admin funds).migration? = some m := by
  simp [migration?, h]

end Msg

namespace Ledger

/-- The message asks for a migration of the contract at `a`, with an owner permit of the admin. -/
def MovesFor (rules : ChainRules) (m : Msg) (a admin : String) : Prop :=
  ∃ f, m.migration? = some f ∧ f.source.address = a ∧
    rules.OwnerPermit f.source.adminPermit a admin

namespace Fate

variable {rules : ChainRules} {l : Ledger} {a : String} {c c' : Contract} {m : Msg}

/-- A contract gets a successor by a migration for its admin only. -/
theorem migratedTo_eq_or (hf : Fate rules l a c m c') :
    c'.migratedTo = c.migratedTo ∨ MovesFor rules m a c'.admin := by
  cases hf with
  | kept => exact Or.inl rfl
  | sold _ _ _ _ => exact Or.inl rfl
  | given _ _ _ => exact Or.inl rfl
  | handedOver _ _ _ _ => exact Or.inl rfl
  | @dealerLeft _ _ _ _ _ _ _ f msg d isSource sourceAt =>
    obtain rfl := isSource
    obtain rfl := sourceAt
    have hadmin : d.source.admin = d.dealer.admin := by simp [Contract.admin, d.isDealer]
    refine Or.inr ⟨f, Msg.migration?_of_migrate msg, rfl, ?_⟩
    exact hadmin ▸ ChainRules.permitCreator_eq_ok.1 d.permitted
  | @collectionLeft _ _ _ _ _ _ _ f msg d isSource sourceAt =>
    obtain rfl := isSource
    obtain rfl := sourceAt
    have hadmin : d.source.admin = d.collection.admin := by simp [Contract.admin, d.isCollection]
    refine Or.inr ⟨f, Msg.migration?_of_migrate msg, rfl, ?_⟩
    exact hadmin ▸ ChainRules.permitCreator_eq_ok.1 d.permitted
  | filled _ isThis _ _ => exact Or.inl (isThis ▸ rfl)
  | opened _ isThis _ _ => exact Or.inl (isThis ▸ rfl)
  | retired _ _ _ _ _ => exact Or.inl rfl
  | followed _ isDealer _ _ _ => exact Or.inl (Alike.follow _ _ c).migratedTo

/-- A collection that imports keeps mode, cursor and tokens unless its admin calls to import. Such
a call leaves it importing, or it comes to the end. -/
theorem importing (hf : Fate rules l a c m c') (h : l.registry.WellLinked)
    (hm : c.mode = .migrateDataIn) {s : Collection} (hs : c.model = .collection s) :
    (c'.mode = c.mode ∧ ∃ t, c'.model = .collection t ∧
      t.importCursor = s.importCursor ∧ t.tokens = s.tokens) ∨
    (m.ImportsAt s.admin a ∧ ∃ sender, ∃ i : Import l sender a,
      c'.mode = c.mode ∨ c' = { i.destination i.total with mode := .running }) := by
  have hcall : ∀ {sender codeHash : String} {msg : Json} {funds : List Coin}
      {pages pageSize : Option UInt32} (i : Import l sender a), i.contract = c →
      ofObject? msg = some (CollectionMsg.migrateTokensIn pages pageSize) →
      (c'.mode = c.mode ∨ c' = { i.destination i.total with mode := .running }) →
      (Msg.execute sender a codeHash msg funds).ImportsAt s.admin a ∧ ∃ sender,
        ∃ i : Import l sender a,
          c'.mode = c.mode ∨ c' = { i.destination i.total with mode := .running } := by
    rintro sender codeHash msg funds pages pageSize i rfl read hend
    obtain rfl := Model.collection.inj (hs.symm.trans i.isCollection)
    exact ⟨⟨codeHash, msg, funds, pages, pageSize,
      congrArg (Msg.execute · a codeHash msg funds) i.isAdmin, read⟩, sender, i, hend⟩
  cases hf with
  | kept => exact Or.inl ⟨rfl, s, hs, rfl, rfl⟩
  | sold sale isChild _ _ => simp [← isChild, sale.childRunning] at hm
  | given t isThis _ => simp [← isThis, t.running] at hm
  | handedOver _ d isChild _ =>
    obtain rfl := isChild
    obtain rfl := Model.collection.inj (hs.symm.trans d.isCollection)
    exact Or.inl ⟨rfl, _, rfl, rfl, rfl⟩
  | dealerLeft _ d isSource _ => simp [← isSource, d.running] at hm
  | collectionLeft _ d isSource _ => simp [← isSource, d.running] at hm
  | filled i isThis read _ => exact Or.inr (hcall i isThis read (Or.inl (isThis ▸ rfl)))
  | opened i isThis read _ => exact Or.inr (hcall i isThis read (Or.inr rfl))
  | retired i isSource _ _ _ => simp [← isSource, i.mode_source h] at hm
  | followed _ isDealer _ _ _ => simp [hs] at isDealer

end Fate

end Ledger

end Handover
