import Handover.Proofs.Ledger.Succession

/-!
# Stocks of tokens

What a collection holds is a list of entries, one for each token : who owns it and what its
metadata is. The stock of a collection is this list with the cursor of its import. A message
changes at most one stock, as `StockStep` lists (`stockStep_of_step`).
-/

namespace Handover

/-! ## Entries -/

/-- What belongs to a token whatever collection holds it. -/
structure Entry where
  id : String
  owner : String
  publicMetadata : Option Metadata
  privateMetadata : Option Metadata
  deriving DecidableEq, Repr

/-- The entry of a token. -/
def Token.entry (t : Token) : Entry :=
  ⟨t.id, t.owner, t.publicMetadata, t.privateMetadata⟩

/-- The entries of a collection, and how far its import is. -/
structure Stock where
  entries : List Entry
  cursor : UInt32

namespace Collection

/-- The entries of a collection. -/
def entries (s : Collection) : List Entry :=
  s.tokens.map Token.entry

/-- The stock of a collection. -/
def stock (s : Collection) : Stock :=
  ⟨s.entries, s.importCursor⟩

theorem length_entries (s : Collection) : s.entries.length = s.tokens.length := by
  simp [entries]

/-- Imports mint tokens again with the same entries. -/
theorem entries_foldl_importToken (height time : Nat) (address : String) :
    ∀ (ts : List Token) (s : Collection),
      (ts.foldl (Ledger.importToken height time address) s).entries =
        s.entries ++ ts.map Token.entry
  | [], s => by simp
  | t :: ts, s => by
    rw [List.foldl_cons, entries_foldl_importToken height time address ts]
    simp [entries, Ledger.importToken, recordEntry, Token.entry]

end Collection

namespace Contract

/-- The stock of a contract, if it is a collection. -/
def stock? (c : Contract) : Option Stock :=
  match c.model with
  | .dealer _ => none
  | .collection s => some s.stock

theorem stock?_of_collection {c : Contract} {s : Collection} (h : c.model = .collection s) :
    c.stock? = some s.stock := by
  simp [stock?, h]

theorem stock?_of_dealer {c : Contract} {d : Dealer} (h : c.model = .dealer d) :
    c.stock? = none := by
  simp [stock?, h]

@[simp] theorem stock?_withCollection (c : Contract) (s : Collection) :
    (c.withCollection s).stock? = some s.stock := rfl

@[simp] theorem stock?_mode (c : Contract) (mode : Mode) :
    ({ c with mode } : Contract).stock? = c.stock? := rfl

@[simp] theorem stock?_leaving (c : Contract) (mode : Mode) (successor : ContractInfo) :
    (Ledger.leaving c mode successor).stock? = c.stock? := rfl

@[simp] theorem stock?_follow (old : String) (new : ContractInfo) (c : Contract) :
    (Ledger.follow old new c).stock? = c.stock? := by
  cases hm : c.model with
  | collection s => simp [Ledger.follow, hm]
  | dealer d => by_cases hd : d.child.address = old <;> simp [Ledger.follow, stock?, hm, hd]

/-- What has a stock is a collection. -/
theorem exists_collection {c : Contract} {S : Stock} (h : c.stock? = some S) :
    ∃ s, c.model = .collection s ∧ s.stock = S := by
  cases hm : c.model with
  | dealer d => simp [stock?, hm] at h
  | collection s => exact ⟨s, rfl, by simpa [stock?, hm] using h⟩

end Contract

namespace Ledger

/-- The first token with an id is the one that is given away. -/
theorem exists_set_of_giveToken (recipient : String) {id : String} {t : Token} :
    ∀ {ts : List Token}, (ts.find? fun t => t.id == id) = some t →
      ∃ i, ts[i]? = some t ∧ t.id = id ∧
        giveToken id recipient ts = ts.set i { t with owner := recipient }
  | [], h => by simp at h
  | u :: us, h => by
    by_cases hu : u.id = id
    · obtain rfl : u = t := by simpa [hu] using h
      exact ⟨0, rfl, hu, by simp [giveToken, hu]⟩
    · obtain ⟨i, hi, ht, hg⟩ := exists_set_of_giveToken recipient
        (show (us.find? fun t => t.id == id) = some t by simpa [hu] using h)
      exact ⟨i + 1, by simpa using hi, ht, by simp [giveToken, hu, hg]⟩

/-! ## Stocks on the ledger -/

/-- The stock of the collection at an address. -/
def stock? (l : Ledger) (a : String) : Option Stock :=
  (l.contract? a).bind Contract.stock?

theorem stock?_of_collection {l : Ledger} {a : String} {c : Contract} {s : Collection}
    (hc : l.contract? a = some c) (hs : c.model = .collection s) : l.stock? a = some s.stock := by
  simp [stock?, hc, Contract.stock?_of_collection hs]

/-- A stock is that of the collection at the address. -/
theorem exists_of_stock? {l : Ledger} {a : String} {S : Stock} (h : l.stock? a = some S) :
    ∃ c s, l.contract? a = some c ∧ c.model = .collection s ∧ s.stock = S := by
  obtain ⟨c, hc, hS⟩ := Option.bind_eq_some_iff.1 h
  obtain ⟨s, hs, rfl⟩ := Contract.exists_collection hS
  exact ⟨c, s, hc, hs, rfl⟩

/-- To put a contract is to put its stock. -/
theorem stock?_put (l : Ledger) (c : Contract) :
    (l.put c).stock? = Function.update l.stock? c.address c.stock? := by
  funext a
  unfold stock?
  rw [contract?_put]
  by_cases ha : a = c.address <;> simp [ha]

theorem stock?_put_at {l : Ledger} {c : Contract} {a : String} (h : c.address = a) :
    (l.put c).stock? = Function.update l.stock? a c.stock? := by
  rw [stock?_put, h]

/-- Putting a contract with the same stock changes no stock. -/
theorem stock?_put_of_eq {l : Ledger} {c : Contract} (h : c.stock? = l.stock? c.address) :
    (l.put c).stock? = l.stock? := by
  rw [stock?_put, Function.update_eq_self_iff, h]

theorem stock?_afterAddress (l : Ledger) : l.afterAddress.stock? = l.stock? := rfl

/-- Telling subscribers changes no stock. -/
theorem stock?_foldl_repoint (old : String) (new : ContractInfo) (notify : List String)
    (l : Ledger) : (notify.foldl (repoint old new) l).stock? = l.stock? := by
  funext a
  unfold stock?
  rw [contract?_foldl_repoint]
  split
  · cases l.contract? a <;> simp
  · rfl

/-- A live collection stands at the address. -/
def LiveAt (l : Ledger) (a : String) : Prop :=
  ∃ c s, l.contract? a = some c ∧ c.model = .collection s ∧ c.Live

/-- What is put in the place of a live collection has to be one for it to stay live. -/
theorem LiveAt.put {l : Ledger} {a : String} {c : Contract} (h : l.LiveAt a)
    (hc : a = c.address → c.Live ∧ ∃ s, c.model = .collection s) : (l.put c).LiveAt a := by
  obtain ⟨d, s, hd, hs, hl⟩ := h
  by_cases ha : a = c.address
  · obtain ⟨hcl, t, ht⟩ := hc ha
    exact ⟨c, t, by rw [contract?_put, ha, Function.update_self], ht, hcl⟩
  · exact ⟨d, s, by rw [contract?_put, Function.update_of_ne ha, hd], hs, hl⟩

/-- Telling subscribers leaves collections live. -/
theorem LiveAt.foldl_repoint {l : Ledger} {a : String} (h : l.LiveAt a) (old : String)
    (new : ContractInfo) (notify : List String) : (notify.foldl (repoint old new) l).LiveAt a := by
  obtain ⟨d, s, hd, hs, hl⟩ := h
  exact ⟨d, s, contract?_foldl_repoint_of_collection hd hs notify, hs, hl⟩

theorem LiveAt.ne {l : Ledger} {a b : String} (h : l.LiveAt a) (hb : l.contract? b = none) :
    a ≠ b := by
  rintro rfl
  obtain ⟨c, s, hc, -, -⟩ := h
  simp [hb] at hc

/-! ## Steps -/

/-- What a message does to the stocks and to the live collections. -/
inductive StockStep (l : Ledger) : Msg → Ledger → Prop
  | same {m : Msg} {l' : Ledger} (stock : l'.stock? = l.stock?)
      (live : ∀ a, l.LiveAt a → l'.LiveAt a) : StockStep l m l'
  | added {m : Msg} {l' : Ledger} (a : String) (new : l.contract? a = none)
      (stock : l'.stock? = Function.update l.stock? a (some ⟨[], 0⟩))
      (live : ∀ a, l.LiveAt a → l'.LiveAt a) : StockStep l m l'
  | sold {buyer address codeHash : String} {msg : Json} {funds : List Coin} {l' : Ledger}
      (sale : Sale l address funds) (read : ofObject? msg = some DealerMsg.purchaseMint)
      (stock : l'.stock? = Function.update l.stock? sale.dealer.child.address
        (some ⟨sale.collection.entries ++ [(sale.token buyer).entry],
          sale.collection.importCursor⟩))
      (live : ∀ a, l.LiveAt a → l'.LiveAt a) :
      StockStep l (.execute buyer address codeHash msg funds) l'
  | given {sender address codeHash recipient tokenId : String} {msg : Json} {funds : List Coin}
      {memo : Option String} {l' : Ledger} (t : Transfer l sender address tokenId)
      (read : ofObject? msg = some (CollectionMsg.transferNft recipient tokenId memo)) (i : Nat)
      (found : t.collection.entries[i]? = some t.token.entry) (id : t.token.id = tokenId)
      (stock : l'.stock? = Function.update l.stock? address
        (some ⟨t.collection.entries.set i { t.token.entry with owner := recipient },
          t.collection.importCursor⟩))
      (live : ∀ a, l.LiveAt a → l'.LiveAt a) :
      StockStep l (.execute sender address codeHash msg funds) l'
  | imported {sender address codeHash : String} {msg : Json} {funds : List Coin}
      {pages pageSize : Option UInt32} {size : UInt32} {l' : Ledger} (i : Import l sender address)
      (read : ofObject? msg = some (CollectionMsg.migrateTokensIn pages pageSize))
      (stock : l'.stock? = Function.update l.stock? address
        (some ⟨i.collection.entries ++ (i.slice (i.stop pages size)).map Token.entry,
          i.stop pages size⟩))
      (live : ∀ a, l.LiveAt a → l'.LiveAt a ∨
        (a = i.origin.address ∧ i.stop pages size = i.total ∧ l'.LiveAt address)) :
      StockStep l (.execute sender address codeHash msg funds) l'

theorem stock?_of_dealer {l : Ledger} {a : String} {c : Contract} {d : Dealer}
    (hc : l.contract? a = some c) (hd : c.model = .dealer d) : l.stock? a = none := by
  simp [stock?, hc, Contract.stock?_of_dealer hd]

theorem stock?_of_none {l : Ledger} {a : String} (h : l.contract? a = none) :
    l.stock? a = none := by
  simp [stock?, h]

/-- A sale adds the entry of its token. -/
theorem Sale.stock_sold {l : Ledger} {address : String} {funds : List Coin}
    (sale : Sale l address funds) (buyer : String) : (sale.sold buyer).stock =
      ⟨sale.collection.entries ++ [(sale.token buyer).entry], sale.collection.importCursor⟩ := by
  simp [Collection.stock, Sale.sold, Collection.recordEntry, Collection.entries]

/-- An import adds the entries of its slice, and moves the cursor to its end. -/
theorem Import.stock_filled {l : Ledger} {sender address : String} (i : Import l sender address)
    (stop : UInt32) : (i.filled stop).stock =
      ⟨i.collection.entries ++ (i.slice stop).map Token.entry, stop⟩ := by
  have he := Collection.entries_foldl_importToken l.height l.blockTime i.contract.address
    (i.slice stop) i.collection
  exact congrArg (fun E => Stock.mk E stop) he

theorem Import.entries_filled {l : Ledger} {sender address : String} (i : Import l sender address)
    (stop : UInt32) :
    (i.filled stop).entries = i.collection.entries ++ (i.slice stop).map Token.entry :=
  congrArg Stock.entries (i.stock_filled stop)

/-- Nothing stands at an address that is not given out yet. -/
theorem contract?_addressOf_eq_none {l : Ledger} (h : l.registry.WellLinked) {n : Nat}
    (hn : l.instantiated < n) : l.contract? (addressOf n) = none := by
  simpa [registry] using h.shell?_eq_none hn

/-- A collection that is put where none was has no tokens yet. -/
theorem stockStep_add {l : Ledger} {m : Msg} {c : Contract} {s : Collection}
    (new : l.contract? c.address = none) (hs : c.model = .collection s)
    (empty : s.stock = ⟨[], 0⟩) : StockStep l m (l.afterAddress.put c) := by
  have hlive : ∀ a, l.LiveAt a → (l.afterAddress.put c).LiveAt a := fun a ha =>
    LiveAt.put (l := l.afterAddress) ha fun hac => absurd hac (ha.ne new)
  refine .added c.address new ?_ hlive
  rw [stock?_put, Contract.stock?_of_collection hs, empty, stock?_afterAddress]

/-- A new dealer brings an empty stock. -/
theorem stockStep_newDealer {l : Ledger} {m : Msg} {site : Site} {codeHash : String}
    {init : DealerInit} (new : l.contract? site.address = none)
    (childNew : l.contract? l.afterAddress.nextAddress = none)
    (hne : site.address ≠ l.afterAddress.nextAddress) :
    StockStep l m (l.afterAddress.afterNewDealer site codeHash init) := by
  refine .added l.afterAddress.nextAddress childNew ?_ fun a ha => ?_
  · rw [afterNewDealer, stock?_put_of_eq]
    · rw [stock?_put]
      rfl
    · rw [stock?_put, Function.update_of_ne (by exact hne)]
      exact (stock?_of_none new).symm
  · have ha' : l.afterAddress.afterAddress.LiveAt a := ha
    exact (ha'.put fun hac => absurd hac (ha.ne childNew)).put fun hac => absurd hac (ha.ne new)

/-- A move of a dealer changes no stock. -/
theorem DealerMove.stockStep {rules : ChainRules} {l : Ledger} {m : Msg} {f : MigrateFrom}
    (d : DealerMove rules l.afterAddress f) {site : Site} (new : l.contract? site.address = none) :
    StockStep l m (d.after site) := by
  have hsource : l.stock? d.source.address = none := by
    rw [address_of_contract? d.found]
    exact stock?_of_dealer d.found d.isDealer
  have hchild : l.stock? d.child.address = some d.collection.stock := by
    rw [address_of_contract? d.childFound]
    exact stock?_of_collection d.childFound d.isCollection
  have h₁ : (l.afterAddress.put (d.child.withCollection (d.handedOver site))).stock? = l.stock? :=
    stock?_put_of_eq hchild.symm
  have h₂ : ((l.afterAddress.put (d.child.withCollection (d.handedOver site))).put
      (leaving d.source .migratedOut site.info)).stock? = l.stock? := by
    rw [stock?_put_of_eq, h₁]
    rw [h₁, Contract.stock?_leaving, Contract.stock?_of_dealer d.isDealer]
    exact hsource.symm
  refine .same ?_ fun a ha => ?_
  · rw [after, stock?_put_of_eq, h₂]
    rw [h₂]
    exact (stock?_of_none new).symm
  · have ha' : l.afterAddress.LiveAt a := ha
    refine ((ha'.put fun hac => ?_).put fun hac => ?_).put fun hac => absurd hac (ha.ne new)
    · obtain ⟨c, s, hc, -, hl⟩ := ha
      have hk : l.contract? d.child.address = some d.child := by
        rw [address_of_contract? d.childFound]
        exact d.childFound
      obtain rfl := Option.some.inj (hc.symm.trans (hac ▸ hk))
      exact ⟨hl, _, rfl⟩
    · obtain ⟨c, s, hc, hs, -⟩ := ha
      have hsc := stock?_of_collection hc hs
      rw [hac] at hsc
      exact absurd (hsc.symm.trans hsource) (by simp)

/-- A collection that starts to move leaves its stock, and the new one starts empty. -/
theorem CollectionMove.stockStep {rules : ChainRules} {l : Ledger} {m : Msg} {f : MigrateFrom}
    (d : CollectionMove rules l.afterAddress f) {site : Site}
    (new : l.contract? site.address = none) : StockStep l m (d.after site) := by
  have hsource : l.stock? d.source.address = some d.collection.stock := by
    rw [address_of_contract? d.found]
    exact stock?_of_collection d.found d.isCollection
  have h₁ : (l.afterAddress.put (leaving d.source .migrateOutStarted site.info)).stock? =
      l.stock? := by
    rw [stock?_put_of_eq, stock?_afterAddress]
    rw [Contract.stock?_leaving, Contract.stock?_of_collection d.isCollection]
    exact hsource.symm
  refine .added site.address new ?_ fun a ha => ?_
  · rw [after, stock?_put, h₁]
    rfl
  · have ha' : l.afterAddress.LiveAt a := ha
    have hne : a ≠ (d.successor site).address := ha.ne new
    have hleft : (leaving d.source .migrateOutStarted site.info).Live := Or.inr rfl
    exact (ha'.put fun _ => ⟨hleft, _, d.isCollection⟩).put fun hac => absurd hac hne

/-- A transfer changes the owner in one entry. -/
theorem Transfer.stock_given {l : Ledger} {sender address tokenId : String}
    (t : Transfer l sender address tokenId) (recipient : String) :
    ∃ i, t.collection.entries[i]? = some t.token.entry ∧ t.token.id = tokenId ∧
      (t.given recipient).stock =
        ⟨t.collection.entries.set i { t.token.entry with owner := recipient },
          t.collection.importCursor⟩ := by
  obtain ⟨i, hi, hid, hgive⟩ := exists_set_of_giveToken recipient t.tokenFound
  refine ⟨i, by simp [Collection.entries, hi], hid, ?_⟩
  simp [Collection.stock, given, Collection.recordEntry, Collection.entries, hgive, List.map_set,
    Token.entry]

namespace Import

variable {l : Ledger} {sender address : String} (i : Import l sender address)

/-- A collection that imports is not live. -/
theorem ne_of_liveAt {a : String} (h : l.LiveAt a) : a ≠ i.contract.address := by
  rintro rfl
  obtain ⟨c, s, hc, -, hl⟩ := h
  rw [address_of_contract? i.found, i.found] at hc
  obtain rfl := Option.some.inj hc
  rcases hl with hm | hm <;> simp [i.importing] at hm

theorem address_destination (stop : UInt32) : (i.destination stop).address = address := by
  have ha := address_of_contract? i.found
  exact ha

theorem stock?_destination (stop : UInt32) : (i.destination stop).stock? =
    some ⟨i.collection.entries ++ (i.slice stop).map Token.entry, stop⟩ := by
  rw [destination, Contract.stock?_withCollection, i.stock_filled]

theorem stock?_put_destination (stop : UInt32) : (l.put (i.destination stop)).stock? =
    Function.update l.stock? address
      (some ⟨i.collection.entries ++ (i.slice stop).map Token.entry, stop⟩) := by
  rw [stock?_put_at (i.address_destination stop), i.stock?_destination]

/-- No collection imports from itself. -/
theorem origin_ne (h : l.registry.WellLinked) : i.origin.address ≠ address := by
  obtain ⟨c, hc, hp⟩ := exists_predecessor h i.found i.comesFrom
  rw [← address_of_contract? hc, ← address_of_contract? i.found]
  exact hp.older.ne

theorem contract?_opened (stop : UInt32) : (i.opened stop).contract? =
    Function.update l.contract? address (some { i.destination stop with mode := .running }) := by
  have ha : ({ i.destination stop with mode := .running } : Contract).address = address :=
    i.address_destination stop
  rw [opened, contract?_put, ha]

/-- Who is imported from is still there when the destination runs. -/
theorem contract?_opened_source (apart : i.origin.address ≠ address) (stop : UInt32) :
    (i.opened stop).contract? i.origin.address = some i.source := by
  rw [i.contract?_opened, Function.update_of_ne apart, i.sourceFound]

/-- The collection that is retired at the end is the one that was imported from. -/
theorem source_of_opened (h : l.registry.WellLinked) {stop : UInt32} {source : Contract}
    (hs : (i.opened stop).contract? i.origin.address = some source) :
    source = i.source ∧ i.origin.address ≠ address := by
  have hne := i.origin_ne h
  exact ⟨Option.some.inj (hs.symm.trans (i.contract?_opened_source hne stop)), hne⟩

/-- Opening and retiring changes no stock. -/
theorem stock?_finished (h : l.registry.WellLinked) {stop : UInt32} {source : Contract}
    (hs : (i.opened stop).contract? i.origin.address = some source) :
    (i.finished stop source).stock? = (l.put (i.destination stop)).stock? := by
  obtain ⟨rfl, hne⟩ := i.source_of_opened h hs
  have hopen : (i.opened stop).stock? = (l.put (i.destination stop)).stock? := by
    rw [opened, stock?_put, stock?_put, Contract.stock?_mode]
  rw [finished, stock?_foldl_repoint, stock?_put_of_eq, hopen]
  rw [Contract.stock?_mode, address_of_contract? i.sourceFound, stock?, hs]
  rfl

/-- At the end the old collection is no longer live, and the new one is. -/
theorem liveAt_finished (stop : UInt32) {source : Contract} (hsource : source = i.source)
    (hne : i.origin.address ≠ address) :
    (i.finished stop source).LiveAt address ∧
      ∀ a, l.LiveAt a → (i.finished stop source).LiveAt a ∨ a = i.origin.address := by
  subst hsource
  have ha : ({ i.destination stop with mode := .running } : Contract).address = address :=
    i.address_destination stop
  have hs : i.source.address = i.origin.address := address_of_contract? i.sourceFound
  have hopened : (i.opened stop).LiveAt address := by
    exact ⟨_, i.filled stop, contract?_put_self ha, rfl, Or.inl rfl⟩
  refine ⟨LiveAt.foldl_repoint (hopened.put fun hac => ?_) _ _ _, fun a hl => ?_⟩
  · exact absurd (hs.symm.trans hac.symm) hne
  · by_cases hao : a = i.origin.address
    · exact Or.inr hao
    · refine Or.inl (LiveAt.foldl_repoint ((hl.put fun _ => ?_).put fun hac => ?_) _ _ _)
      · exact ⟨Or.inl rfl, _, rfl⟩
      · exact absurd (hac.trans hs) hao

end Import

/-- Every step changes stocks in one of the ways of `StockStep`. -/
theorem stockStep_of_step {rules : ChainRules} {l l' : Ledger} {m : Msg}
    (h : l.registry.WellLinked) (hs : Step rules l m l') : StockStep l m l' := by
  have hnext : l.contract? l.nextAddress = none :=
    contract?_addressOf_eq_none h (Nat.lt_succ_self _)
  cases hs with
  | storeCode code _ _ _ => exact .same rfl fun _ ha => ha
  | send _ => exact .same rfl fun _ ha => ha
  | newCollection init _ _ _ => exact stockStep_add hnext rfl rfl
  | newDealer init _ _ _ _ =>
    refine stockStep_newDealer hnext
      (contract?_addressOf_eq_none h (Nat.lt_add_of_pos_right Nat.two_pos)) ?_
    intro he
    exact absurd (addressOf_injective he) (Nat.ne_of_lt (Nat.lt_succ_self _))
  | moveDealer _ _ d => exact d.stockStep hnext
  | moveCollection _ _ d => exact d.stockStep hnext
  | sell sale _ read =>
    refine .sold sale read ?_ fun a ha => ha.put fun _ => ⟨Or.inl sale.childRunning, _, rfl⟩
    have ha := address_of_contract? sale.childFound
    rw [Sale.after, stock?_put_at (c := sale.child.withCollection _) ha,
      Contract.stock?_withCollection, sale.stock_sold]
  | @transfer _ _ _ recipient _ _ _ _ t _ read =>
    obtain ⟨i, hi, hid, hgive⟩ := t.stock_given recipient
    refine .given t read i hi hid ?_ fun a ha => ha.put fun _ => ⟨Or.inl t.running, _, rfl⟩
    have ha := address_of_contract? t.found
    rw [Transfer.after, stock?_put_at (c := t.contract.withCollection _) ha,
      Contract.stock?_withCollection, hgive]
  | importPage i _ read more =>
    refine .imported i read (i.stock?_put_destination _) fun a ha => Or.inl (ha.put fun hac => ?_)
    exact absurd hac (i.ne_of_liveAt ha)
  | finishImport i _ read last source hs =>
    obtain ⟨hsource, hne⟩ := i.source_of_opened h hs
    obtain ⟨hopen, hlive⟩ := i.liveAt_finished i.total hsource hne
    have hstock := (i.stock?_finished h hs).trans (i.stock?_put_destination _)
    rw [← last] at hstock
    rw [← last] at hopen hlive ⊢
    refine .imported i read hstock fun a ha => (hlive a ha).imp_right fun hao => ?_
    exact ⟨hao, last, hopen⟩

end Ledger

end Handover
