import Handover.Proofs.Json.Lawful
import Handover.Proofs.Ledger.Cursor

/-!
# Who owns what

Over all migrations, a line of collections behaves as one plain list of owners. Its state is
what the live collection of the line holds (`Holds`). A purchase appends an entry, a transfer
changes the owner of one (`OwnerStep`), and nothing else changes the list, although tokens are
minted again page by page and the live collection becomes another one at the end.

Ids count up from zero in every collection (`InOrder`), and a collection that imports holds the
first tokens of the one it imports from, up to its cursor. That a line keeps all its entries needs
that no collection is so large that its number of tokens does not fit the word that imports count
with (`Bounded`).
-/

namespace Handover

open Relation

namespace Ledger

/-! ## The invariant of stocks -/

/-- No collection has more tokens than a word of 32 bits counts. -/
def Bounded (l : Ledger) : Prop :=
  ∀ a c s, l.contract? a = some c → c.model = .collection s → s.tokens.length < UInt32.size

/-- Whether the number of tokens of a contract fits. -/
def fits (c : Contract) : Bool :=
  match c.model with
  | .dealer _ => true
  | .collection s => s.tokens.length < UInt32.size

theorem bounded_of_all_fits {l : Ledger} (h : l.contracts.all fits = true) : l.Bounded := by
  intro a c s hc hs
  have hfits := List.all_eq_true.1 h c (List.mem_of_find?_eq_some hc)
  simpa [fits, hs] using hfits

/-- On a bounded ledger the tokens of a collection are numbered by words. -/
theorem Bounded.length_lt {l : Ledger} (h : l.Bounded) {a : String} {S : Stock}
    (hS : l.stock? a = some S) : S.entries.length < UInt32.size := by
  obtain ⟨c, s, hc, hs, rfl⟩ := exists_of_stock? hS
  simpa [Collection.stock, Collection.length_entries] using h a c s hc hs

/-- The ids of the entries count up from zero. -/
def InOrder (S : List Entry) : Prop :=
  S.map Entry.id = (List.range S.length).map toString

namespace StockStep

variable {l l' : Ledger} {m : Msg}

/-- If the collection that changed did not shrink, none did. -/
theorem length_le_of_update {b : String} {K K' : Stock} (hK : l.stock? b = some K)
    (stock : l'.stock? = Function.update l.stock? b (some K'))
    (hle : K.entries.length ≤ K'.entries.length) {a : String} {S : Stock}
    (hS : l.stock? a = some S) :
    ∃ S', l'.stock? a = some S' ∧ S.entries.length ≤ S'.entries.length := by
  rw [stock]
  by_cases ha : a = b
  · obtain rfl := Option.some.inj (hK.symm.trans (ha ▸ hS))
    exact ⟨K', by rw [ha, Function.update_self], hle⟩
  · exact ⟨S, by rw [Function.update_of_ne ha, hS], Nat.le_refl _⟩

/-- No collection loses tokens. -/
theorem length_le (hs : StockStep l m l') {a : String} {S : Stock} (hS : l.stock? a = some S) :
    ∃ S', l'.stock? a = some S' ∧ S.entries.length ≤ S'.entries.length := by
  cases hs with
  | same stock _ => exact ⟨S, by rw [stock, hS], Nat.le_refl _⟩
  | added b new stock _ =>
    refine ⟨S, ?_, Nat.le_refl _⟩
    rw [stock, Function.update_of_ne, hS]
    rintro rfl
    simp [stock?_of_none new] at hS
  | sold sale _ stock _ =>
    exact length_le_of_update (stock?_of_collection sale.childFound sale.isCollection) stock
      (by simp [Collection.stock]) hS
  | given t _ _ _ _ stock _ =>
    exact length_le_of_update (stock?_of_collection t.found t.isCollection) stock
      (by simp [Collection.stock]) hS
  | imported i _ stock _ =>
    exact length_le_of_update (stock?_of_collection i.found i.isCollection) stock
      (by simp [Collection.stock]) hS

/-- A ledger that is bounded after a message was so before. -/
theorem bounded (hs : StockStep l m l') (hb : l'.Bounded) : l.Bounded := by
  intro a c s hc hm
  obtain ⟨S', hS', hle⟩ := hs.length_le (stock?_of_collection hc hm)
  have hlt := hb.length_lt hS'
  rw [Collection.stock, Collection.length_entries] at hle
  exact Nat.lt_of_le_of_lt hle hlt

end StockStep

theorem InOrder.nil : InOrder [] := rfl

/-- A token is added in order if its id is the number of tokens. -/
theorem InOrder.append {S : List Entry} {e : Entry} (h : InOrder S)
    (he : e.id = toString S.length) : InOrder (S ++ [e]) := by
  rw [InOrder] at h
  simp [InOrder, h, he, List.range_succ]

/-- The first entries are in order. -/
theorem InOrder.take {S : List Entry} (h : InOrder S) {n : Nat} (hn : n ≤ S.length) :
    InOrder (S.take n) := by
  rw [InOrder] at h
  rw [InOrder, List.map_take, h, List.length_take, Nat.min_eq_left hn, ← List.map_take,
    List.take_range, Nat.min_eq_left hn]

/-- An entry that gets another owner keeps its id. -/
theorem map_id_set_owner {S : List Entry} {i : Nat} {e : Entry} (h : S[i]? = some e)
    (owner : String) : (S.set i { e with owner }).map Entry.id = S.map Entry.id := by
  obtain ⟨hi, rfl⟩ := List.getElem?_eq_some_iff.1 h
  have hi' : i < (S.map Entry.id).length := by simpa using hi
  have hid : (S.map Entry.id)[i] = S[i].id := List.getElem_map _
  rw [List.map_set]
  change (S.map Entry.id).set i S[i].id = _
  rw [← hid, List.set_getElem_self]

/-- Entries stay in order when a token changes hands. -/
theorem InOrder.set {S : List Entry} (h : InOrder S) {i : Nat} {e : Entry} (found : S[i]? = some e)
    (owner : String) : InOrder (S.set i { e with owner }) := by
  rw [InOrder, map_id_set_owner found, List.length_set]
  exact h

/-- What holds of all stocks still holds when one is replaced by another of which it holds. -/
theorem forall_stock_of_update {l l' : Ledger} {P : Stock → Prop} {b : String} {K : Stock}
    (h : ∀ a S, l.stock? a = some S → P S) (stock : l'.stock? = Function.update l.stock? b (some K))
    (hK : P K) : ∀ a S, l'.stock? a = some S → P S := by
  intro a S hS
  rw [stock] at hS
  by_cases ha : a = b
  · rw [ha, Function.update_self] at hS
    exact Option.some.inj hS ▸ hK
  · exact h a S (by rwa [Function.update_of_ne ha] at hS)

/-- Steps keep ids in order. -/
theorem inOrder_step {l l' : Ledger} {m : Msg} (h : ∀ a S, l.stock? a = some S → InOrder S.entries)
    (hs : StockStep l m l') (hcursors : l.Cursors) :
    ∀ a S, l'.stock? a = some S → InOrder S.entries := by
  cases hs with
  | same stock _ =>
    intro a S hS
    exact h a S (stock ▸ hS)
  | added b _ stock _ => exact forall_stock_of_update h stock .nil
  | sold sale _ stock _ =>
    refine forall_stock_of_update h stock (InOrder.append ?_ ?_)
    · exact h _ _ (stock?_of_collection sale.childFound sale.isCollection)
    · exact congrArg toString (Collection.length_entries _).symm
  | given t _ _ found _ stock _ =>
    refine forall_stock_of_update h stock (InOrder.set ?_ found _)
    exact h _ _ (stock?_of_collection t.found t.isCollection)
  | @imported _ _ _ _ _ pages _ size _ i _ stock _ =>
    refine forall_stock_of_update h stock ?_
    obtain ⟨hle, htake⟩ := i.entries_eq_take hcursors pages size
    rw [htake]
    refine InOrder.take ?_ (Nat.le_trans hle (Nat.mod_le _ _))
    exact h _ _ (stock?_of_collection i.sourceFound i.sourceIsCollection)

/-- Ids count up from zero in every collection, also if its number of tokens fits no word. -/
theorem Reached.inOrder {l : Ledger} (h : l.Reached) :
    ∀ a S, l.stock? a = some S → InOrder S.entries := by
  induction h with
  | empty => intro a S hS; simp [stock?, contract?_empty] at hS
  | block _ ih => exact ih
  | step h hs ih => exact inOrder_step ih (stockStep_of_step h.wellLinked hs) h.cursors

/-! ## The plain list of owners -/

/-- A collection that was made from scratch, where a line of collections begins. -/
def Root (l : Ledger) (r : String) : Prop :=
  ∃ c, l.contract? r = some c ∧ c.kind = .migratable ∧ c.migratedFrom = none

/-- In the line that begins at `r` the collection at `b` is live and holds the entries. -/
def Holds (l : Ledger) (r b : String) (S : List Entry) : Prop :=
  l.Root r ∧ ReflTransGen l.MovesTo r b ∧ l.LiveAt b ∧ ∃ cursor, l.stock? b = some ⟨S, cursor⟩

/-- What a message does to the entries of a line whose live collection is at `b`. -/
inductive OwnerStep (l : Ledger) (b : String) : Msg → List Entry → List Entry → Prop
  | unchanged {m : Msg} {S : List Entry} : OwnerStep l b m S S
  | bought {buyer address codeHash : String} {msg : Json} {funds : List Coin} {S : List Entry}
      {c : Contract} {d : Dealer} (found : l.contract? address = some c)
      (isDealer : c.model = .dealer d) (child : d.child.address = b)
      (read : ofObject? msg = some DealerMsg.purchaseMint) :
      OwnerStep l b (.execute buyer address codeHash msg funds) S
        (S ++ [⟨toString S.length, buyer, d.publicMetadata, d.privateMetadata⟩])
  | given {sender codeHash recipient tokenId : String} {msg : Json} {funds : List Coin}
      {memo : Option String} {S : List Entry} {i : Nat} {e : Entry}
      (read : ofObject? msg = some (CollectionMsg.transferNft recipient tokenId memo))
      (found : S[i]? = some e) (id : e.id = tokenId) (owner : e.owner = sender) :
      OwnerStep l b (.execute sender b codeHash msg funds) S (S.set i { e with owner := recipient })

/-- Only one collection of a line holds tokens, and only one list of them. -/
theorem Holds.unique {l : Ledger} (h : l.Reached) {r b b' : String} {S S' : List Entry}
    (hS : l.Holds r b S) (hS' : l.Holds r b' S') : b' = b ∧ S' = S := by
  obtain ⟨-, hrb, ⟨c, s, hc, -, hcl⟩, n, hb⟩ := hS
  obtain ⟨-, hrb', ⟨c', s', hc', -, hcl'⟩, n', hb'⟩ := hS'
  have hbb : b' = b := by
    rcases ReflTransGen.total_of_right_unique movesTo_rightUnique hrb hrb' with hbb' | hb'b
    · exact (eq_of_live h.wellLinked hc hc' hbb' hcl hcl').symm
    · exact eq_of_live h.wellLinked hc' hc hb'b hcl' hcl
  subst hbb
  rw [hb] at hb'
  exact ⟨rfl, congrArg Stock.entries (Option.some.inj hb').symm⟩

/-- Every line holds something. -/
theorem Root.exists_holds {l : Ledger} (h : l.Reached) {r : String} (hr : l.Root r) :
    ∃ b S, l.Holds r b S := by
  obtain ⟨c, hc, hk, hf⟩ := id hr
  obtain ⟨b, ⟨hrb, d, hd, hl⟩, -⟩ := existsUnique_live h.wellLinked hc
  have hpath : ReflTransGen l.MovesTo r b := by
    rcases movesTo_total h.wellLinked hrb with hrb | hbr
    · exact hrb
    · -- Nothing comes before a contract from scratch.
      rcases ReflTransGen.cases_tail hbr with rfl | ⟨x, -, e, f, he, hf', hef⟩
      · exact .refl
      · obtain rfl := Option.some.inj (hc.symm.trans hf')
        have hp := (precedes_of_migratedTo h.wellLinked he hc hef).previous
        simp [hf] at hp
  obtain ⟨s, hm⟩ := Contract.exists_collection_of_kind
    ((kind_eq_of_moves h.wellLinked hpath hc hd).symm.trans hk)
  exact ⟨b, s.entries, hr, hpath, ⟨d, s, hd, hm, hl⟩, s.importCursor, stock?_of_collection hd hm⟩

/-- The entry of a token that is sold, with the number of tokens for its id. -/
theorem Sale.entry_token {l : Ledger} {address : String} {funds : List Coin}
    (sale : Sale l address funds) (buyer : String) : (sale.token buyer).entry =
      ⟨toString sale.collection.entries.length, buyer, sale.dealer.publicMetadata,
        sale.dealer.privateMetadata⟩ := by
  rw [Collection.length_entries]
  rfl

/-- Links stay. -/
theorem MovesTo.step {rules : ChainRules} {l l' : Ledger} {m : Msg} (h : l.Reached)
    (hs : Step rules l m l') {a b : String} (hab : l.MovesTo a b) : l'.MovesTo a b := by
  obtain ⟨c, d, hc, hd, hcd⟩ := hab
  have hadv := h.advances (.cons hs .nil)
  obtain ⟨c', hc', hcc'⟩ := hadv a c hc
  obtain ⟨d', hd', hdd'⟩ := hadv b d hd
  exact ⟨c', d', hc', hd', hdd'.info ▸ hcc'.migratedTo _ hcd⟩

/-- A contract that was made from scratch stays one. -/
theorem Root.step {rules : ChainRules} {l l' : Ledger} {m : Msg} (h : l.Reached)
    (hs : Step rules l m l') {r : String} (hr : l.Root r) : l'.Root r := by
  obtain ⟨c, hc, hk, hf⟩ := hr
  obtain ⟨c', hc', hcc'⟩ := h.advances (.cons hs .nil) r c hc
  exact ⟨c', hc', hcc'.kind.trans hk, hcc'.migratedFrom.trans hf⟩

/-- A step of the ledger is a step of each of its plain lists of owners. -/
theorem Holds.step {rules : ChainRules} {l l' : Ledger} {m : Msg} (h : l.Reached)
    (step : Step rules l m l') (hb : l'.Bounded) {r b : String} {S : List Entry}
    (hS : l.Holds r b S) : ∃ b' S', l'.Holds r b' S' ∧ OwnerStep l b m S S' := by
  have hs := stockStep_of_step h.wellLinked step
  obtain ⟨hr, hpath, hlive, n, hstock⟩ := hS
  have hr' := hr.step h step
  have hpath' : ReflTransGen l'.MovesTo r b :=
    hpath.lift id fun _ _ => MovesTo.step h step
  -- The live collection stays live and its stock becomes `T`.
  have hstay : ∀ {T k}, l'.LiveAt b → l'.stock? b = some ⟨T, k⟩ → OwnerStep l b m S T →
      ∃ b' S', l'.Holds r b' S' ∧ OwnerStep l b m S S' := fun hl hT ho =>
    ⟨b, _, ⟨hr', hpath', hl, _, hT⟩, ho⟩
  have hsame : l'.LiveAt b → l'.stock? b = l.stock? b →
      ∃ b' S', l'.Holds r b' S' ∧ OwnerStep l b m S S' := fun hl hT =>
    hstay hl (hT.trans hstock) .unchanged
  cases hs with
  | same stock live => exact hsame (live b hlive) (congrFun stock b)
  | added a new stock live =>
    exact hsame (live b hlive) (by rw [stock, Function.update_of_ne (hlive.ne new)])
  | sold sale read stock live =>
    by_cases hbk : b = sale.dealer.child.address
    · have hk := stock?_of_collection sale.childFound sale.isCollection
      rw [← hbk, hstock] at hk
      obtain rfl : S = sale.collection.entries := congrArg Stock.entries (Option.some.inj hk)
      have hT := congrFun stock b
      rw [hbk, Function.update_self, sale.entry_token] at hT
      exact hstay (live b hlive) (hbk ▸ hT) (.bought sale.found sale.isDealer hbk.symm read)
    · exact hsame (live b hlive) (by rw [stock, Function.update_of_ne hbk])
  | @given _ a _ _ _ _ _ _ _ t read i found id stock live =>
    by_cases hba : b = a
    · subst hba
      have hk := stock?_of_collection t.found t.isCollection
      rw [hstock] at hk
      obtain rfl : S = t.collection.entries := congrArg Stock.entries (Option.some.inj hk)
      have hT := congrFun stock b
      rw [Function.update_self] at hT
      exact hstay (live b hlive) hT (.given read found id t.isOwner)
    · exact hsame (live b hlive) (by rw [stock, Function.update_of_ne hba])
  | @imported _ a _ _ _ pages _ size _ i read stock live =>
    have hba : b ≠ a := address_of_contract? i.found ▸ i.ne_of_liveAt hlive
    rcases live b hlive with hl | ⟨rfl, hlast, hopen⟩
    · exact hsame hl (by rw [stock, Function.update_of_ne hba])
    · -- The new collection takes over with all the tokens of the old one.
      obtain ⟨e, he, hp⟩ := exists_predecessor h.wellLinked i.found i.comesFrom
      have hmove : l.MovesTo i.origin.address a := ⟨e, i.contract, he, i.found, hp.next⟩
      have hbound := (stockStep_of_step h.wellLinked step).bounded hb _ _ _ i.sourceFound
        i.sourceIsCollection
      obtain ⟨-, htake⟩ := i.entries_eq_take h.cursors pages size
      have hk := stock?_of_collection i.sourceFound i.sourceIsCollection
      rw [hstock] at hk
      obtain rfl : S = i.sourceCollection.entries := congrArg Stock.entries (Option.some.inj hk)
      have hall : i.sourceCollection.entries.take (i.stop pages size).toNat =
          i.sourceCollection.entries := by
        rw [hlast, i.toNat_total hbound, List.take_length]
      have hT := congrFun stock a
      rw [Function.update_self, htake, hall] at hT
      exact ⟨a, _, ⟨hr', hpath'.tail (hmove.step h step), hopen, _, hT⟩, .unchanged⟩

/-- A line begins with no entries. -/
theorem Root.holds_nil {rules : ChainRules} {l l' : Ledger} {m : Msg} (h : l.Reached)
    (step : Step rules l m l') {r : String} (hr : l'.Root r) (hn : l.contract? r = none) :
    l'.Holds r r [] := by
  obtain ⟨c, hc, hk, hf⟩ := id hr
  have hrun : c.mode = .running := (started_of_new h.wellLinked step hn hc).running hf
  obtain ⟨s, hm⟩ := Contract.exists_collection_of_kind hk
  have hs := stock?_of_collection hc hm
  refine ⟨hr, .refl, ⟨c, s, hc, hm, Or.inl hrun⟩, 0, ?_⟩
  rw [hs, (stockStep_of_step h.wellLinked step).stock_of_new hn hs]

end Ledger

/-! ## Moves change no owner -/

/-- The message starts a contract, maybe in the place of another one, or imports tokens. -/
def Msg.IsMove : Msg → Prop
  | .instantiate .. => True
  | .execute _ _ _ msg _ =>
    ∃ pages pageSize, ofObject? msg = some (CollectionMsg.migrateTokensIn pages pageSize)
  | _ => False

/-- A purchase is no message to a collection. -/
theorem collectionMsg_eq_none {msg : Json} (h : ofObject? msg = some DealerMsg.purchaseMint) :
    (ofObject? msg : Option CollectionMsg) = none := by
  have h : DealerMsg.ofJson? msg = some .purchaseMint := ofJson?_of_ofObject? h
  refine ofObject?_eq_none ?_
  change CollectionMsg.ofJson? msg = none
  cases hv : msg.variant? with
  | none => simp [CollectionMsg.ofJson?, hv]
  | some v =>
    obtain ⟨name, payload⟩ := v
    have hname : name = "purchase_mint" := by
      by_contra hne
      simp [DealerMsg.ofJson?, hv, hne] at h
    simp [CollectionMsg.ofJson?, hv, hname]

/-- A move leaves the entries as they are. -/
theorem Ledger.OwnerStep.eq_of_isMove {l : Ledger} {b : String} {m : Msg} {S S' : List Entry}
    (h : OwnerStep l b m S S') (hm : m.IsMove) : S' = S := by
  cases h with
  | unchanged => rfl
  | bought _ _ _ read =>
    obtain ⟨pages, pageSize, hi⟩ := hm
    simp [collectionMsg_eq_none read] at hi
  | given read _ _ _ =>
    obtain ⟨pages, pageSize, hi⟩ := hm
    simp [read] at hi

/-! ## Runs -/

namespace Ledger

/-- What a message does to the plain lists of owners of all lines. -/
def OwnersStep (l : Ledger) (m : Msg) (l' : Ledger) : Prop :=
  (∀ r b S, l.Holds r b S →
    ∃ b' S', l'.Holds r b' S' ∧ OwnerStep l b m S S' ∧ (m.IsMove → S' = S)) ∧
  ∀ r, l'.Root r → l.contract? r = none → l'.Holds r r []

/-- What a message does to the owners, line by line. -/
theorem ownersStep_of_step {rules : ChainRules} {l l' : Ledger} {m : Msg} (h : l.Reached)
    (hs : Step rules l m l') (hb : l'.Bounded) : OwnersStep l m l' := by
  refine ⟨fun r b S hS => ?_, fun r hr hn => hr.holds_nil h hs hn⟩
  obtain ⟨b', S', hS', ho⟩ := hS.step h hs hb
  exact ⟨b', S', hS', ho, ho.eq_of_isMove⟩

/-- Every line of collections holds one list of entries, with ids that count up from zero. -/
def ListsOwners (l : Ledger) : Prop :=
  ∀ r, l.Root r → ∃ b S, l.Holds r b S ∧ (∀ b' S', l.Holds r b' S' → b' = b ∧ S' = S) ∧
    InOrder S

/-- On a reached ledger the entries of a line are in order. -/
theorem Reached.listsOwners {l : Ledger} (h : l.Reached) : l.ListsOwners := by
  intro r hr
  obtain ⟨b, S, hS⟩ := hr.exists_holds h
  obtain ⟨n, hn⟩ := hS.2.2.2
  exact ⟨b, S, hS, fun b' S' hS' => hS.unique h hS', h.inOrder b _ hn⟩

end Ledger

/-- On a reachable chain each line of collections holds one list of entries, with ids that count
up from zero. A message that goes through, at any point of a transaction, leaves each list as it
is, appends an entry for a buyer, or gives one entry from its owner to another one, as long as no
collection is too large after it. Moves leave all lists as they are. -/
theorem Chain.Reachable.owners {c : Chain} (h : c.Reachable) :
    c.ledger.ListsOwners ∧ ∀ before outcomes l m o l',
      c.ledger.run c.rules before = .ok (outcomes, l) → Ledger.apply c.rules l m = .ok (o, l') →
        l.ListsOwners ∧ l'.ListsOwners ∧ (l'.Bounded → l.Bounded ∧ l.OwnersStep m l') := by
  refine ⟨h.reached.listsOwners, fun before outcomes l m o l' hrun happly => ?_⟩
  have hl := (Ledger.ran_of_run hrun).reached h.reached.block
  have hs := Ledger.step_of_apply happly
  refine ⟨hl.listsOwners, (hl.step hs).listsOwners, fun hb => ⟨?_, ?_⟩⟩
  · exact (Ledger.stockStep_of_step hl.wellLinked hs).bounded hb
  · exact Ledger.ownersStep_of_step hl hs hb

namespace Chain

/-- The collection of the other account after it sold a token. -/
def soldRival : Contract :=
  rivalCollection [⟨"0", "secret1buyer", none, none, "secret1contract0003", "secret1contract0003",
    1700000024⟩] [⟨0, 4, "0", .mint "secret1contract0003" "secret1buyer"⟩]

/-- Within one transaction, the other dealer sells a token and the first collection moves. The
sale appends an entry to the list of the one line, and the list of the other line goes from the
old collection to the new one as it is. -/
theorem crossing_owners : ∃ outcomes l o l',
    crossing.ledger.run crossing.rules [purchaseAt "secret1contract0003"] = .ok (outcomes, l) ∧
    Ledger.apply crossing.rules l importRest = .ok (o, l') ∧
    crossing.ledger.nextBlock.OwnersStep (purchaseAt "secret1contract0003") l ∧
    l.OwnersStep importRest l' ∧
    l.Holds "secret1contract0004" "secret1contract0004" [⟨"0", "secret1buyer", none, none⟩] ∧
    l.Holds "secret1contract0002" "secret1contract0002" soldCollection.entries ∧
    l'.Holds "secret1contract0002" "secret1contract0005" soldCollection.entries := by
  have hsale : (Ledger.apply crossing.rules crossing.ledger.nextBlock
      (purchaseAt "secret1contract0003")).map Prod.snd = .ok (crossingLedger soldRival 4) := by
    rw [rules_crossing, ledger_crossing]
    decide +kernel
  have himport : (Ledger.apply crossing.rules (crossingLedger soldRival 4) importRest).map
      Prod.snd = .ok (crossedLedger soldRival) := by
    rw [rules_crossing]
    decide +kernel
  obtain ⟨⟨o, _⟩, hsold, rfl⟩ := map_eq_ok.1 hsale
  obtain ⟨⟨o', _⟩, hdone, rfl⟩ := map_eq_ok.1 himport
  have hrun := run_singleton_eq_ok.2 ⟨o, hsold, rfl⟩
  obtain ⟨-, hsteps⟩ := reachable_crossing.owners
  obtain ⟨-, -, hfirst⟩ := hsteps [] [] _ _ o _ rfl hsold
  obtain ⟨-, -, hsecond⟩ := hsteps _ _ _ _ o' _ hrun hdone
  obtain ⟨hb, hmoved⟩ := hsecond (Ledger.bounded_of_all_fits (by decide))
  refine ⟨_, _, o', _, hrun, hdone, (hfirst hb).2, hmoved, ?_, ?_, ?_⟩
  · exact ⟨⟨_, rfl, rfl, rfl⟩, .refl, ⟨_, _, rfl, rfl, Or.inl rfl⟩, 0, rfl⟩
  · exact ⟨⟨_, rfl, rfl, rfl⟩, .refl, ⟨_, _, rfl, rfl, Or.inr rfl⟩, 0, rfl⟩
  · exact ⟨⟨_, rfl, rfl, rfl⟩, .single ⟨_, _, rfl, rfl, rfl⟩, ⟨_, _, rfl, rfl, Or.inl rfl⟩, 1, rfl⟩

end Chain

end Handover
