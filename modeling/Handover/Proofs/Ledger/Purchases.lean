import Handover.Proofs.Ledger.Ownership
import Handover.Proofs.Ledger.Staffing

/-!
# Purchases

A message that reads as a purchase goes through exactly as a `Sale` (`apply_eq_ok_iff_sale`), so
every way to refuse it is a field that a sale lacks. What a sale changes is one contract in its
place : the collection has one more token at its end and one more entry in its history
(`Sale.Mints`). The token is named for the number of tokens before it. No other token has that
id since ids count up from zero in every collection, whether its tokens were sold or imported.
-/

namespace Handover

/-- A collection with one more token, and one more entry in its history. -/
def Collection.grown (s : Collection) (t : Token) (e : HistoryEntry) : Collection :=
  { s with tokens := s.tokens ++ [t], history := s.history ++ [e] }

namespace Ledger

/-! ## When a purchase goes through -/

/-- A message that reads as a purchase goes through exactly as a sale. -/
theorem apply_eq_ok_iff_sale {rules : ChainRules} {l l' : Ledger} {buyer a hash : String}
    {msg : Json} {funds : List Coin} {o : Outcome}
    (read : ofObject? msg = some DealerMsg.purchaseMint) :
    apply rules l (.execute buyer a hash msg funds) = .ok (o, l') ↔
      ∃ sale : Sale l a funds, sale.contract.codeHash = hash ∧ sale.outcome buyer = o ∧
        sale.after buyer = l' := by
  constructor
  · intro h
    have h' := h
    change execute rules l buyer a hash msg funds = .ok (o, l') at h'
    simp only [execute, bind_eq_ok, refuse_if_eq_ok, contract_eq_ok, ne_eq, not_not] at h'
    obtain ⟨c, hc, rfl, h'⟩ := h'
    cases hm : c.model with
    | collection s => simp [hm, bind_eq_ok, collectionMsg_eq_none read] at h'
    | dealer d =>
      rw [apply_purchase_eq funds hc hm read, purchaseMint_eq_ok] at h
      obtain ⟨sale, ho, hl⟩ := h
      exact ⟨sale, congrArg Contract.codeHash (Option.some.inj (sale.found.symm.trans hc)), ho, hl⟩
  · rintro ⟨sale, rfl, ho, hl⟩
    rw [apply_purchase_eq funds sale.found sale.isDealer read, purchaseMint_eq_ok]
    exact ⟨sale, ho, hl⟩

/-! ## What a purchase changes -/

/-- The ledger `l'` is `l` but for the collection of the sale, and that has one token and one
entry of its history more. -/
structure Sale.Mints {l : Ledger} {a : String} {funds : List Coin} (sale : Sale l a funds)
    (buyer : String) (t : Token) (e : HistoryEntry) (l' : Ledger) : Prop where
  owner : t.owner = buyer
  new : ∀ u ∈ sale.collection.tokens, u.id ≠ t.id
  publicMetadata : t.publicMetadata = sale.dealer.publicMetadata
  privateMetadata : t.privateMetadata = sale.dealer.privateMetadata
  recorded : e = ⟨sale.collection.history.length, l.height, t.id, .mint a buyer⟩
  onlyChild : ∃ before after, l.contracts = before ++ sale.child :: after ∧
    l' = { l with contracts :=
      before ++ sale.child.withCollection (sale.collection.grown t e) :: after }

/-- A number can be read off its digits. -/
theorem toString_injective : Function.Injective (toString : Nat → String) := by
  intro m n h
  have hdigits : Nat.toDigits 10 m = Nat.toDigits 10 n := by
    simpa [Nat.toList_repr] using congrArg String.toList h
  calc
    m = Nat.ofDigitChars 10 (Nat.toDigits 10 m) 0 := Nat.ofDigitChars_ten_toDigits.symm
    _ = Nat.ofDigitChars 10 (Nat.toDigits 10 n) 0 := by rw [hdigits]
    _ = n := Nat.ofDigitChars_ten_toDigits

/-- The number of tokens of a collection is the id of none of them. -/
theorem Reached.id_ne_length {l : Ledger} (h : l.Reached) {a : String} {c : Contract}
    {s : Collection} (hc : l.contract? a = some c) (isCollection : c.model = .collection s)
    {t : Token} (ht : t ∈ s.tokens) : t.id ≠ toString s.tokens.length := by
  intro hid
  have hids : s.entries.map Entry.id = (List.range s.entries.length).map toString :=
    h.inOrder a s.stock (stock?_of_collection hc isCollection)
  have hmem : t.id ∈ s.entries.map Entry.id :=
    List.mem_map_of_mem (f := Entry.id) (List.mem_map_of_mem (f := Token.entry) ht)
  rw [hids, List.mem_map] at hmem
  obtain ⟨n, hn, hnid⟩ := hmem
  have hlt : n < s.tokens.length := by
    rw [← s.length_entries]
    exact List.mem_range.1 hn
  exact Nat.ne_of_lt hlt (toString_injective (hnid.trans hid))

/-- A sale mints one token, and nothing else changes. -/
theorem Sale.mints_after {l : Ledger} (h : l.Reached) {a : String} {funds : List Coin}
    (sale : Sale l a funds) (buyer : String) : ∃ t e, sale.Mints buyer t e (sale.after buyer) := by
  refine ⟨sale.token buyer, _, rfl, fun u hu => ?_, rfl, rfl, rfl, ?_⟩
  · exact h.id_ne_length sale.childFound sale.isCollection hu
  · have ha := address_of_contract? sale.childFound
    have hsold : (sale.child.withCollection (sale.sold buyer)).address =
        sale.dealer.child.address := ha
    exact exists_put_eq sale.childFound hsold

end Ledger

/-- On a reachable chain, a transaction of one message that reads as a purchase is accepted exactly
if it is a sale, at a dealer with the given code, and has the gas for it. The collection of a dealer
is always there. If the purchase is accepted, then that collection has one more token at its end
and one more entry in its history, and all else on the ledger of the next block is as it was. If it
is refused, then the ledger is as it was. -/
theorem Chain.Reachable.purchase_mints_one {c : Chain} (h : c.Reachable) {msg : Json}
    (read : ofObject? msg = some DealerMsg.purchaseMint) (buyer a hash : String) (funds : List Coin)
    (options : TxOptions) :
    ((∃ r c', c.broadcast [.execute buyer a hash msg funds] options = (.ok r, c')) ↔
      (∃ sale : Ledger.Sale c.ledger.nextBlock a funds, sale.contract.codeHash = hash) ∧
        2 * Ledger.executeGas ≤ options.gasLimit.toNat) ∧
    (∀ k d, c.ledger.contract? a = some k → k.model = .dealer d →
      ∃ child s, c.ledger.contract? d.child.address = some child ∧ child.model = .collection s) ∧
    (∀ r c', c.broadcast [.execute buyer a hash msg funds] options = (.ok r, c') →
      ∃ sale : Ledger.Sale c.ledger.nextBlock a funds, sale.contract.codeHash = hash ∧
        ∃ t e, sale.Mints buyer t e c'.ledger) ∧
    ∀ fault c', c.broadcast [.execute buyer a hash msg funds] options = (.error fault, c') →
      c'.ledger = c.ledger := by
  refine ⟨?_, fun k d found isDealer => ?_, fun r c' accepted => ?_, fun fault c' refused => ?_⟩
  · rw [Chain.exists_broadcast_singleton]
    simp only [Ledger.apply_eq_ok_iff_sale read]
    constructor
    · rintro ⟨_, _, ⟨sale, hcode, rfl, -⟩, enough⟩
      exact ⟨⟨sale, hcode⟩, enough⟩
    · rintro ⟨⟨sale, hcode⟩, enough⟩
      exact ⟨_, _, ⟨sale, hcode, rfl, rfl⟩, enough⟩
  · obtain ⟨child, s, hchild, -, hs, -⟩ :=
      Ledger.exists_collection h.reached.wellStaffed found isDealer
    exact ⟨child, s, hchild, hs⟩
  · obtain ⟨o, happly⟩ := Chain.exists_apply_of_broadcast accepted
    obtain ⟨sale, hcode, -, hafter⟩ := (Ledger.apply_eq_ok_iff_sale read).1 happly
    exact ⟨sale, hcode, hafter ▸ sale.mints_after h.reached.block buyer⟩
  · exact Chain.ledger_of_broadcast_error refused

/-- A second purchase at a new dealer. -/
def Chain.secondSale : Except ChainFault TxResponse × Chain :=
  firstSale.2.broadcast [.execute "secret1other" "secret1contract0001" dealerHash
    (toJson DealerMsg.purchaseMint) [price]] (.ofGasLimit 300000)

set_option maxRecDepth 100000 in
theorem Chain.secondSale_accepted : secondSale.1.isOk = true := by
  decide +kernel

/-- The second buyer gets a second token, and who sends no coin gets none. -/
theorem Chain.secondSale_mints_one :
    (∃ sale : Ledger.Sale firstSale.2.ledger.nextBlock "secret1contract0001" [price],
      ∃ t e, sale.Mints "secret1other" t e secondSale.2.ledger) ∧
    ¬∃ r c', firstSale.2.broadcast [.execute "secret1other" "secret1contract0001" dealerHash
      (toJson DealerMsg.purchaseMint) []] (.ofGasLimit 300000) = (.ok r, c') := by
  have hreachable : firstSale.2.Reachable := reachable_withDealer.move (.send _ _)
  have hread : ofObject? (toJson DealerMsg.purchaseMint) = some DealerMsg.purchaseMint := rfl
  constructor
  · obtain ⟨-, -, haccepted, -⟩ := hreachable.purchase_mints_one hread "secret1other"
      "secret1contract0001" dealerHash [price] (.ofGasLimit 300000)
    have hok := secondSale_accepted
    cases hr : secondSale.1 with
    | error why => simp [hr, Except.isOk, Except.toBool] at hok
    | ok r =>
      have hsale : secondSale = (.ok r, secondSale.2) := by rw [← hr]
      obtain ⟨sale, -, hmints⟩ := haccepted r _ hsale
      exact ⟨sale, hmints⟩
  · rw [(hreachable.purchase_mints_one hread ..).1]
    rintro ⟨⟨sale, -⟩, -⟩
    obtain ⟨sent, price, hfunds, -⟩ := sale.paid
    cases hfunds

end Handover
