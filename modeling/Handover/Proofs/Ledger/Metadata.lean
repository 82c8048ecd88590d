import Handover.Proofs.Ledger.Stock
import Handover.Proofs.Wire.Payload

/-!
# Data of tokens

A dealer gives its tokens the data it was instantiated with. That came in a message, so it was read
twice, and every later reading gives it back (`DealerInit.literal_of_ofJson?`). Moves, transfers
and imports carry the data along, so on a reached ledger this holds of all dealers and all tokens
(`Reached.literal`), and with them of the dossiers that a collection shows
(`Entry.Literal.dossier`).
-/

namespace Handover

/-- The data of a token is read as itself. -/
structure Entry.Literal (e : Entry) : Prop where
  publicMetadata : ∀ m ∈ e.publicMetadata, m.Literal
  privateMetadata : ∀ m ∈ e.privateMetadata, m.Literal

/-- What a collection tells about a token can be read again. -/
theorem Entry.Literal.dossier {t : Token} (h : t.entry.Literal) : t.dossier.Literal := by
  have hmintNames : ["collection_creator", "mint_run", "quantity_minted_this_run",
      "serial_number", "time_of_minting", "token_creator"].Pairwise (· < ·) := by decide
  have hmint : Json.Literal (.obj [
      ("collection_creator", .str t.collectionCreator), ("mint_run", .ofNat 1),
      ("quantity_minted_this_run", .null), ("serial_number", .null),
      ("time_of_minting", .ofNat t.timeOfMinting), ("token_creator", .str t.tokenCreator)]) :=
    Json.literal_obj rfl hmintNames (by simp)
  have hprivate : Json.Literal (.ofOption Wire.toJson t.privateMetadata) :=
    Json.literal_ofOption fun m hm => (h.privateMetadata m hm).toJson
  have hpublic : Json.Literal (.ofOption Wire.toJson t.publicMetadata) :=
    Json.literal_ofOption fun m hm => (h.publicMetadata m hm).toJson
  have hnames : ["mint_run_info", "owner", "private_metadata", "public_metadata",
      "token_id"].Pairwise (· < ·) := by decide
  exact Json.literal_obj rfl hnames (by simp [hmint, hprivate, hpublic])

/-- The data of the tokens a contract has, or gives, is read as itself. -/
def Contract.Literal (c : Contract) : Prop :=
  match c.model with
  | .dealer d => (∀ m ∈ d.publicMetadata, m.Literal) ∧ ∀ m ∈ d.privateMetadata, m.Literal
  | .collection s => ∀ e ∈ s.entries, e.Literal

namespace Contract.Literal

variable {c : Contract}

theorem of_collection {s : Collection} (h : c.model = .collection s)
    (hs : ∀ e ∈ s.entries, e.Literal) : c.Literal := by
  rwa [Literal, h]

/-- A collection without tokens has no data. -/
theorem of_empty {s : Collection} (h : c.model = .collection s) (hs : s.tokens = []) :
    c.Literal :=
  of_collection h (by simp [Collection.entries, hs])

theorem entries (hc : c.Literal) {s : Collection} (h : c.model = .collection s) :
    ∀ e ∈ s.entries, e.Literal := by
  rwa [Literal, h] at hc

theorem dealer (hc : c.Literal) {d : Dealer} (h : c.model = .dealer d) :
    (∀ m ∈ d.publicMetadata, m.Literal) ∧ ∀ m ∈ d.privateMetadata, m.Literal := by
  rwa [Literal, h] at hc

theorem congr {d : Contract} (hc : c.Literal) (h : d.model = c.model) : d.Literal := by
  rwa [Literal, h]

/-- Being told of a new collection changes no data. -/
theorem follow (hc : c.Literal) (old : String) (new : ContractInfo) :
    (Ledger.follow old new c).Literal := by
  cases hm : c.model with
  | collection s => rwa [Ledger.follow_of_collection hm]
  | dealer d =>
    have hdealer := hc.dealer hm
    simp only [Ledger.follow, hm]
    split
    · exact hdealer
    · exact hc

end Contract.Literal

namespace Ledger

variable {l l' : Ledger}

/-- What a sale adds has the data of the dealer. -/
theorem Sale.literal_sold {address : String} {funds : List Coin} (sale : Sale l address funds)
    (h : l.Each Contract.Literal) (buyer : String) :
    ∀ e ∈ (sale.sold buyer).entries, e.Literal := by
  have hentries : (sale.sold buyer).entries =
      sale.collection.entries ++ [(sale.token buyer).entry] :=
    congrArg Stock.entries (sale.stock_sold buyer)
  obtain ⟨hpublic, hprivate⟩ := (h _ _ sale.found).dealer sale.isDealer
  rw [hentries, List.forall_mem_append, List.forall_mem_singleton]
  exact ⟨(h _ _ sale.childFound).entries sale.isCollection, hpublic, hprivate⟩

/-- A token that is given away keeps its data. -/
theorem Transfer.literal_given {sender address tokenId : String}
    (t : Transfer l sender address tokenId) (h : l.Each Contract.Literal) (recipient : String) :
    ∀ e ∈ (t.given recipient).entries, e.Literal := by
  have hold := (h _ _ t.found).entries t.isCollection
  obtain ⟨i, hi, -, hgiven⟩ := t.stock_given recipient
  have htoken := hold _ (List.mem_of_getElem? hi)
  have hentries : (t.given recipient).entries =
      t.collection.entries.set i { t.token.entry with owner := recipient } :=
    congrArg Stock.entries hgiven
  intro e he
  rw [hentries] at he
  rcases List.mem_or_eq_of_mem_set he with he | rfl
  · exact hold e he
  · exact ⟨htoken.publicMetadata, htoken.privateMetadata⟩

/-- What is imported has the data it had. -/
theorem Import.literal_filled {sender address : String} (i : Import l sender address)
    (h : l.Each Contract.Literal) (stop : UInt32) :
    ∀ e ∈ (i.filled stop).entries, e.Literal := by
  have hsource := (h _ _ i.sourceFound).entries i.sourceIsCollection
  rw [i.entries_filled, List.forall_mem_append]
  refine ⟨(h _ _ i.found).entries i.isCollection, fun e he => ?_⟩
  obtain ⟨t, ht, rfl⟩ := List.mem_map.1 he
  exact hsource _ (List.mem_map_of_mem (List.mem_of_mem_take (List.mem_of_mem_drop ht)))

/-- Every message leaves data that is read as itself. -/
theorem literal_step {rules : ChainRules} {m : Msg} (h : l.Each Contract.Literal)
    (hs : Step rules l m l') : l'.Each Contract.Literal := by
  have hnext : l.afterAddress.Each Contract.Literal := h
  cases hs with
  | storeCode _ _ _ _ => exact h
  | send _ => exact h
  | newCollection init _ _ _ => exact hnext.put (.of_empty rfl rfl)
  | newDealer init _ msg read _ =>
    have hchild : l.afterAddress.afterAddress.Each Contract.Literal := h
    have hinit := DealerInit.literal_of_ofJson? read (InstantiateMsg.isFree_of_fresh msg)
    exact (hchild.put (.of_empty rfl rfl)).put hinit
  | moveDealer _ _ d =>
    have hdealer := hnext _ _ d.found
    have hchild := (hnext _ _ d.childFound).entries d.isCollection
    refine ((hnext.put ?_).put ?_).put ?_
    · exact .of_collection rfl hchild
    · exact hdealer.congr rfl
    · exact hdealer.dealer d.isDealer
  | moveCollection _ _ d =>
    refine (hnext.put ?_).put ?_
    · exact (hnext _ _ d.found).congr rfl
    · exact .of_empty rfl rfl
  | sell sale _ _ => exact h.put (.of_collection rfl (sale.literal_sold h _))
  | transfer t _ _ => exact h.put (.of_collection rfl (t.literal_given h _))
  | importPage i _ _ _ => exact h.put (.of_collection rfl (i.literal_filled h _))
  | finishImport i _ _ _ source hs =>
    have hopened : (i.opened i.total).Each Contract.Literal :=
      h.put (.of_collection rfl (i.literal_filled h _))
    have hretired : Contract.Literal { source with mode := .migratedOut } :=
      (hopened _ _ hs).congr rfl
    exact (hopened.put hretired).foldl_repoint (fun _ hc => hc.follow _ _) _

/-- On a reached ledger the data of all tokens is read as itself. -/
theorem Reached.literal (h : l.Reached) : l.Each Contract.Literal := by
  induction h with
  | empty => exact each_empty
  | block _ ih => exact ih
  | step _ hs ih => exact literal_step ih hs

end Ledger

end Handover
