import Handover.Proofs.Ledger.Ownership

/-!
# Imports page by page

A call of an import that does not come to the end leaves an import of what is left (`next`). A
call that does completes it : the destination runs with the old tokens, the source is retired,
and of the other contracts only the subscribed dealers change (`Completed`). An import that is
completed after some calls is completed as one. How many calls it takes is `callsFor`.
-/

namespace Handover

/-! ## The number of calls -/

/-- How many calls of so many pages import a number of tokens. It takes one also if there are no
tokens, and without a number of pages one is enough. -/
def callsFor (pages : Option UInt32) (pageSize : UInt32) (remaining : Nat) : Nat :=
  match pages with
  | none => 1
  | some pages =>
    let tokens := pages.toNat * max pageSize.toNat 1
    max 1 ((remaining + tokens - 1) / tokens)

/-- Another call is needed while the calls before it have left something, and for nothing one. -/
theorem lt_callsFor {pages : UInt32} (pageSize : UInt32) {remaining calls : Nat}
    (hpos : 0 < pages.toNat * max pageSize.toNat 1) :
    calls < callsFor (some pages) pageSize remaining ↔
      calls = 0 ∨ calls * (pages.toNat * max pageSize.toNat 1) < remaining := by
  simp only [callsFor]
  generalize pages.toNat * max pageSize.toNat 1 = n at hpos
  have hdiv : calls < (remaining + n - 1) / n ↔ calls * n + n ≤ remaining + n - 1 := by
    rw [← Nat.succ_mul]
    exact Nat.le_div_iff_mul_le hpos
  omega

/-! ## Filled collections -/

/-- The second collection is the first with other tokens, history and cursor. -/
structure Collection.Refilled (s t : Collection) : Prop where
  name : t.name = s.name
  symbol : t.symbol = s.symbol
  admin : t.admin = s.admin
  creator : t.creator = s.creator
  minters : t.minters = s.minters
  notify : t.notify = s.notify

theorem Collection.Refilled.trans {s t u : Collection} (hst : Refilled s t) (htu : Refilled t u) :
    Refilled s u :=
  ⟨htu.name.trans hst.name, htu.symbol.trans hst.symbol, htu.admin.trans hst.admin,
    htu.creator.trans hst.creator, htu.minters.trans hst.minters, htu.notify.trans hst.notify⟩

/-- The first collection holds the first tokens of the second one, as far as it has come. -/
structure Collection.PartOf (s t : Collection) : Prop where
  cursor_le : s.importCursor.toNat ≤ t.tokens.length
  entries : s.entries = t.entries.take s.importCursor.toNat

/-- A part of a collection has as many tokens as its cursor says. -/
theorem Collection.PartOf.length_tokens {s t : Collection} (h : s.PartOf t) :
    s.tokens.length = s.importCursor.toNat := by
  rw [← s.length_entries, h.entries, List.length_take, t.length_entries]
  exact Nat.min_eq_left h.cursor_le

namespace Ledger

theorem refilled_foldl_importToken (height time : Nat) (address : String) (ts : List Token)
    (s : Collection) : s.Refilled (ts.foldl (importToken height time address) s) := by
  induction ts generalizing s with
  | nil => exact ⟨rfl, rfl, rfl, rfl, rfl, rfl⟩
  | cons t ts ih =>
    have hfirst : s.Refilled (importToken height time address s t) := ⟨rfl, rfl, rfl, rfl, rfl, rfl⟩
    exact hfirst.trans (ih _)

namespace Import

variable {l : Ledger} {sender address : String} (i : Import l sender address)

/-- An import changes tokens, history and cursor only. -/
theorem refilled_filled (stop : UInt32) : i.collection.Refilled (i.filled stop) :=
  (refilled_foldl_importToken l.height l.blockTime i.contract.address (i.slice stop) _).trans
    ⟨rfl, rfl, rfl, rfl, rfl, rfl⟩

/-- An import does not depend on the block. -/
def inNextBlock : Import l.nextBlock sender address :=
  { i with }

/-! ## One call -/

/-- The cursor has not passed the end, and the end is a word. -/
structure Sound : Prop where
  cursor_le : i.collection.importCursor.toNat ≤ i.sourceCollection.tokens.length
  small : i.sourceCollection.tokens.length < UInt32.size
  apart : i.origin.address ≠ address

/-- How many tokens are still to be imported. -/
def remaining : Nat :=
  i.sourceCollection.tokens.length - i.collection.importCursor.toNat

/-- The entries that are still to be imported. -/
def entriesLeft : List Entry :=
  (i.sourceCollection.tokens.drop i.collection.importCursor.toNat).map Token.entry

variable {i}

theorem Sound.toNat_total (h : i.Sound) : i.total.toNat = i.sourceCollection.tokens.length :=
  UInt32.toNat_ofNat_of_lt' h.small

/-- No call goes back. -/
theorem Sound.cursor_le_stop (h : i.Sound) (pages : Option UInt32) (pageSize : UInt32) :
    i.collection.importCursor.toNat ≤ (i.stop pages pageSize).toNat :=
  (importEnd_bounds (h.toNat_total ▸ h.cursor_le) pages pageSize).1

/-- No call goes past the end. -/
theorem Sound.stop_le (h : i.Sound) (pages : Option UInt32) (pageSize : UInt32) :
    (i.stop pages pageSize).toNat ≤ i.sourceCollection.tokens.length :=
  h.toNat_total ▸ (importEnd_bounds (h.toNat_total ▸ h.cursor_le) pages pageSize).2

/-- A call of no more pages than are left stops after them. -/
theorem Sound.stop_of_lt (h : i.Sound) {pages pageSize : UInt32}
    (hlt : pages.toNat * max pageSize.toNat 1 < i.remaining) :
    (i.stop (some pages) pageSize).toNat =
      i.collection.importCursor.toNat + pages.toNat * max pageSize.toNat 1 ∧
    i.stop (some pages) pageSize ≠ i.total := by
  have hstop := toNat_importEnd i.collection.importCursor i.total pages pageSize
  have htotal := h.toNat_total
  change (i.stop (some pages) pageSize).toNat = _ at hstop
  rw [remaining] at hlt
  refine ⟨by omega, fun he => ?_⟩
  rw [he] at hstop
  omega

/-- A call of at least the pages that are left comes to the end. -/
theorem Sound.stop_of_le (h : i.Sound) {pages pageSize : UInt32}
    (hle : i.remaining ≤ pages.toNat * max pageSize.toNat 1) :
    i.stop (some pages) pageSize = i.total := by
  have hstop := toNat_importEnd i.collection.importCursor i.total pages pageSize
  have htotal := h.toNat_total
  change (i.stop (some pages) pageSize).toNat = _ at hstop
  rw [remaining] at hle
  refine UInt32.toNat_inj.1 ?_
  omega

/-! ## Going on -/

/-- The import of what a call has left. -/
def next (i : Import l sender address) (h : i.Sound) (stop : UInt32) :
    Import (l.put (i.destination stop)) sender address where
  contract := i.destination stop
  collection := i.filled stop
  origin := i.origin
  source := i.source
  sourceCollection := i.sourceCollection
  found := contract?_put_self (i.address_destination stop)
  isCollection := rfl
  importing := i.importing
  comesFrom := i.comesFrom
  isAdmin := i.isAdmin.trans (i.refilled_filled stop).admin.symm
  sourceFound := by
    rw [contract?_put, i.address_destination, Function.update_of_ne h.apart, i.sourceFound]
  sourceIsCollection := i.sourceIsCollection

/-- After a sound call the import is sound. -/
theorem Sound.next {i : Import l sender address} (h : i.Sound) (pages : Option UInt32)
    (pageSize : UInt32) : (i.next h (i.stop pages pageSize)).Sound :=
  ⟨h.stop_le pages pageSize, h.small, h.apart⟩

/-- What a call imports and what it leaves is what was left before. -/
theorem Sound.map_slice_append {i : Import l sender address} (h : i.Sound)
    (pages : Option UInt32) (pageSize : UInt32) :
    (i.slice (i.stop pages pageSize)).map Token.entry ++
      (i.next h (i.stop pages pageSize)).entriesLeft = i.entriesLeft := by
  have hle := h.cursor_le_stop pages pageSize
  have hdrop : i.sourceCollection.tokens.drop (i.stop pages pageSize).toNat =
      (i.sourceCollection.tokens.drop i.collection.importCursor.toNat).drop
        ((i.stop pages pageSize).toNat - i.collection.importCursor.toNat) := by
    rw [List.drop_drop, Nat.add_sub_cancel' hle]
  change (i.slice _).map Token.entry ++
    (i.sourceCollection.tokens.drop (i.stop pages pageSize).toNat).map Token.entry = _
  rw [← List.map_append, hdrop, slice, List.drop_take, List.take_append_drop]
  rfl

/-! ## Completion -/

/-- An import that was completed : the destination runs with all entries, the source is retired,
and of the other contracts only the subscribed dealers follow. -/
structure Completed (i : Import l sender address) (l' : Ledger) (t : Collection) : Prop where
  refilled : i.collection.Refilled t
  entries : t.entries = i.collection.entries ++ i.entriesLeft
  destination : l'.contract? address =
    some { i.contract with mode := .running, model := .collection t }
  source : l'.contract? i.origin.address = some { i.source with mode := .migratedOut }
  others : ∀ a, a ≠ address → a ≠ i.origin.address → l'.contract? a =
    if a ∈ i.collection.notify then
      (l.contract? a).map (follow i.origin.address i.contract.info)
    else l.contract? a

/-- What completes the import after a call completes the import. -/
theorem Completed.of_next {i : Import l sender address} (h : i.Sound) {pages : Option UInt32}
    {pageSize : UInt32} {l' : Ledger} {t : Collection}
    (hc : (i.next h (i.stop pages pageSize)).Completed l' t) : i.Completed l' t where
  refilled := (i.refilled_filled _).trans hc.refilled
  entries := by
    rw [hc.entries]
    change (i.filled _).entries ++ _ = _
    rw [i.entries_filled, List.append_assoc, h.map_slice_append]
  destination := hc.destination
  source := hc.source
  others a ha ho := by
    have hput : (l.put (i.destination (i.stop pages pageSize))).contract? a = l.contract? a := by
      rw [contract?_put, i.address_destination, Function.update_of_ne ha]
    have hnotify := (i.refilled_filled (i.stop pages pageSize)).notify
    have hothers := hc.others a ha ho
    change _ = if a ∈ (i.filled _).notify then _ else _ at hothers
    rw [hnotify, hput] at hothers
    exact hothers

theorem Completed.of_inNextBlock {i : Import l sender address} {l' : Ledger} {t : Collection}
    (h : i.inNextBlock.Completed l' t) : i.Completed l' t :=
  ⟨h.refilled, h.entries, h.destination, h.source, h.others⟩

/-- A call up to the total imports all that is left. -/
theorem slice_total {i : Import l sender address} (h : i.Sound) :
    (i.slice i.total).map Token.entry = i.entriesLeft := by
  rw [slice, h.toNat_total, List.take_length]
  rfl

/-- At the end the destination runs with what was imported. -/
theorem contract?_finished_destination (i : Import l sender address)
    (apart : i.origin.address ≠ address) (stop : UInt32) :
    (i.finished stop i.source).contract? address =
      some { i.destination stop with mode := .running } := by
  have hsa : i.source.address = i.origin.address := address_of_contract? i.sourceFound
  have hput : ((i.opened stop).put { i.source with mode := .migratedOut }).contract? address =
      some { i.destination stop with mode := .running } := by
    rw [contract?_put_of_ne (by exact fun h => apart (hsa.symm.trans h.symm)), i.contract?_opened,
      Function.update_self]
  exact contract?_foldl_repoint_of_collection hput (s := i.filled stop) rfl _

/-- At the end the source is retired. -/
theorem contract?_finished_source (i : Import l sender address) (stop : UInt32) :
    (i.finished stop i.source).contract? i.origin.address =
      some { i.source with mode := .migratedOut } := by
  have hsa : i.source.address = i.origin.address := address_of_contract? i.sourceFound
  have hput : ((i.opened stop).put { i.source with mode := .migratedOut }).contract?
      i.origin.address = some { i.source with mode := .migratedOut } := contract?_put_self hsa
  exact contract?_foldl_repoint_of_collection hput i.sourceIsCollection _

/-- The call that comes to the end completes the import. -/
theorem completed_finished {i : Import l sender address} (h : i.Sound) :
    i.Completed (i.finished i.total i.source) (i.filled i.total) := by
  have hsa : i.source.address = i.origin.address := address_of_contract? i.sourceFound
  refine ⟨i.refilled_filled _, ?_, i.contract?_finished_destination h.apart _,
    i.contract?_finished_source _, fun a ha ho => ?_⟩
  · rw [i.entries_filled, slice_total h]
  · rw [finished, contract?_foldl_repoint,
      contract?_put_of_ne (by exact fun h => ho (h.trans hsa)), i.contract?_opened,
      Function.update_of_ne ha]
    rfl

/-! ## The message -/

/-- The message of an import runs the import. -/
theorem apply_eq (i : Import l sender address) (rules : ChainRules) {msg : Json}
    {pages pageSize : Option UInt32} (funds : List Coin)
    (read : ofObject? msg = some (CollectionMsg.migrateTokensIn pages pageSize)) :
    apply rules l (.execute sender address i.contract.codeHash msg funds) =
      l.importTokens sender address pages (pageSize.getD rules.pageSize) := by
  have hc : l.contract address = .ok i.contract := contract_eq_ok.2 i.found
  have hp : parseMessage (α := CollectionMsg) ofObject? "ExecuteMsg" msg =
      .ok (.migrateTokensIn pages pageSize) := parseMessage_eq_ok.2 read
  simp [apply, execute, hc, i.isCollection, hp, bind, Except.bind]

/-- A call that does not come to the end goes through and fills the destination. -/
theorem importTokens_of_ne (i : Import l sender address) {pages : Option UInt32}
    {pageSize : UInt32} (more : i.stop pages pageSize ≠ i.total) :
    l.importTokens sender address pages pageSize = .ok (i.outcome (i.stop pages pageSize),
      l.put (i.destination (i.stop pages pageSize))) :=
  importTokens_eq_ok.2 ⟨i, rfl, Or.inl ⟨more, rfl⟩⟩

/-- A call that comes to the end goes through and finishes the import. -/
theorem importTokens_of_last (i : Import l sender address) (apart : i.origin.address ≠ address)
    {pages : Option UInt32} {pageSize : UInt32} (last : i.stop pages pageSize = i.total) :
    l.importTokens sender address pages pageSize =
      .ok (i.outcome i.total, i.finished i.total i.source) :=
  importTokens_eq_ok.2 ⟨i, by rw [last], Or.inr ⟨last, i.source,
    i.contract?_opened_source apart _, by rw [last]⟩⟩

/-- A call that comes to the end goes through, and ends the import. -/
theorem importTokens_of_eq {i : Import l sender address} (h : i.Sound) {pages : Option UInt32}
    {pageSize : UInt32} (last : i.stop pages pageSize = i.total) :
    l.importTokens sender address pages pageSize =
      .ok (i.outcome i.total, i.finished i.total i.source) :=
  i.importTokens_of_last h.apart last

end Import

/-! ## Imports on reached ledgers -/

/-- What is in the mode of imports can import for its admin. -/
theorem exists_import {l : Ledger} (h : l.registry.WellLinked) {a : String} {k : Contract}
    (hk : l.contract? a = some k) (hm : k.mode = .migrateDataIn) :
    ∃ admin, ∃ i : Import l admin a, i.contract = k := by
  obtain ⟨s, o, e, t, hs, ho, he, ht, -, -⟩ := exists_source_of_importing h hk hm
  exact ⟨s.admin, ⟨k, s, o, e, t, hk, hs, hm, ho, rfl, he, ht⟩, rfl⟩

namespace Import

variable {l : Ledger} {sender address : String} (i : Import l sender address)

theorem admin_contract : i.contract.admin = sender := by
  have hadmin : i.contract.admin = i.collection.admin := by simp [Contract.admin, i.isCollection]
  exact hadmin.trans i.isAdmin.symm

/-- Who imports what from where does not depend on who asks. -/
theorem eq_of_same {sender' : String} (j : Import l sender' address) :
    j.contract = i.contract ∧ j.collection = i.collection ∧
      j.sourceCollection = i.sourceCollection := by
  have hc : j.contract = i.contract := Option.some.inj (j.found.symm.trans i.found)
  have ho : j.origin = i.origin :=
    Option.some.inj (j.comesFrom.symm.trans ((congrArg _ hc).trans i.comesFrom))
  have hs : j.source = i.source :=
    Option.some.inj (j.sourceFound.symm.trans ((congrArg (l.contract? ·.address) ho).trans
      i.sourceFound))
  exact ⟨hc, Model.collection.inj (j.isCollection.symm.trans
    ((congrArg _ hc).trans i.isCollection)), Model.collection.inj (j.sourceIsCollection.symm.trans
      ((congrArg _ hs).trans i.sourceIsCollection))⟩

variable (hl : l.Reached) (small : i.sourceCollection.tokens.length < UInt32.size)

include hl small

/-- On a reached ledger a collection that imports is a part of its source. -/
theorem partOf : i.collection.PartOf i.sourceCollection := by
  obtain ⟨hle, htake⟩ := hl.cursors _ _ _ _ _ i.found i.importing i.comesFrom
    (stock?_of_collection i.found i.isCollection)
    (stock?_of_collection i.sourceFound i.sourceIsCollection)
  simp only [Collection.stock, Collection.length_entries, Nat.mod_eq_of_lt small] at hle htake
  exact ⟨hle, htake⟩

/-- On a reached ledger every import is sound. -/
theorem sound : i.Sound :=
  ⟨(i.partOf hl small).cursor_le, small, i.origin_ne hl.wellLinked⟩

/-- An import that comes to the end holds everything. -/
theorem entries_filled_total : (i.filled i.total).entries = i.sourceCollection.entries := by
  obtain ⟨-, htake⟩ := i.entries_eq_take hl.cursors none 0
  change i.collection.entries ++ (i.slice i.total).map Token.entry =
    i.sourceCollection.entries.take i.total.toNat at htake
  rw [i.entries_filled, htake, i.toNat_total small, List.take_length]

end Import

end Ledger

end Handover
