import Handover.Proofs.Migration.Interleaving

/-!
# The range of a call of an import

A call of an import copies the tokens from the cursor, which an earlier call has left, to where its
pages end. It counts in words, and the number of tokens is cut to a word as well. Still no call on
a ledger that can be reached leaves the tokens that there are (`Import.inRange`), however many
these are and whatever pages are asked for : the cursor has not passed the number of tokens when it
was set (`Reached.cursors`), which does not change before the import is complete, and a sum or
product that stops at the largest word is over the end anyway, so the call stops where numbers
without bounds have it stop (`exactStop`).

So a call for the admin goes through. If it asks for any pages, it completes the import or moves
the cursor forward (`Import.exists_proceeds`).
-/

namespace Handover

namespace Ledger

/-! ## Where a call stops -/

/-- Where a call stops, in numbers without bounds : after some pages of at least one token each, or
at the end. -/
def exactStop (start total : Nat) (pages : Option UInt32) (pageSize : UInt32) : Nat :=
  match pages with
  | none => total
  | some pages => min total (start + pages.toNat * max pageSize.toNat 1)

/-- Words are wide enough for where an import stops. -/
theorem toNat_importEnd_eq_exactStop (start total : UInt32) (pages : Option UInt32)
    (pageSize : UInt32) : (importEnd start total pages pageSize).toNat =
      exactStop start.toNat total.toNat pages pageSize := by
  cases pages with
  | none => rfl
  | some pages => rw [toNat_importEnd, exactStop, Nat.min_comm]

/-- With pages to import, a call comes to the end or past where it started. -/
theorem importEnd_eq_or_lt (start total : UInt32) {pages : Option UInt32}
    (nonzero : pages ≠ some 0) (pageSize : UInt32) :
    importEnd start total pages pageSize = total ∨
      start < importEnd start total pages pageSize := by
  cases pages with
  | none => exact Or.inl rfl
  | some pages =>
    have hpages : 0 < pages.toNat :=
      Nat.pos_of_ne_zero fun hzero => nonzero (congrArg some (UInt32.toNat_inj.1 hzero))
    have htokens : 0 < pages.toNat * max pageSize.toNat 1 := Nat.mul_pos hpages (by omega)
    rw [← UInt32.toNat_inj, UInt32.lt_iff_toNat_lt, toNat_importEnd]
    omega

namespace Import

variable {l : Ledger} {sender a : String}

/-! ## One call -/

/-- A call copies what there is from the cursor to where it stops, and nothing that it counts
leaves its word. -/
structure InRange (i : Import l sender a) (pages : Option UInt32) (pageSize : UInt32) : Prop where
  /-- The number of tokens is cut to a word. -/
  toNat_total : i.total.toNat = i.sourceCollection.tokens.length % UInt32.size
  toNat_stop : (i.stop pages pageSize).toNat =
    exactStop i.collection.importCursor.toNat i.total.toNat pages pageSize
  cursor_le : i.collection.importCursor.toNat ≤ (i.stop pages pageSize).toNat
  stop_le : (i.stop pages pageSize).toNat ≤ i.sourceCollection.tokens.length
  /-- As many tokens are copied as the difference of the words says. -/
  length_slice : (i.slice (i.stop pages pageSize)).length =
    (i.stop pages pageSize - i.collection.importCursor).toNat
  gas_lt : (i.outcome (i.stop pages pageSize)).gasUsed < UInt64.size

/-- A call has either completed the import, or it has only filled the destination up to where it
stopped, and then further than before if there were pages to import. -/
inductive Proceeds (i : Import l sender a) (pages : Option UInt32) (pageSize : UInt32)
    (l' : Ledger) : Prop
  | completes (k e : Contract) (t : Collection) (last : i.stop pages pageSize = i.total)
      (destination : l'.contract? a = some k) (isCollection : k.model = .collection t)
      (running : k.mode = .running) (cursor : t.importCursor = i.total)
      (source : l'.contract? i.origin.address = some e) (retired : e.mode = .migratedOut)
  | fills (k : Contract) (t : Collection) (more : i.stop pages pageSize ≠ i.total)
      (destination : l'.contract? a = some k) (isCollection : k.model = .collection t)
      (importing : k.mode = .migrateDataIn)
      (cursor : t.importCursor = i.stop pages pageSize)
      (forward : pages ≠ some 0 → i.collection.importCursor < t.importCursor)

variable (i : Import l sender a) (hl : l.Reached) (pages : Option UInt32)

include hl

/-- The cursor is never past the total. -/
theorem cursor_le_total : i.collection.importCursor.toNat ≤ i.total.toNat := by
  obtain ⟨hle, -⟩ := hl.cursors _ _ _ _ _ i.found i.importing i.comesFrom
    (stock?_of_collection i.found i.isCollection)
    (stock?_of_collection i.sourceFound i.sourceIsCollection)
  rw [i.toNat_total_eq_mod]
  exact hle

/-- No call leaves the tokens that there are. -/
theorem inRange (pageSize : UInt32) : i.InRange pages pageSize := by
  obtain ⟨hcursor, hstop⟩ := importEnd_bounds (i.cursor_le_total hl) pages pageSize
  change i.collection.importCursor.toNat ≤ (i.stop pages pageSize).toNat at hcursor
  change (i.stop pages pageSize).toNat ≤ i.total.toNat at hstop
  have htotal : i.total.toNat = i.sourceCollection.tokens.length % UInt32.size := by
    rw [i.toNat_total_eq_mod, Collection.length_entries]
  have hle : (i.stop pages pageSize).toNat ≤ i.sourceCollection.tokens.length :=
    Nat.le_trans hstop (htotal ▸ Nat.mod_le _ _)
  refine ⟨htotal, toNat_importEnd_eq_exactStop _ _ _ _, hcursor, hle, ?_, ?_⟩
  · rw [slice, List.length_drop, List.length_take, Nat.min_eq_left hle,
      UInt32.toNat_sub_of_le _ _ (UInt32.le_iff_toNat_le.2 hcursor)]
  · have hword := (i.stop pages pageSize).toNat_lt
    simp only [outcome, executeGas, UInt64.size]
    omega

/-- A call goes through, and it completes the import or moves the cursor forward. -/
theorem exists_proceeds (pageSize : UInt32) : ∃ o l',
    l.importTokens sender a pages pageSize = .ok (o, l') ∧ i.Proceeds pages pageSize l' := by
  by_cases last : i.stop pages pageSize = i.total
  · have apart := i.origin_ne hl.wellLinked
    exact ⟨_, _, i.importTokens_of_last apart last, .completes _ _ (i.filled i.total) last
      (i.contract?_finished_destination apart _) rfl rfl rfl (i.contract?_finished_source _) rfl⟩
  · have hput := contract?_put_self (l := l) (i.address_destination (i.stop pages pageSize))
    refine ⟨_, _, i.importTokens_of_ne last, .fills _ (i.filled (i.stop pages pageSize)) last hput
      rfl i.importing rfl fun nonzero => ?_⟩
    exact (importEnd_eq_or_lt _ _ nonzero pageSize).resolve_left last

end Import

end Ledger

namespace Chain

/-- On a reachable chain, and after the first messages of any transaction, a message that asks a
collection in the mode of imports to import, and is sent by its admin, finds a collection to import
from. Whatever pages it asks for, the call stays in range and goes through. It completes the import
or, if it asks for any pages, moves the cursor forward. -/
theorem Reachable.import_stays_in_range {c : Chain} (h : c.Reachable) {before : List Msg}
    {outcomes : List Outcome} {l : Ledger} (ran : c.ledger.run c.rules before = .ok (outcomes, l))
    {a : String} {k : Contract} {s : Collection} (found : l.contract? a = some k)
    (isCollection : k.model = .collection s) (importing : k.mode = .migrateDataIn) {msg : Json}
    {pages pageSize : Option UInt32}
    (read : ofObject? msg = some (CollectionMsg.migrateTokensIn pages pageSize))
    (funds : List Coin) :
    ∃ i : Ledger.Import l s.admin a, i.contract = k ∧ i.collection = s ∧
      i.InRange pages (pageSize.getD c.rules.pageSize) ∧
      ∃ o l', Ledger.apply c.rules l (.execute s.admin a k.codeHash msg funds) = .ok (o, l') ∧
        i.Proceeds pages (pageSize.getD c.rules.pageSize) l' := by
  have hl : l.Reached := (Ledger.ran_of_run ran).reached h.reached.block
  obtain ⟨t, origin, e, u, ht, horigin, he, hu, -, -⟩ :=
    Ledger.exists_source_of_importing hl.wellLinked found importing
  obtain rfl := Model.collection.inj (isCollection.symm.trans ht)
  let i : Ledger.Import l s.admin a :=
    ⟨k, s, origin, e, u, found, isCollection, importing, horigin, rfl, he, hu⟩
  obtain ⟨o, l', hran, hproceeds⟩ := i.exists_proceeds hl pages (pageSize.getD c.rules.pageSize)
  exact ⟨i, rfl, rfl, i.inRange hl pages _, o, l', (i.apply_eq c.rules funds read).trans hran,
    hproceeds⟩

/-- A call for the largest words of pages and tokens imports the three tokens that there are. -/
theorem moving_import_stays_in_range : ∃ o l' k,
    Ledger.apply moving.rules moving.ledger.nextBlock
      (importCall (some 4294967295) (some 4294967295)) = .ok (o, l') ∧
    l'.contract? "secret1contract0003" = some k ∧ k.mode = .running := by
  have hrun : moving.ledger.run moving.rules [] = .ok ([], moving.ledger.nextBlock) := rfl
  have hfound : moving.ledger.nextBlock.contract? "secret1contract0003" = some freshContract := rfl
  obtain ⟨i, -, hcollection, -, o, l', happly, hproceeds⟩ :=
    reachable_moving.import_stays_in_range hrun hfound rfl rfl
      (ofObject?_toJson (CollectionMsg.migrateTokensIn (some 4294967295) (some 4294967295))) []
  obtain ⟨-, -, hsource⟩ := movingImport.inNextBlock.eq_of_same i
  cases hproceeds with
  | completes k _ _ _ destination _ running => exact ⟨o, l', k, happly, destination, running⟩
  | fills _ _ more =>
    refine absurd ?_ more
    rw [Ledger.Import.stop, Ledger.Import.total, hcollection, hsource]
    decide

end Chain

end Handover
