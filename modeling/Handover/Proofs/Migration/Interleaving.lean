import Handover.Proofs.Migration.Authorization

/-!
# Imports in between other transactions

An import may be cut into any calls, by any number of clients, with anything else in between. At
every point the new collection holds the first tokens of the old one, up to its cursor, and the
old one stays as it is (`LeadsTo.stock?_source`). So the call that comes to the end leaves the
same tokens as one call without a limit would have.
-/

namespace Handover

namespace Ledger

/-- Blocks and messages lead from the one ledger to the other. -/
inductive LeadsTo (l : Ledger) : Ledger → Prop
  | refl : LeadsTo l l
  | block {l' : Ledger} (h : LeadsTo l l') : LeadsTo l l'.nextBlock
  | step {rules : ChainRules} {l' l'' : Ledger} {m : Msg} (h : LeadsTo l l')
      (hs : Step rules l' m l'') : LeadsTo l l''

namespace LeadsTo

variable {l l' : Ledger}

/-- A run leads on. -/
theorem run (h : l.LeadsTo l') {rules : ChainRules} {l'' : Ledger} {msgs : List Msg}
    (hran : Ran (Step rules) l' msgs l'') : l.LeadsTo l'' := by
  induction hran with
  | nil => exact h
  | cons first _ ih => exact ih (h.step first)

/-- From a reached ledger one is led to reached ledgers. -/
theorem reached (h : l.LeadsTo l') (hl : l.Reached) : l'.Reached := by
  induction h with
  | refl => exact hl
  | block _ ih => exact ih.block
  | step _ hs ih => exact ih.step hs

/-- Contracts stay, and go forward in their lives. -/
theorem advances (h : l.LeadsTo l') (hl : l.Reached) {a : String} {k : Contract}
    (hk : l.contract? a = some k) : ∃ k', l'.contract? a = some k' ∧ Advances k k' := by
  induction h with
  | refl => exact ⟨k, hk, .refl k⟩
  | block _ ih => exact ih
  | step h hs ih =>
    obtain ⟨k₁, hk₁, hadv₁⟩ := ih
    obtain ⟨k', hk', hadv⟩ := (h.reached hl).advances (.cons hs .nil) a k₁ hk₁
    exact ⟨k', hk', hadv₁.trans hadv⟩

/-- As long as a collection imports, what it imports from stays as it is. -/
theorem stock?_source (h : l.LeadsTo l') (hl : l.Reached) {a : String} {k k' : Contract}
    {b : ContractInfo} (hk : l.contract? a = some k) (hk' : l'.contract? a = some k')
    (hm' : k'.mode = .migrateDataIn) (hf' : k'.migratedFrom = some b) :
    l'.stock? b.address = l.stock? b.address := by
  induction h generalizing k' with
  | refl => rfl
  | block _ ih => exact ih hk' hm' hf'
  | step h hs ih =>
    -- The collection imported already before the step, from the same collection.
    obtain ⟨k₁, hk₁, -⟩ := h.advances hl hk
    obtain ⟨hm₁, hf₁, -⟩ := (h.reached hl).importing_before hs hk₁ hk' hm' hf'
    exact ((h.reached hl).stock?_source hs hk₁ hk' hm' hf').trans (ih hk₁ hm₁ hf₁)

end LeadsTo

/-- While the collection at `a` imports the entries, it holds the first of them up to its cursor,
and the message that makes it stop to import leaves it running with all of them. -/
structure ImportsAll (rules : ChainRules) (l : Ledger) (a : String) (entries : List Entry) :
    Prop where
  stays : ∃ k, l.contract? a = some k
  holds : ∀ k, l.contract? a = some k → k.mode = .migrateDataIn →
    ∃ admin, ∃ i : Import l admin a, i.contract = k ∧ i.sourceCollection.entries = entries ∧
      i.collection.PartOf i.sourceCollection
  ends : ∀ k m o l' k', l.contract? a = some k → k.mode = .migrateDataIn →
    apply rules l m = .ok (o, l') → l'.contract? a = some k' → k'.mode ≠ .migrateDataIn →
      k'.mode = .running ∧ ∃ u, k'.model = .collection u ∧ u.entries = entries

namespace Import

variable {l l' : Ledger} {sender a : String} (i : Import l sender a)

/-- If the collection still imports later on, then it imports the same tokens for the same admin. -/
theorem exists_later (hl : l.Reached) (hlead : l.LeadsTo l') {k' : Contract}
    (hk' : l'.contract? a = some k') (hm' : k'.mode = .migrateDataIn) :
    ∃ i' : Import l' sender a, i'.contract = k' ∧
      i'.sourceCollection.entries = i.sourceCollection.entries := by
  obtain ⟨admin, i', hi'⟩ := exists_import (hlead.reached hl).wellLinked hk' hm'
  obtain ⟨k₁, hk₁, hadv⟩ := hlead.advances hl i.found
  obtain rfl := Option.some.inj (hk₁.symm.trans hk')
  obtain rfl : admin = sender :=
    i'.admin_contract.symm.trans (hi' ▸ hadv.admin.trans i.admin_contract)
  have horigin : i'.origin = i.origin := by
    have hfrom := i'.comesFrom
    rw [hi', hadv.migratedFrom, i.comesFrom] at hfrom
    exact (Option.some.inj hfrom).symm
  have hstock := hlead.stock?_source hl i.found hk' hm' (hadv.migratedFrom.trans i.comesFrom)
  rw [stock?_of_collection i.sourceFound i.sourceIsCollection, ← horigin,
    stock?_of_collection i'.sourceFound i'.sourceIsCollection] at hstock
  exact ⟨i', hi', congrArg Stock.entries (Option.some.inj hstock)⟩

/-- The message that makes it stop to import leaves it running with everything. -/
theorem finishes (hl : l.Reached) (small : i.sourceCollection.tokens.length < UInt32.size)
    {rules : ChainRules} {m : Msg} (hs : Step rules l m l') {k' : Contract}
    (hk' : l'.contract? a = some k') (hm' : k'.mode ≠ .migrateDataIn) :
    k'.mode = .running ∧
      ∃ u, k'.model = .collection u ∧ u.entries = i.sourceCollection.entries := by
  obtain ⟨k₁, hk₁, hfate⟩ := Ledger.exists_fate hl.wellLinked hs i.found
  obtain rfl := Option.some.inj (hk₁.symm.trans hk')
  have hmode : k₁.mode ≠ i.contract.mode := i.importing ▸ hm'
  rcases hfate.importing hl.wellLinked i.importing i.isCollection with
    ⟨hsame, -⟩ | ⟨-, _, j, hsame | rfl⟩
  · exact absurd hsame hmode
  · exact absurd hsame hmode
  · obtain ⟨-, -, hsource⟩ := i.eq_of_same j
    have hentries := j.entries_filled_total hl (hsource ▸ small)
    exact ⟨rfl, _, rfl, hsource ▸ hentries⟩

/-- Whatever comes in between, an import imports everything. -/
theorem importsAll (hl : l.Reached) (small : i.sourceCollection.tokens.length < UInt32.size)
    (hlead : l.LeadsTo l') (rules : ChainRules) :
    l'.ImportsAll rules a i.sourceCollection.entries := by
  have hl' := hlead.reached hl
  have hsmall : ∀ i' : Import l' sender a,
      i'.sourceCollection.entries = i.sourceCollection.entries →
        i'.sourceCollection.tokens.length < UInt32.size := by
    intro i' hentries
    rwa [← Collection.length_entries, hentries, Collection.length_entries]
  refine ⟨?_, fun k hk hm => ?_, fun k m o l'' k' hk hm happly hk' hm' => ?_⟩
  · obtain ⟨k, hk, -⟩ := hlead.advances hl i.found
    exact ⟨k, hk⟩
  · obtain ⟨i', hi', hentries⟩ := i.exists_later hl hlead hk hm
    exact ⟨sender, i', hi', hentries, i'.partOf hl' (hsmall i' hentries)⟩
  · obtain ⟨i', -, hentries⟩ := i.exists_later hl hlead hk hm
    exact hentries ▸ i'.finishes hl' (hsmall i' hentries) (step_of_apply happly) hk' hm'

end Import

end Ledger

namespace Chain

/-- Moves of a chain lead its ledger on. -/
theorem leadsTo_foldl_after (moves : List ChainMove) {l : Ledger} :
    ∀ {c : Chain}, l.LeadsTo c.ledger → l.LeadsTo (moves.foldl after c).ledger := by
  induction moves with
  | nil => exact id
  | cons m moves ih =>
    intro c h
    refine ih ?_
    rcases c.ledger_after m with hsame | ⟨rules, msgs, hran⟩
    · exact hsame ▸ h
    · exact h.block.run hran

/-- After some moves, and after the first messages of a transaction, the chain is at a ledger. -/
def ComesTo (c : Chain) (rules : ChainRules) (l : Ledger) : Prop :=
  ∃ (moves : List ChainMove) (msgs : List Msg) (outcomes : List Outcome),
    (moves.foldl after c).rules = rules ∧
      (moves.foldl after c).ledger.run rules msgs = .ok (outcomes, l)

/-- What a chain comes to, also in the middle of a transaction, its ledger leads to. -/
theorem ComesTo.leadsTo {c : Chain} {rules : ChainRules} {l : Ledger} (h : c.ComesTo rules l) :
    c.ledger.LeadsTo l := by
  obtain ⟨moves, msgs, outcomes, rfl, hrun⟩ := h
  exact (leadsTo_foldl_after moves .refl).block.run (Ledger.ran_of_run hrun)

/-- On a reachable chain, a collection that imports holds the first tokens of what it imports
from, up to its cursor. Whatever else is done to the chain, in other transactions or before in the
same one, it still does as long as it imports, and what it imports from holds the same tokens. The
message that makes it stop to import leaves it running with all of them, and so does one call
without a limit of pages. -/
theorem Reachable.imports_exactly_once {c : Chain} (h : c.Reachable) {a : String} {k : Contract}
    (found : c.ledger.contract? a = some k) (importing : k.mode = .migrateDataIn) :
    ∃ admin, ∃ i : Ledger.Import c.ledger admin a, i.contract = k ∧
      (i.sourceCollection.tokens.length < UInt32.size →
        i.collection.PartOf i.sourceCollection ∧
        (∀ rules l, c.ComesTo rules l → l.ImportsAll rules a i.sourceCollection.entries) ∧
        ∀ msg pageSize funds,
          ofObject? msg = some (CollectionMsg.migrateTokensIn none pageSize) →
            ∃ o l k' u, Ledger.apply c.rules c.ledger.nextBlock
                (.execute admin a k.codeHash msg funds) = .ok (o, l) ∧
              l.contract? a = some k' ∧ k'.mode = .running ∧ k'.model = .collection u ∧
              u.entries = i.sourceCollection.entries) := by
  have hl := h.reached
  obtain ⟨admin, i, rfl⟩ := Ledger.exists_import hl.wellLinked found importing
  refine ⟨admin, i, rfl, fun small => ⟨i.partOf hl small, ?_, ?_⟩⟩
  · exact fun rules l hcomes => i.importsAll hl small hcomes.leadsTo rules
  · intro msg pageSize funds read
    have sound := i.inNextBlock.sound hl.block small
    have happly := (i.inNextBlock.apply_eq c.rules funds read).trans
      (Ledger.Import.importTokens_of_eq sound rfl)
    have hdone := Ledger.Import.completed_finished sound
    exact ⟨_, _, _, _, happly, hdone.destination, rfl, rfl,
      i.inNextBlock.entries_filled_total hl.block small⟩

/-- The import that is about to start in the chain that moves a collection. -/
def movingImport : Ledger.Import movingLedger "secret1admin" "secret1contract0003" where
  contract := freshContract
  collection := .fresh "PurchasableSnip721" "PUR721" "secret1admin" "secret1admin"
    ["secret1contract0001"] ["secret1contract0001"]
  origin := saleContract.info
  source := Ledger.leaving saleContract .migrateOutStarted freshContract.info
  sourceCollection := saleCollection
  found := rfl
  isCollection := rfl
  importing := rfl
  comesFrom := rfl
  isAdmin := rfl
  sourceFound := rfl
  sourceIsCollection := rfl

/-- A call to import into the new collection. -/
def importCall (pages pageSize : Option UInt32) : Msg :=
  .execute "secret1admin" "secret1contract0003" collectionHash
    (toJson (CollectionMsg.migrateTokensIn pages pageSize)) []

theorem apply_importCall {rules : ChainRules} {l : Ledger}
    (i : Ledger.Import l "secret1admin" "secret1contract0003")
    (hash : i.contract.codeHash = collectionHash) (pages pageSize : Option UInt32) :
    Ledger.apply rules l (importCall pages pageSize) =
      l.importTokens "secret1admin" "secret1contract0003" pages (pageSize.getD rules.pageSize) := by
  have hread := ofObject?_toJson (CollectionMsg.migrateTokensIn pages pageSize)
  rw [importCall, ← hash]
  exact i.apply_eq rules [] hread

/-- A page of two tokens and then far more pages than there are leave the new collection running
with the three tokens, as one call without a limit does. -/
theorem moving_imports_exactly_once : ∃ l o l' k u,
    moving.ledger.run moving.rules [importCall (some 1) none] = .ok ([o], l) ∧
    (∃ o', Ledger.apply moving.rules l (importCall (some 4294967295) (some 4294967295)) =
      .ok (o', l')) ∧ l'.contract? "secret1contract0003" = some k ∧ k.mode = .running ∧
    k.model = .collection u ∧ u.entries = saleCollection.entries := by
  have hfound : moving.ledger.contract? "secret1contract0003" = some freshContract := rfl
  obtain ⟨admin, i, -, hall⟩ := reachable_moving.imports_exactly_once hfound rfl
  obtain ⟨-, -, hsource⟩ := movingImport.eq_of_same i
  rw [hsource] at hall
  obtain ⟨-, hcomes, -⟩ := hall (by decide)
  -- The first call leaves one token, and the second one takes it.
  let first := movingImport.inNextBlock
  have hfirst : first.Sound := ⟨by decide, by decide, by decide⟩
  have happly : Ledger.apply moving.rules movingLedger.nextBlock (importCall (some 1) none) =
      .ok (first.outcome 2, movingLedger.nextBlock.put (first.destination 2)) := by
    rw [apply_importCall first rfl, rules_moving]
    exact first.importTokens_of_ne (by decide)
  have hrun := run_singleton_eq_ok.2 ⟨_, happly, rfl⟩
  let second := first.next hfirst 2
  have hsecond : second.Sound := hfirst.next (some 1) 2
  have happly' : Ledger.apply moving.rules (movingLedger.nextBlock.put (first.destination 2))
      (importCall (some 4294967295) (some 4294967295)) =
        .ok (second.outcome second.total, second.finished second.total second.source) := by
    have last : Ledger.importEnd 2 3 (some 4294967295) 4294967295 = 3 := by decide
    rw [apply_importCall second rfl]
    exact Ledger.Import.importTokens_of_eq hsecond last
  have hdone := (Ledger.Import.completed_finished hsecond).destination
  obtain ⟨hmode, u, hu, hentries⟩ := (hcomes moving.rules _ ⟨[], _, _, rfl, hrun⟩).ends _ _ _ _ _
    second.found rfl happly' hdone (fun hmode => by cases hmode)
  exact ⟨_, _, _, _, u, hrun, ⟨_, happly'⟩, hdone, hmode, hu, hentries⟩

end Chain

end Handover
