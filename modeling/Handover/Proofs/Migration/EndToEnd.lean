import Handover.Proofs.Ledger.Staffing
import Handover.Proofs.Migration.Comparison

/-!
# A migration from end to end

A verifier captures a running collection, the orchestrator migrates it, and the verifier
captures the new collection. On a reachable chain with nothing else in between, all of this
succeeds and the snapshots are equivalent, whatever the tokens, the pages and the number of calls
are. Afterwards the old collection is retired, the new one runs, and the running dealers of the
old one have followed (`Moved`).
-/

namespace Handover

open Procedure Orchestrator

namespace Ledger

/-- The collection of `source` has moved to `destination`, where everything that is asked of it
stands, and the running dealers of the one are dealers of the other. -/
structure Moved (l l' : Ledger) (source destination : ContractInfo) (s : Collection) : Prop where
  retired : ∃ k, l'.contract? source.address = some k ∧ k.info = source ∧
    k.mode = .migratedOut ∧ k.migratedTo = some destination ∧ k.model = .collection s
  running : ∃ k t, l'.contract? destination.address = some k ∧ k.info = destination ∧
    k.mode = .running ∧ k.migratedFrom = some source ∧ k.model = .collection t ∧
      t.minters = s.minters ∧ t.entries = s.entries
  dealers : ∀ a k d, l.contract? a = some k → k.mode = .running → k.model = .dealer d →
    d.child.address = source.address →
      l'.contract? a = some { k with model := .dealer { d with child := destination } }

/-- A running contract has not moved. -/
theorem migratedTo_of_running {l : Ledger} (h : l.registry.WellLinked) {a : String} {k : Contract}
    (hk : l.contract? a = some k) (running : k.mode = .running) : k.migratedTo = none := by
  simpa using h.migratedTo_eq_none (shell?_registry hk) (Or.inl (by simpa using running))

/-- A running dealer is subscribed to its collection. -/
theorem subscribed_of_running {l : Ledger} (h : l.registry.WellStaffed) {a : String}
    {k source : Contract} {d : Dealer} {s : Collection} (hk : l.contract? a = some k)
    (running : k.mode = .running) (isDealer : k.model = .dealer d)
    (found : l.contract? d.child.address = some source)
    (isCollection : source.model = .collection s) : a ∈ s.notify := by
  obtain ⟨-, hserves⟩ := h.serves (shell?_registry hk) (Contract.model_shell_eq_dealer.2 isDealer)
    (shell?_registry found) (Contract.model_shell_of_collection isCollection)
  exact (hserves (by simpa using running)).subscribed

namespace CollectionMove

variable {rules : ChainRules} {l : Ledger} {f : MigrateFrom} {d : CollectionMove rules l f}
  {site : Site} {new : l.contract? site.address = none} {l' : Ledger} {t : Collection}

/-- The new collection shows the same as the old one. -/
theorem sameFace (h : (d.toImport site new).Completed l' t) : d.collection.SameFace t where
  name := h.refilled.name
  symbol := h.refilled.symbol
  minters := h.refilled.minters
  entries := h.entries

/-- The new collection has the admin of the old one. -/
theorem admin_eq (h : (d.toImport site new).Completed l' t) : t.admin = d.collection.admin :=
  h.refilled.admin

/-- Another contract is told of the move if the collection had it as a subscriber. -/
theorem contract?_other (h : (d.toImport site new).Completed l' t) {a : String} {k : Contract}
    (hk : l.contract? a = some k) (hne : a ≠ d.source.address) : l'.contract? a =
      some (if a ∈ d.collection.notify then follow d.source.address site.info k else k) := by
  have hsite : a ≠ site.address := by
    rintro rfl
    simp [new] at hk
  have hafter : (d.after site).contract? a = some k := by
    rw [after, contract?_put, contract?_put]
    exact (Function.update_of_ne hsite _ _).trans ((Function.update_of_ne hne _ _).trans hk)
  have hother := h.others a hsite hne
  rw [hafter] at hother
  rw [hother]
  change (if a ∈ d.collection.notify then _ else _) = _
  split <;> rfl

/-- After a completed move the contracts of a ledger have moved. -/
theorem moved (h : (d.toImport site new).Completed l' t) {before : Ledger}
    (staffed : before.registry.WellStaffed) (same : before.contract? = l.contract?) :
    before.Moved l' d.source.info site.info d.collection where
  retired := ⟨_, h.source, rfl, rfl, rfl, d.isCollection⟩
  running := ⟨_, t, h.destination, rfl, rfl, rfl, rfl, h.refilled.minters, h.entries⟩
  dealers a k e hk running isDealer hchild := by
    have hold : e.child.address = d.source.address := hchild
    have hsource : before.contract? d.source.address = some d.source := by
      rw [same, address_of_contract? d.found, d.found]
    have hmem : a ∈ d.collection.notify :=
      subscribed_of_running staffed hk running isDealer (hold ▸ hsource) d.isCollection
    have hne : a ≠ d.source.address := by
      rintro rfl
      have hm := d.isCollection
      rw [← Option.some.inj (hk.symm.trans hsource), isDealer] at hm
      cases hm
    rw [same] at hk
    rw [contract?_other h hk hne, if_pos hmem, follow, isDealer]
    simp [hold]

end CollectionMove

end Ledger

namespace Chain

/-- A collection with the tokens to compare can be captured, migrated and captured again, with
equivalent snapshots. Enough calls are those that the import takes, the gas limits have to cover
what the trial runs report, and the permits of the key have to verify. -/
theorem Reachable.migrates {c : Chain} (h : c.Reachable) (simulates : c.failSimulations = false)
    {source : Contract} {s : Collection}
    (found : c.ledger.contract? source.address = some source)
    (isCollection : source.model = .collection s) (running : source.mode = .running)
    (small : s.tokens.length < UInt32.size) {key : LocalKey} (isAdmin : key.address = s.admin)
    (registered : c.rules.accounts.lookup key.publicKey = some s.admin) {code : CodeArtifact}
    (stored : c.ledger.code? code.codeId = some ⟨code.codeHash, .migratable⟩) {ids : List String}
    (hasTokens : s.HasTokens ids) (o : Orchestrator) (permitName : String)
    (verifies : ∀ a ∈ [source.address, c.ledger.nextAddress],
      ∀ name ∈ [permitName, o.settings.permitName],
        (key.sign ⟨[a], name, c.rules.chainId, [.owner]⟩).verify = .ok ())
    (nonzero : o.settings.pagesPerCall ≠ some 0)
    (enough : o.callsOn c s.tokens.length ≤ o.settings.maxPageCalls.toNat)
    (coversStart : o.gas.Covers Ledger.instantiateGas)
    (coversCalls : ∀ call < o.callsOn c s.tokens.length,
      o.CoversCall c (o.tokensIn c s.tokens.length call)) :
    let v := StateVerifier.standard permitName ids
    ∃ before after destination c',
      (v.capture key.toSigner source.info).Yields c before c ∧
      (o.migrate source.info code .migratable key.toSigner).Yields c destination c' ∧
      (v.capture key.toSigner destination.info).Yields c' after c' ∧
      v.assertEquivalent before after = .ok () ∧
      c.ledger.Moved c'.ledger source.info destination.info s := by
  intro v
  have hlinked := h.reached.wellLinked
  have new : c.ledger.contract? c.ledger.nextAddress = none :=
    Ledger.contract?_addressOf_eq_none hlinked (Nat.lt_succ_self _)
  have hpermit : ∀ a ∈ [source.address, c.ledger.nextAddress],
      ∀ name ∈ [permitName, o.settings.permitName], c.rules.permitCreator
        (key.sign ⟨[a], name, c.rules.chainId, [.owner]⟩) a = .ok s.admin :=
    fun a ha name hname => LocalKey.permitCreator_sign registered (verifies a ha name hname)
  have hold := hpermit source.address (by simp)
  have hnew := hpermit c.ledger.nextAddress (by simp) permitName (by simp)
  let d : Ledger.CollectionMove c.rules c.ledger.nextBlock.afterAddress
      (o.startMsg c key source.info).source :=
    ⟨source, s, found, isCollection, Ledger.migratedTo_of_running hlinked found running, running,
      hold o.settings.permitName (by simp)⟩
  obtain ⟨c', t, hmigrate, hrules, hdone⟩ := o.yields_migrate d new stored small isAdmin simulates
    nonzero enough coversStart coversCalls
  have hface : s.SameFace t := Ledger.CollectionMove.sameFace hdone
  have hadmin : t.admin = s.admin := Ledger.CollectionMove.admin_eq hdone
  have standard : v.queries = VerifyQuery.standard := rfl
  have hliteral := (h.reached.literal _ _ found).entries isCollection
  have hbefore := StateVerifier.yields_capture standard found isCollection running small
    (hold permitName (by simp)) hliteral hasTokens
  rw [← hadmin, ← hrules] at hnew
  let k : Contract := { d.successor (c.ledger.nextBlock.nextSite key.address code.codeHash) with
    mode := .running, model := .collection t }
  have hdestination : c'.ledger.contract? k.address = some k := hdone.destination
  have hafter := StateVerifier.yields_capture standard hdestination rfl rfl
    (hface.length_tokens ▸ small) hnew (hface.entries ▸ hliteral) (hface.hasTokens hasTokens)
  have hmoved : c.ledger.Moved c'.ledger source.info ⟨c.ledger.nextAddress, code.codeHash⟩ s :=
    Ledger.CollectionMove.moved hdone h.reached.wellStaffed rfl
  exact ⟨_, _, _, c', hbefore, hmigrate, hafter,
    StateVerifier.assertEquivalent_of_sameFace rfl _ _ hface, hmoved⟩

/-- A chain on which a new dealer has sold a token, and which knows the key of its admin. -/
def withAdminKey : Chain := (firstSale.2).after (.register adminKey)

theorem reachable_withAdminKey : withAdminKey.Reachable :=
  (reachable_withDealer.move (.send _ _)).move (.register adminKey)

/-- The contract that holds the token. -/
def soldContract : Contract :=
  .start "secret1contract0002" collectionHash .running none (.collection soldCollection)

/-- The code of the collection. -/
def collectionCode : CodeArtifact := ⟨2, collectionHash⟩

set_option maxRecDepth 100000 in
theorem ledger_withAdminKey : withAdminKey.ledger =
    ⟨[⟨dealerHash, .dealer⟩, ⟨collectionHash, .migratable⟩],
      [soldContract, .start "secret1contract0001" dealerHash .running none (.dealer
        ⟨"secret1admin", [price], none, none, soldContract.info⟩)], 3, 2⟩ := by
  decide +kernel

theorem rules_withAdminKey : withAdminKey.rules =
    ⟨"secretdev-1", [(adminKey.publicKey, "secret1admin")], 2, false, false⟩ := by
  rw [withAdminKey, rules_after_register, firstSale, rules_broadcast, rules_withDealer]
  rfl

theorem failSimulations_withAdminKey : withAdminKey.failSimulations = false := by
  simp only [withAdminKey, firstSale, withDealer, after, register, failSimulations_broadcast]
  rfl

/-- The owner permits of the key for the collection and the next address verify. -/
theorem verify_adminKey : ∀ a ∈ ["secret1contract0002", "secret1contract0003"],
    (adminKey.sign ⟨[a], "test", "secretdev-1", [.owner]⟩).verify = .ok () := by
  decide +kernel

/-- The standard settings cover the gas of a start, and of a call for a few tokens. -/
theorem covers_standard : GasSettings.standard.Covers Ledger.instantiateGas ∧
    ∀ tokens ≤ 3, GasSettings.standard.Covers (Ledger.executeGas + tokens * 10000) := by
  unfold GasSettings.Covers
  decide +kernel

/-- The collection that sold a token can be migrated with the standard settings. -/
theorem withAdminKey_migrates :
    let v := StateVerifier.standard "test" ["0"]
    ∃ before after destination c',
      (v.capture adminKey.toSigner soldContract.info).Yields withAdminKey before withAdminKey ∧
      ((Orchestrator.mk .standard .standard ⟨0, "0.5"⟩).migrate soldContract.info collectionCode
        .migratable adminKey.toSigner).Yields withAdminKey destination c' ∧
      (v.capture adminKey.toSigner destination.info).Yields c' after c' ∧
      v.assertEquivalent before after = .ok () ∧
      withAdminKey.ledger.Moved c'.ledger soldContract.info destination.info soldCollection := by
  have found : withAdminKey.ledger.contract? soldContract.address = some soldContract := by
    rw [ledger_withAdminKey]
    rfl
  have stored : withAdminKey.ledger.code? collectionCode.codeId =
      some ⟨collectionCode.codeHash, .migratable⟩ := by
    rw [ledger_withAdminKey]
    rfl
  have hasTokens : soldCollection.HasTokens ["0"] := by
    intro id hid
    obtain rfl := List.mem_singleton.1 hid
    exact ⟨_, List.mem_singleton_self _, rfl⟩
  have registered : withAdminKey.rules.accounts.lookup adminKey.publicKey =
      some soldCollection.admin := by
    rw [rules_withAdminKey]
    exact List.lookup_cons_self
  have verifies : ∀ a ∈ [soldContract.address, withAdminKey.ledger.nextAddress],
      ∀ name ∈ ["test", "test"],
        (adminKey.sign ⟨[a], name, withAdminKey.rules.chainId, [.owner]⟩).verify = .ok () := by
    have hnext : withAdminKey.ledger.nextAddress = "secret1contract0003" := by
      rw [ledger_withAdminKey]
      decide +kernel
    rw [hnext, rules_withAdminKey]
    intro a ha name hname
    obtain rfl : name = "test" := by simpa using hname
    exact verify_adminKey a ha
  have small : soldCollection.tokens.length < UInt32.size := by decide
  have enough : (Orchestrator.mk .standard .standard ⟨0, "0.5"⟩).callsOn withAdminKey
      soldCollection.tokens.length ≤ MigrationSettings.standard.maxPageCalls.toNat :=
    show 1 ≤ 1000 by decide
  let o : Orchestrator := ⟨.standard, .standard, ⟨0, "0.5"⟩⟩
  have coversCalls : ∀ call < o.callsOn withAdminKey soldCollection.tokens.length,
      o.CoversCall withAdminKey (o.tokensIn withAdminKey soldCollection.tokens.length call) :=
    fun call _ => (covers_standard.2 _ (Nat.le_trans (o.tokensIn_le _ 1 call) (by decide))).on
      failSimulations_withAdminKey
  exact reachable_withAdminKey.migrates failSimulations_withAdminKey found rfl rfl small rfl
    registered stored hasTokens o "test" verifies (by decide) enough covers_standard.1 coversCalls

end Chain

end Handover
