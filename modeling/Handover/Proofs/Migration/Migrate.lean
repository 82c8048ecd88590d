import Handover.Proofs.Migration.Paging

/-!
# Migrating a collection

A migration starts with an owner permit, which the chain accepts for the account of the key. The
new collection stands at the next address and imports from the old one, and enough calls
complete its import (`yields_migrate`).
-/

namespace Handover

open Procedure

/-- The chain accepts an owner permit that verifies for the account of its key. -/
theorem LocalKey.permitCreator_sign {key : LocalKey} {rules : ChainRules}
    {account contract name : String} (registered : rules.accounts.lookup key.publicKey = some account)
    (verifies : (key.sign ⟨[contract], name, rules.chainId, [.owner]⟩).verify = .ok ()) :
    rules.permitCreator (key.sign ⟨[contract], name, rules.chainId, [.owner]⟩) contract =
      .ok account := by
  refine ChainRules.permitCreator_eq_ok.2 ⟨verifies, rfl, ?_, ?_, registered⟩
  · exact List.mem_singleton_self contract
  · exact List.mem_singleton_self Permission.owner

namespace Ledger

namespace CollectionMove

variable {rules : ChainRules} {l : Ledger} {m : Migration}

/-- The message of a move goes through. -/
theorem instantiate_eq (d : CollectionMove rules l.afterAddress m.source) {codeId : UInt64}
    {codeHash : String} {initMsg : Json} (sender : String)
    (code : l.code? codeId = some ⟨codeHash, .migratable⟩)
    (msg : ofJson? initMsg = some (InstantiateMsg.migrate (α := Json) m)) :
    instantiate rules l sender codeId codeHash initMsg =
      .ok (⟨[Outcome.contractEvent l.nextAddress []], [], instantiateGas⟩,
        d.after (l.nextSite sender codeHash)) := by
  have hcode : l.code codeId = .ok ⟨codeHash, .migratable⟩ := code_eq_ok.2 code
  have hmsg : parseMessage (α := InstantiateMsg Json) Wire.ofJson? "InstantiateMsg" initMsg = .ok (.migrate m) :=
    parseMessage_eq_ok.2 msg
  have hmove : migrateCollection rules l.afterAddress (l.nextSite sender codeHash) m.source =
      .ok (d.after (l.nextSite sender codeHash)) := migrateCollection_eq_ok.2 ⟨d, rfl⟩
  unfold nextSite at hmove ⊢
  simp [instantiate, hcode, hmsg, hmove, bind, Except.bind, pure, Except.pure]

theorem source_ne {f : MigrateFrom} (d : CollectionMove rules l f) {a : String}
    (new : l.contract? a = none) : d.source.address ≠ a := by
  have hs : d.source.address = f.address := address_of_contract? d.found
  rintro rfl
  rw [hs, d.found] at new
  cases new

/-- The import that a move starts. -/
def toImport {f : MigrateFrom} (d : CollectionMove rules l f) (site : Site)
    (new : l.contract? site.address = none) :
    Import (d.after site) d.collection.admin site.address where
  contract := d.successor site
  collection := .fresh d.collection.name d.collection.symbol d.collection.admin site.sender
    d.collection.minters d.collection.notify
  origin := d.source.info
  source := leaving d.source .migrateOutStarted site.info
  sourceCollection := d.collection
  found := contract?_put_self rfl
  isCollection := rfl
  importing := rfl
  comesFrom := rfl
  isAdmin := rfl
  sourceFound := by
    have hne : d.source.info.address ≠ (d.successor site).address := d.source_ne new
    rw [after, contract?_put, Function.update_of_ne hne]
    exact contract?_put_self rfl
  sourceIsCollection := d.isCollection

/-- The import that follows on a move is sound. -/
theorem sound_toImport {f : MigrateFrom} (d : CollectionMove rules l f) (site : Site)
    (new : l.contract? site.address = none) (small : d.collection.tokens.length < UInt32.size) :
    (d.toImport site new).Sound :=
  ⟨Nat.zero_le _, small, d.source_ne new⟩

end CollectionMove

end Ledger

namespace Orchestrator

open Ledger

variable {c : Chain} {key : LocalKey} {code : CodeArtifact} {source : Contract} {s : Collection}

/-- The message that starts a migration. -/
def startMsg (o : Orchestrator) (c : Chain) (key : LocalKey) (source : ContractInfo) : Migration :=
  ⟨⟨source.address, source.codeHash, key.sign ⟨[source.address], o.settings.permitName,
    c.rules.chainId, [.owner]⟩⟩, o.fresh.entropyText⟩

/-- The new collection is made with a permit of the key. -/
theorem yields_start (o : Orchestrator)
    (d : CollectionMove c.rules c.ledger.nextBlock.afterAddress
      (o.startMsg c key source.info).source)
    (stored : c.ledger.code? code.codeId = some ⟨code.codeHash, .migratable⟩)
    (covers : o.gas.CoversOn c instantiateGas) :
    (o.start source.info code .migratable key.toSigner).Yields c ⟨c.ledger.nextAddress, code⟩
      (c.sent (d.after (c.ledger.nextBlock.nextSite key.address code.codeHash))
        (o.gas.limitOn c instantiateGas)) := by
  have hcode : c.ledger.nextBlock.code? code.codeId = some ⟨code.codeHash, .migratable⟩ := stored
  have hran : apply c.rules c.ledger.nextBlock (.instantiate key.address code.codeId
      code.codeHash (toJson (.migrate (o.startMsg c key source.info) : InstantiateMsg Json))
      (o.fresh.labelFor ContractKind.migratable.labelBase) none []) = .ok
        (⟨[Outcome.contractEvent c.ledger.nextAddress []], [], instantiateGas⟩,
          d.after (c.ledger.nextBlock.nextSite key.address code.codeHash)) :=
    d.instantiate_eq key.address hcode (ofJson?_toJson_migrate (o.startMsg c key source.info))
  have hmade := yields_instantiate o.gas code _ key.address _ hran covers rfl
  exact Yields.bind (Yields.bind (key.yields_ownerPermit _ _ c) (yields_pure _ c)) hmade

/-- Enough calls complete the migration of a collection. -/
theorem yields_migrate (o : Orchestrator)
    (d : CollectionMove c.rules c.ledger.nextBlock.afterAddress
      (o.startMsg c key source.info).source)
    (new : c.ledger.contract? c.ledger.nextAddress = none)
    (stored : c.ledger.code? code.codeId = some ⟨code.codeHash, .migratable⟩)
    (small : d.collection.tokens.length < UInt32.size) (isAdmin : key.address = d.collection.admin)
    (simulates : c.failSimulations = false) (nonzero : o.settings.pagesPerCall ≠ some 0)
    (enough : o.callsOn c d.collection.tokens.length ≤ o.settings.maxPageCalls.toNat)
    (coversStart : o.gas.Covers instantiateGas)
    (coversCalls : ∀ call < o.callsOn c d.collection.tokens.length,
      o.CoversCall c (o.tokensIn c d.collection.tokens.length call)) :
    ∃ c' t, (o.migrate source.info code .migratable key.toSigner).Yields c
        ⟨c.ledger.nextAddress, code⟩ c' ∧ c'.rules = c.rules ∧
      (d.toImport (c.ledger.nextBlock.nextSite key.address code.codeHash) new).Completed
        c'.ledger t := by
  have hstart := o.yields_start d stored (coversStart.on simulates)
  let l := d.after (c.ledger.nextBlock.nextSite key.address code.codeHash)
  let c₁ := c.sent l (o.gas.limitOn c instantiateGas)
  let i : Import c₁.ledger d.collection.admin c.ledger.nextAddress :=
    d.toImport (c.ledger.nextBlock.nextSite key.address code.codeHash) new
  have hsound : i.Sound :=
    d.sound_toImport (c.ledger.nextBlock.nextSite key.address code.codeHash) new small
  obtain ⟨s', c', t, himport, -, -, -, hrules, -, hdone⟩ := yields_importFrom nonzero hsound
    (ImportProgress.fits_start i) coversCalls enough
  have hsender : ∀ sender, sender = d.collection.admin →
      (o.importTokens ⟨c.ledger.nextAddress, code.codeHash⟩ sender).Yields c₁ s' c' := by
    rintro _ rfl
    exact himport
  exact ⟨c', t, hstart.bind ((hsender _ isAdmin).bind (yields_pure _ c')), hrules, hdone⟩

end Orchestrator

end Handover
