import Handover.Proofs.Ledger.Fate
import Handover.Proofs.Migration.EndToEnd

/-!
# Nothing moves without its admin

A contract gets a successor only by a message that carries an owner permit of its admin, however
many messages by whomever stand beside it in the transaction, and a message with another permit
brings down the transaction it stands in. While a collection imports, only its admin's import calls
change how far it is.
-/

namespace Handover

namespace Ledger

/-! ## One message -/

section Steps

variable {rules : ChainRules} {l l' : Ledger} {m : Msg}

/-- A successor was there before the message, or the message moves the contract for its admin. -/
theorem Step.successor (hs : Step rules l m l') (h : l.registry.WellLinked) {a : String}
    {k : Contract} {b : ContractInfo} (hk : l'.contract? a = some k) (hb : k.migratedTo = some b) :
    (∃ k₀, l.contract? a = some k₀ ∧ k₀.migratedTo = some b) ∨ MovesFor rules m a k.admin := by
  cases hc : l.contract? a with
  | none =>
    have hlast := (started_of_new h hs hc hk).last
    simp [hb] at hlast
  | some k₀ =>
    obtain ⟨k', hk', hfate⟩ := exists_fate h hs hc
    obtain rfl := Option.some.inj (hk'.symm.trans hk)
    exact hfate.migratedTo_eq_or.imp_left fun he => ⟨k₀, rfl, he.symm.trans hb⟩

/-- A migration that goes through has a permit of the admin of what it migrates. -/
theorem Step.permitted (hs : Step rules l m l') {f : Migration} (hf : m.migration? = some f) :
    ∃ k, l.contract? f.source.address = some k ∧
      rules.OwnerPermit f.source.adminPermit f.source.address k.admin := by
  cases hs with
  | storeCode _ _ _ _ => cases hf
  | send _ => cases hf
  | newCollection init _ msg _ => simp [Msg.migration?, msg] at hf
  | newDealer init _ msg _ _ => simp [Msg.migration?, msg] at hf
  | moveDealer _ msg d =>
    obtain rfl := Option.some.inj ((Msg.migration?_of_migrate msg).symm.trans hf)
    have hadmin : d.source.admin = d.dealer.admin := by simp [Contract.admin, d.isDealer]
    exact ⟨d.source, d.found, hadmin ▸ ChainRules.permitCreator_eq_ok.1 d.permitted⟩
  | moveCollection _ msg d =>
    obtain rfl := Option.some.inj ((Msg.migration?_of_migrate msg).symm.trans hf)
    have hadmin : d.source.admin = d.collection.admin := by simp [Contract.admin, d.isCollection]
    exact ⟨d.source, d.found, hadmin ▸ ChainRules.permitCreator_eq_ok.1 d.permitted⟩
  | sell _ _ _ => cases hf
  | transfer _ _ _ => cases hf
  | importPage _ _ _ _ => cases hf
  | finishImport _ _ _ _ _ _ => cases hf

end Steps

/-! ## Many messages -/

/-- A successor was there before the messages, or one of them moves the contract for its admin. -/
theorem Ran.successor {rules : ChainRules} {l l' : Ledger} {msgs : List Msg}
    (h : Ran (Step rules) l msgs l') (hl : l.Reached) {a : String} {k : Contract}
    {b : ContractInfo} (hk : l'.contract? a = some k) (hb : k.migratedTo = some b) :
    (∃ k₀, l.contract? a = some k₀ ∧ k₀.migratedTo = some b) ∨
      ∃ m ∈ msgs, MovesFor rules m a k.admin := by
  induction h with
  | nil => exact Or.inl ⟨k, hk, hb⟩
  | @cons l l₁ _ m ms first rest ih =>
    rcases ih (hl.step first) hk with ⟨k₁, hk₁, hb₁⟩ | ⟨m', hm', hmoves⟩
    · -- The first message gave the successor, and what follows keeps the admin.
      refine (first.successor hl.wellLinked hk₁ hb₁).imp_right fun hmoves => ?_
      obtain ⟨k', hk', hadvances⟩ := (hl.step first).advances rest a k₁ hk₁
      obtain rfl := Option.some.inj (hk'.symm.trans hk)
      exact ⟨m, List.mem_cons_self, hadvances.admin ▸ hmoves⟩
    · exact Or.inr ⟨m', List.mem_cons_of_mem m hm', hmoves⟩

end Ledger

namespace Chain

/-- On a reachable chain a contract has a successor after an accepted transaction if it had the
same one before, or if the transaction has a message that migrates it with an owner permit of its
admin. At any point of a transaction, a message that is no call of its admin to import leaves
the mode, the cursor and the tokens of a collection that imports. A transaction with a migration
that comes without an owner permit of the admin of what it would migrate is refused. -/
theorem Reachable.moves_are_authorized {c : Chain} (h : c.Reachable) :
    (∀ msgs options r c', c.broadcast msgs options = (.ok r, c') →
      ∀ a k b, c'.ledger.contract? a = some k → k.migratedTo = some b →
        (∃ k₀, c.ledger.contract? a = some k₀ ∧ k₀.migratedTo = some b) ∨
          ∃ m ∈ msgs, Ledger.MovesFor c.rules m a k.admin) ∧
    (∀ before outcomes l m o l', c.ledger.run c.rules before = .ok (outcomes, l) →
      Ledger.apply c.rules l m = .ok (o, l') →
      ∀ a k, l.contract? a = some k → k.mode = .migrateDataIn → ∃ s, k.model = .collection s ∧
        (¬m.ImportsAt s.admin a → ∃ k' t, l'.contract? a = some k' ∧ k'.mode = k.mode ∧
          k'.model = .collection t ∧ t.importCursor = s.importCursor ∧ t.tokens = s.tokens)) ∧
    ∀ before m rest options f, m.migration? = some f →
      (∀ outcomes l k, c.ledger.run c.rules before = .ok (outcomes, l) →
        l.contract? f.source.address = some k →
          ¬c.rules.OwnerPermit f.source.adminPermit f.source.address k.admin) →
      ∃ fault c', c.broadcast (before ++ m :: rest) options = (.error fault, c') ∧
        c'.ledger = c.ledger := by
  refine ⟨?_, ?_, ?_⟩
  · intro msgs options r c' hb a k b hk hto
    exact (ran_of_broadcast hb).successor h.reached.block hk hto
  · intro before outcomes l m o l' hrun happly a k hk hm
    have hl := ((Ledger.ran_of_run hrun).reached h.reached.block).wellLinked
    obtain ⟨s, _, _, _, hs, -⟩ := Ledger.exists_source_of_importing hl hk hm
    refine ⟨s, hs, fun hnot => ?_⟩
    obtain ⟨k', hk', hfate⟩ := Ledger.exists_fate hl (Ledger.step_of_apply happly) hk
    obtain ⟨hmode, t, ht, hcursor, htokens⟩ :=
      (hfate.importing hl hm hs).resolve_right fun hcall => hnot hcall.1
    exact ⟨k', t, hk', hmode, ht, hcursor, htokens⟩
  · intro before m rest options f hf hnot
    rcases hb : c.broadcast (before ++ m :: rest) options with ⟨fault | r, c'⟩
    · exact ⟨fault, c', rfl, ledger_of_broadcast_error hb⟩
    · obtain ⟨_, _, hrun, -, -, -⟩ := broadcast_eq_ok.1 hb
      obtain ⟨outcomes, l, o, l', hbefore, happly⟩ := Ledger.exists_apply_of_run hrun
      obtain ⟨k, hk, hpermit⟩ := (Ledger.step_of_apply happly).permitted hf
      exact absurd hpermit (hnot outcomes l k hbefore hk)

/-! ## A chain that moves a collection -/

/-- A purchase at the dealer. -/
def purchase : Msg :=
  purchaseAt "secret1contract0001"

/-- A chain on which the dealer has sold three tokens. -/
def withSales : Chain :=
  withAdminKey.after (.send [purchase, purchase] (.ofGasLimit 600000))

theorem reachable_withSales : withSales.Reachable :=
  reachable_withAdminKey.move _

/-- The three tokens. -/
def saleTokens : List Token :=
  [⟨"0", "secret1buyer", none, none, "secret1contract0001", "secret1contract0001", 1700000018⟩,
    ⟨"1", "secret1buyer", none, none, "secret1contract0001", "secret1contract0001", 1700000024⟩,
    ⟨"2", "secret1buyer", none, none, "secret1contract0001", "secret1contract0001", 1700000024⟩]

/-- The collection with them. -/
def saleCollection : Collection :=
  { soldCollection with
    tokens := saleTokens
    history := [⟨0, 3, "0", .mint "secret1contract0001" "secret1buyer"⟩,
      ⟨1, 4, "1", .mint "secret1contract0001" "secret1buyer"⟩,
      ⟨2, 4, "2", .mint "secret1contract0001" "secret1buyer"⟩] }

/-- The contract that holds it. -/
def saleContract : Contract :=
  soldContract.withCollection saleCollection

/-- The ledger after the sales. -/
def saleLedger : Ledger :=
  ⟨[⟨dealerHash, .dealer⟩, ⟨collectionHash, .migratable⟩],
    [saleContract, .start "secret1contract0001" dealerHash .running none (.dealer
      ⟨"secret1admin", [price], none, none, saleContract.info⟩)], 4, 2⟩

set_option maxRecDepth 100000 in
theorem ledger_withSales : withSales.ledger = saleLedger := by
  decide +kernel

theorem rules_withSales : withSales.rules =
    ⟨"secretdev-1", [(adminKey.publicKey, "secret1admin")], 2, false, false⟩ := by
  simp only [withSales, after, rules_broadcast, rules_withAdminKey]

theorem failSimulations_withSales : withSales.failSimulations = false := by
  simp only [withSales, after, failSimulations_broadcast, failSimulations_withAdminKey]

/-- A migration of a contract, with the permit of the admin for the collection. -/
def migrationOf (a : String) : Migration :=
  ⟨⟨a, collectionHash, adminKey.sign ⟨["secret1contract0002"], "test", "secretdev-1", [.owner]⟩⟩,
    "entropy"⟩

/-- The message that asks for it. -/
def askFor (m : Migration) : Msg :=
  migrationMsg 2 collectionHash m

theorem migration?_askFor (m : Migration) : (askFor m).migration? = some m :=
  Msg.migration?_of_migrate (ofJson?_toJson_migrate m)

theorem apply_askFor (rules : ChainRules) (l : Ledger) (m : Migration) :
    Ledger.apply rules l (askFor m) = Ledger.instantiate rules l "secret1admin" 2 collectionHash
      (toJson (InstantiateMsg.migrate (α := Json) m)) := rfl

/-- The collection can move. -/
def saleMove : Ledger.CollectionMove withSales.rules saleLedger.nextBlock.afterAddress
    (migrationOf "secret1contract0002").source where
  source := saleContract
  collection := saleCollection
  found := rfl
  isCollection := rfl
  notMoved := rfl
  running := rfl
  permitted := by
    rw [rules_withSales]
    exact LocalKey.permitCreator_sign List.lookup_cons_self (verify_adminKey _ (by simp))

/-- The new collection, which has no token yet. -/
def freshContract : Contract :=
  .start "secret1contract0003" collectionHash .migrateDataIn (some saleContract.info)
    (.collection (.fresh "PurchasableSnip721" "PUR721" "secret1admin" "secret1admin"
      ["secret1contract0001"] ["secret1contract0001"]))

/-- The ledger after the start of the move. -/
def movingLedger : Ledger :=
  ⟨[⟨dealerHash, .dealer⟩, ⟨collectionHash, .migratable⟩],
    [Ledger.leaving saleContract .migrateOutStarted freshContract.info,
      .start "secret1contract0001" dealerHash .running none (.dealer
        ⟨"secret1admin", [price], none, none, saleContract.info⟩), freshContract], 5, 3⟩

/-- The start of the move is accepted. -/
theorem withSales_starts : ∃ r, withSales.broadcast [askFor (migrationOf "secret1contract0002")]
    (.ofGasLimit 200000) = (.ok r, withSales.sent movingLedger 200000) := by
  have hcode : saleLedger.nextBlock.code? 2 = some ⟨collectionHash, .migratable⟩ := rfl
  have hran := saleMove.instantiate_eq "secret1admin" hcode
    (ofJson?_toJson_migrate (migrationOf "secret1contract0002"))
  have hafter : saleMove.after (saleLedger.nextBlock.nextSite "secret1admin" collectionHash) =
      movingLedger := by
    decide +kernel
  rw [hafter] at hran
  rw [← apply_askFor, ← ledger_withSales] at hran
  exact ⟨_, broadcast_of_apply hran rfl (Nat.le_refl _)⟩

/-- The chain after it. -/
def moving : Chain :=
  withSales.sent movingLedger 200000

theorem reachable_moving : moving.Reachable := by
  obtain ⟨r, hr⟩ := withSales_starts
  exact reachable_withSales.of_broadcast hr

theorem rules_moving : moving.rules =
    ⟨"secretdev-1", [(adminKey.publicKey, "secret1admin")], 2, false, false⟩ := by
  rw [moving, rules_sent, rules_withSales]

theorem failSimulations_moving : moving.failSimulations = false := by
  rw [moving, failSimulations_sent, failSimulations_withSales]

/-- The collection with three tokens moves by a permit of its admin. The same permit moves no
other contract, and a message in between leaves the new collection as it is. -/
theorem withSales_moves_are_authorized :
    (∃ m ∈ [askFor (migrationOf "secret1contract0002")],
      Ledger.MovesFor withSales.rules m "secret1contract0002" "secret1admin") ∧
    (∃ fault c', withSales.broadcast [purchase, askFor (migrationOf "secret1contract0001")]
      (.ofGasLimit 500000) = (.error fault, c') ∧ c'.ledger = withSales.ledger) ∧
    ∃ k' t, moving.ledger.nextBlock.contract? "secret1contract0003" = some k' ∧
      k'.mode = .migrateDataIn ∧ k'.model = .collection t ∧ t.importCursor = 0 ∧ t.tokens = [] := by
  obtain ⟨hsuccessors, -, hrefused⟩ := reachable_withSales.moves_are_authorized
  obtain ⟨-, hkept, -⟩ := reachable_moving.moves_are_authorized
  refine ⟨?_, ?_, ?_⟩
  · obtain ⟨r, hr⟩ := withSales_starts
    have hleft := hsuccessors _ _ r _ hr "secret1contract0002"
      (Ledger.leaving saleContract .migrateOutStarted freshContract.info) freshContract.info rfl rfl
    refine hleft.resolve_left ?_
    rintro ⟨k₀, hk₀, hmoved⟩
    rw [ledger_withSales] at hk₀
    obtain rfl := Option.some.inj hk₀
    cases hmoved
  · refine hrefused [purchase] _ [] _ _ (migration?_askFor _) ?_
    intro outcomes l k _ _ hpermit
    exact absurd hpermit.forContract (by decide)
  · rw [rules_moving] at hkept
    obtain ⟨_, hs, hsame⟩ := hkept [] [] movingLedger.nextBlock
      (.send "secret1buyer" "secret1admin" [])
      ⟨[⟨"transfer", [⟨"recipient", "secret1admin"⟩, ⟨"sender", "secret1buyer"⟩]⟩], [], 60000⟩ _
      rfl rfl "secret1contract0003" freshContract rfl rfl
    obtain rfl := Model.collection.inj hs
    refine hsame ?_
    rintro ⟨_, _, _, _, _, hm, -⟩
    cases hm

end Chain

end Handover
