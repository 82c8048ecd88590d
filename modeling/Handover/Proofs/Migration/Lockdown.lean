import Handover.Proofs.Migration.Retirement

/-!
# A collection that moved away

From the message on that starts its move, a collection holds what it held then, for good : name,
symbol, admin, tokens and history (`Collection.SameHoldings`). It gives no token away and sells
none, and the refusals tell whether its tokens are being moved or are moved
(`MovesToken.apply_eq`).

What is asked of a collection, but for its minters, is answered from what it holds and from who
asks (`Collection.reply`). So while the tokens are being moved, the collection answers as it did at
the start, and about its history also later.
-/

namespace Handover

open Ledger

/-! ## What is held -/

namespace Collection

/-- The collections hold the same. -/
structure SameHoldings (s t : Collection) : Prop where
  name : t.name = s.name
  symbol : t.symbol = s.symbol
  admin : t.admin = s.admin
  tokens : t.tokens = s.tokens
  history : t.history = s.history

theorem SameHoldings.trans {s t u : Collection} (h : s.SameHoldings t) (h' : t.SameHoldings u) :
    s.SameHoldings u :=
  ⟨h'.name.trans h.name, h'.symbol.trans h.symbol, h'.admin.trans h.admin,
    h'.tokens.trans h.tokens, h'.history.trans h.history⟩

end Collection

/-- A collection that stays on its way out is a collection with the same holdings. -/
theorem Ledger.Stays.exists_collection {k k' : Contract} {s : Collection} (h : Stays k k')
    (isCollection : k.model = .collection s) :
    ∃ t, k'.model = .collection t ∧ s.SameHoldings t := by
  have hbare := h.bare
  rw [Contract.bare_of_collection isCollection] at hbare
  cases hm : k'.model with
  | dealer d => simp [Contract.bare, hm, Contract.withCollection] at hbare
  | collection t =>
    rw [Contract.bare_of_collection hm] at hbare
    have hmodel := congrArg Contract.model hbare
    simp only [Contract.withCollection, Model.collection.injEq, Collection.mk.injEq] at hmodel
    obtain ⟨hname, hsymbol, hadmin, -, -, -, htokens, -, hhistory⟩ := hmodel
    exact ⟨t, rfl, hname, hsymbol, hadmin, htokens, hhistory⟩

/-- A contract that stays runs the same code. -/
theorem Ledger.Stays.codeHash {k k' : Contract} (h : Stays k k') : k'.codeHash = k.codeHash := by
  rw [← Contract.codeHash_bare, h.bare, ← Contract.codeHash_bare k]

/-! ## What is answered -/

/-- What can be asked of a collection about what it holds. -/
inductive Question where
  | contractInfo
  | contractConfig
  | numTokens
  | ofViewer (viewer : String) (query : PermitQuery)

namespace Question

/-- The query to the collection at `a` asks the question. A viewer asks with a permit that is
accepted. -/
def AskedBy (rules : ChainRules) (a : String) (v : Json) : Question → Prop
  | contractInfo => ofObject? v = some CollectionQuery.contractInfo
  | contractConfig => ofObject? v = some CollectionQuery.contractConfig
  | numTokens => ofObject? v = some CollectionQuery.numTokens
  | ofViewer viewer query => ∃ permit,
    ofObject? v = some (CollectionQuery.withPermit permit query) ∧
      rules.permitCreator permit a = .ok viewer

/-- Whether the question is for the history. -/
def asksHistory : Question → Bool
  | ofViewer _ (.transactionHistory ..) => true
  | _ => false

end Question

namespace Collection

/-- What a collection answers to a question. -/
def reply (s : Collection) : Question → Except Refusal Json
  | .contractInfo =>
    .ok (.obj [("contract_info", .obj [("name", .str s.name), ("symbol", .str s.symbol)])])
  | .contractConfig => .ok configAnswer
  | .numTokens => .ok (countAnswer s.tokens.length)
  | .ofViewer viewer query => s.answerViewer viewer query

/-- Collections that hold the same answer the same. -/
theorem SameHoldings.reply_eq {s t : Collection} (h : s.SameHoldings t) (question : Question) :
    t.reply question = s.reply question := by
  have hdossier : t.dossier = s.dossier := by
    funext id
    rw [dossier, dossier, h.tokens]
  cases question with
  | contractInfo => rw [reply, reply, h.name, h.symbol]
  | contractConfig => rfl
  | numTokens => rw [reply, reply, h.tokens]
  | ofViewer viewer query =>
    cases query with
    | numTokensOfOwner owner => simp only [reply, answerViewer, h.admin, h.tokens]
    | batchNftDossier ids => simp only [reply, answerViewer, hdossier]
    | transactionHistory page pageSize => simp only [reply, answerViewer, h.history]

end Collection

/-- In a mode in which it answers the question, a collection replies to it. -/
theorem Ledger.query_eq_reply {rules : ChainRules} {l : Ledger} {a hash : String} {k : Contract}
    {s : Collection} (found : l.contract? a = some k) (isCollection : k.model = .collection s)
    (sameCode : hash = "" ∨ hash = k.codeHash) {question : Question}
    (answers : k.mode = .running ∨ k.mode = .migrateOutStarted ∨
      (k.mode = .migratedOut ∧ question.asksHistory))
    {v : Json} (asked : question.AskedBy rules a v) :
    l.query rules a hash v = s.reply question := by
  have hanswers : ∀ q : CollectionQuery, (question.asksHistory → q.asksHistory) →
      answersIn k.mode q = true := by
    intro q hq
    rcases answers with hm | hm | ⟨hm, hhistory⟩
    · rw [hm]
      rfl
    · rw [hm]
      rfl
    · rw [hm]
      exact hq hhistory
  cases question with
  | contractInfo =>
    exact query_collection rules found isCollection sameCode (hanswers _ fun h => nomatch h) asked
  | contractConfig =>
    exact query_collection rules found isCollection sameCode (hanswers _ fun h => nomatch h) asked
  | numTokens =>
    exact query_collection rules found isCollection sameCode (hanswers _ fun h => nomatch h) asked
  | ofViewer viewer query =>
    obtain ⟨permit, read, creator⟩ := asked
    rw [query_collection rules found isCollection sameCode (hanswers _ ?_) read, Ledger.answer,
      creator]
    · rfl
    · cases query <;> exact id

/-! ## What is refused -/

/-- The message gives a token of the contract `k` at `a` away, or is a purchase at a running
dealer that sells from there and pays its price. -/
inductive Ledger.MovesToken (l : Ledger) (a : String) (k : Contract) : Msg → Prop
  | transfer {sender recipient tokenId : String} {memo : Option String} {msg : Json}
      {funds : List Coin}
      (read : ofObject? msg = some (CollectionMsg.transferNft recipient tokenId memo)) :
      MovesToken l a k (.execute sender a k.codeHash msg funds)
  | purchase {buyer b : String} {dealer : Contract} {d : Dealer} {msg : Json} {funds : List Coin}
      (found : l.contract? b = some dealer) (running : dealer.mode = .running)
      (isDealer : dealer.model = .dealer d) (childAt : d.child.address = a)
      (paid : PaysPrice d.prices funds) (read : ofObject? msg = some DealerMsg.purchaseMint) :
      MovesToken l a k (.execute buyer b dealer.codeHash msg funds)

/-- A collection that does not run refuses with its mode, before anything else is looked at. -/
theorem Ledger.MovesToken.apply_eq {rules : ChainRules} {l : Ledger} {a : String} {k : Contract}
    {s : Collection} {m : Msg} (h : l.MovesToken a k m) (found : l.contract? a = some k)
    (isCollection : k.model = .collection s) (stopped : k.mode ≠ .running) :
    apply rules l.nextBlock m = .error (.unavailable k.mode) := by
  have hl : l.nextBlock.contract a = .ok k := contract_eq_ok.2 found
  have hmode : k.ensureRunning = .error (.unavailable k.mode) := if_neg stopped
  cases h with
  | @transfer sender recipient tokenId memo msg funds read =>
    have hp : parseMessage (α := CollectionMsg) ofObject? "ExecuteMsg" msg =
        .ok (.transferNft recipient tokenId memo) := parseMessage_eq_ok.2 read
    simp [apply, execute, transferNft, hl, isCollection, hp, hmode, bind, Except.bind]
  | @purchase buyer b dealer d msg funds dealerFound running isDealer childAt paid read =>
    subst childAt
    have hb : l.nextBlock.contract b = .ok dealer := contract_eq_ok.2 dealerFound
    have hrun : dealer.ensureRunning = .ok () := Contract.ensureRunning_eq_ok.2 running
    have hd : dealer.dealer = .ok d := Contract.dealer_eq_ok.2 isDealer
    have hfunds : checkFunds d.prices funds = .ok () := checkFunds_eq_ok.2 paid
    rw [apply_purchase_eq funds (l := l.nextBlock) dealerFound isDealer read]
    simp [purchaseMint, hb, hrun, hd, hfunds, hl, hmode, bind, Except.bind]

/-- The message alone is refused because of a mode, whatever the gas limit and the fee. -/
def Chain.RefusedIn (c : Chain) (m : Msg) (mode : Mode) : Prop :=
  ∀ options, ∃ hash, (c.broadcast [m] options).1 = .error (.rejected
    ("failed to execute message; message index: 0: Not available in contact mode: " ++ mode.name)
    hash none)

theorem Refusal.message_unavailable (mode : Mode) :
    (Refusal.inMessage 0 (.unavailable mode)).message =
      "failed to execute message; message index: 0: Not available in contact mode: " ++
        mode.name := by
  cases mode <;> decide

/-- A message that the mode forbids is refused with the name of the mode. -/
theorem Chain.refusedIn_of_apply {c : Chain} {m : Msg} {mode : Mode}
    (h : Ledger.apply c.rules c.ledger.nextBlock m = .error (.unavailable mode)) :
    c.RefusedIn m mode := by
  intro options
  have hrun : c.ledger.run c.rules [m] = .error (.inMessage 0 (.unavailable mode)) := by
    change Ledger.applyFrom c.rules 0 c.ledger.nextBlock [m] = _
    rw [Ledger.applyFrom, h]
  refine ⟨some (txHash (c.limits.length + 1)), ?_⟩
  rw [← Refusal.message_unavailable]
  simp [broadcast, hrun]

/-! ## From the start of the move on -/

/-- The message that makes a collection stop to run leaves it with what it holds. -/
theorem Ledger.Fate.model_of_stopped {rules : ChainRules} {l : Ledger} {a : String}
    {k k' : Contract} {s : Collection} {m : Msg} (hf : Fate rules l a k m k')
    (h : l.registry.WellLinked) (isCollection : k.model = .collection s)
    (running : k.mode = .running) (stopped : k'.mode ≠ .running) :
    k'.mode = .migrateOutStarted ∧ k'.model = .collection s := by
  cases hf with
  | kept => exact absurd running stopped
  | sold _ _ _ _ => exact absurd running stopped
  | given _ _ _ => exact absurd running stopped
  | handedOver _ _ _ _ => exact absurd running stopped
  | dealerLeft _ d isSource _ =>
    have hdealer := isSource ▸ d.isDealer
    simp [isCollection] at hdealer
  | collectionLeft _ _ _ _ => exact ⟨rfl, isCollection⟩
  | filled i isThis _ _ =>
    have himport := isThis ▸ i.importing
    simp [running] at himport
  | opened _ _ _ _ => exact absurd rfl stopped
  | retired i isSource _ _ _ =>
    have hstarted := isSource ▸ i.mode_source h
    simp [running] at hstarted
  | followed _ isDealer _ _ _ => simp [isCollection] at isDealer

namespace Chain

/-- On a reachable chain, the message that starts the move of a collection leaves what it holds,
and so does everything after, in the same transaction or later. Once it has left, every transfer
and every paid purchase of its tokens is refused with its mode, and while its tokens are being
moved, it replies to every question as it did at the start, about its history also later. -/
theorem Reachable.locks_down {c : Chain} (h : c.Reachable) (a : String) :
    (∀ rules l m o l' k s k', c.ComesTo rules l → Ledger.apply rules l m = .ok (o, l') →
      l.contract? a = some k → k.model = .collection s → k.mode = .running →
      l'.contract? a = some k' → k'.mode ≠ .running →
        k'.mode = .migrateOutStarted ∧ k'.model = .collection s ∧
        ∀ l'', l'.LeadsTo l'' → ∃ k'' t, l''.contract? a = some k'' ∧
          k''.model = .collection t ∧ s.SameHoldings t) ∧
    ∀ k s, c.ledger.contract? a = some k → k.model = .collection s →
      k.mode = .migrateOutStarted ∨ k.mode = .migratedOut →
      ∀ (moves : List ChainMove) (c' : Chain), moves.foldl after c = c' →
        ∃ k' t, c'.ledger.contract? a = some k' ∧ k'.codeHash = k.codeHash ∧
          k'.model = .collection t ∧ s.SameHoldings t ∧
          (k'.mode = .migrateOutStarted ∨ k'.mode = .migratedOut) ∧
          (∀ m, c'.ledger.MovesToken a k' m → c'.RefusedIn m k'.mode) ∧
          ∀ question hash v, k'.mode = .migrateOutStarted ∨ question.asksHistory →
            hash = "" ∨ hash = k.codeHash → question.AskedBy c'.rules a v →
              c'.ledger.query c'.rules a hash v = s.reply question := by
  refine ⟨?_, ?_⟩
  · intro rules l m o l' k s k' hcomes happly hk hs hm hk' hm'
    have hl := hcomes.leadsTo.reached h.reached
    have hstep := Ledger.step_of_apply happly
    obtain ⟨k₁, hk₁, hfate⟩ := Ledger.exists_fate hl.wellLinked hstep hk
    obtain rfl := Option.some.inj (hk₁.symm.trans hk')
    obtain ⟨hmode, hmodel⟩ := hfate.model_of_stopped hl.wellLinked hs hm hm'
    refine ⟨hmode, hmodel, fun l'' hlead => ?_⟩
    obtain ⟨k'', hk'', hstays⟩ := hlead.stays (hl.step hstep) hk₁ (Or.inl hmode)
    obtain ⟨t, ht, hsame⟩ := hstays.exists_collection hmodel
    exact ⟨k'', t, hk'', ht, hsame⟩
  · rintro k s hk hs left moves c' rfl
    obtain ⟨k', hk', hstays⟩ := (leadsTo_foldl_after moves .refl).stays h.reached hk left
    obtain ⟨t, ht, hsame⟩ := hstays.exists_collection hs
    have hleft := hstays.left left
    have hstopped : k'.mode ≠ .running := by rcases hleft with hm | hm <;> simp [hm]
    refine ⟨k', t, hk', hstays.codeHash, ht, hsame, hleft, ?_, ?_⟩
    · exact fun m hm => refusedIn_of_apply (hm.apply_eq hk' ht hstopped)
    · intro question hash v answers sameCode asked
      have hanswers : k'.mode = .running ∨ k'.mode = .migrateOutStarted ∨
          (k'.mode = .migratedOut ∧ question.asksHistory) := by
        rcases hleft with hm | hm
        · exact Or.inr (Or.inl hm)
        · exact Or.inr (Or.inr ⟨hm, answers.resolve_left fun hm' => by simp [hm] at hm'⟩)
      rw [Ledger.query_eq_reply hk' ht (hstays.codeHash ▸ sameCode) hanswers asked,
        hsame.reply_eq]

/-- A transfer of the first token. -/
def saleTransfer : Msg :=
  .execute "secret1buyer" "secret1contract0002" collectionHash
    (toJson (CollectionMsg.transferNft "secret1friend" "0" none)) []

/-- The admin asks for the history of the collection. -/
def askHistory : CollectionQuery :=
  .withPermit (adminKey.sign ⟨["secret1contract0002"], "test", "secretdev-1", [.owner]⟩)
    (.transactionHistory none none)

/-- The collection with three tokens keeps them when it starts to move. Then it refuses purchases
with the one mode and still tells how many tokens it has, and after the import it refuses
transfers with the other mode and still tells its history. -/
theorem moving_locks_down :
    (leaving saleContract .migrateOutStarted freshContract.info).model =
      .collection saleCollection ∧
    moving.RefusedIn purchase .migrateOutStarted ∧
    moving.ledger.query moving.rules "secret1contract0002" "" (toJson CollectionQuery.numTokens) =
      .ok (Collection.countAnswer 3) ∧
    moved.RefusedIn saleTransfer .migratedOut ∧
    moved.ledger.query moved.rules "secret1contract0002" "" (toJson askHistory) =
      saleCollection.answerViewer "secret1admin" (.transactionHistory none none) := by
  obtain ⟨hstart, -⟩ := reachable_withSales.locks_down "secret1contract0002"
  obtain ⟨-, hlater⟩ := reachable_moving.locks_down "secret1contract0002"
  have hlocked := hlater (leaving saleContract .migrateOutStarted freshContract.info)
    saleCollection rfl rfl (Or.inl rfl)
  refine ⟨?_, ?_, ?_, ?_, ?_⟩
  · obtain ⟨r, hr⟩ := withSales_starts
    obtain ⟨_, l', hrun, -, -, hl'⟩ := broadcast_eq_ok.1 hr
    obtain ⟨o, happly, -⟩ := run_singleton_eq_ok.1 hrun
    obtain rfl : l' = movingLedger := congrArg Chain.ledger hl'
    have hfound : withSales.ledger.nextBlock.contract? "secret1contract0002" =
        some saleContract := by
      rw [ledger_withSales]
      rfl
    have hcomes : ∀ c : Chain, c.ComesTo c.rules c.ledger.nextBlock := fun c =>
      ⟨[], [], [], rfl, rfl⟩
    exact (hstart _ _ _ o _ saleContract saleCollection
      (leaving saleContract .migrateOutStarted freshContract.info) (hcomes withSales) happly
      hfound rfl rfl rfl nofun).2.1
  · obtain ⟨k', t, hk', -, -, -, -, hrefused, -⟩ := hlocked [] moving rfl
    obtain rfl := Option.some.inj hk'
    let d : Dealer := ⟨"secret1admin", [price], none, none, saleContract.info⟩
    let dealer : Contract := .start "secret1contract0001" dealerHash .running none (.dealer d)
    have hdealer : moving.ledger.contract? "secret1contract0001" = some dealer := rfl
    have hpays : PaysPrice d.prices [price] := ⟨price, price, rfl, by decide, rfl⟩
    exact hrefused purchase (.purchase hdealer rfl rfl rfl hpays rfl)
  · obtain ⟨k', t, hk', -, -, -, -, -, hreply⟩ := hlocked [] moving rfl
    obtain rfl := Option.some.inj hk'
    exact hreply .numTokens "" _ (Or.inl rfl) (Or.inl rfl) (ofObject?_toJson CollectionQuery.numTokens)
  · have hsound : movingImport.inNextBlock.Sound := ⟨by decide, by decide, by decide⟩
    have hran : Ledger.apply moving.rules moving.ledger.nextBlock (importCall none none) = .ok _ :=
      (apply_importCall movingImport.inNextBlock rfl none none).trans
        (Import.importTokens_of_eq hsound rfl)
    have hsent : moving.broadcast [importCall none none] (.ofGasLimit 200000) = _ :=
      broadcast_of_apply hran rfl (by decide)
    have hledger : moved.ledger = movingImport.inNextBlock.finished
        movingImport.inNextBlock.total movingImport.inNextBlock.source :=
      congrArg (fun r => r.2.ledger) hsent
    obtain ⟨k', t, hk', hcode, -, -, -, hrefused, -⟩ :=
      hlocked [.send [importCall none none] (.ofGasLimit 200000)] moved rfl
    have hsource := (Import.completed_finished hsound).source
    rw [hledger] at hk'
    obtain rfl := Option.some.inj (hsource.symm.trans hk')
    exact hrefused saleTransfer (.transfer (ofObject?_toJson _))
  · obtain ⟨k', t, hk', -, -, -, -, -, hreply⟩ :=
      hlocked [.send [importCall none none] (.ofGasLimit 200000)] moved rfl
    refine hreply (.ofViewer "secret1admin" (.transactionHistory none none)) "" _ (Or.inr rfl)
      (Or.inl rfl) ⟨_, ofObject?_toJson askHistory, ?_⟩
    have hrules : moved.rules = moving.rules := rules_broadcast _ _ _
    rw [hrules, rules_moving]
    exact LocalKey.permitCreator_sign List.lookup_cons_self (verify_adminKey _ (by simp))

end Chain

end Handover
