import Handover.Ledger.Chain
import Handover.Proofs.Ledger.Deeds

/-!
# Steps and runs

`Step` lists everything a message can do to a ledger, with what the message found there, and
every message that goes through is one of its cases (`step_of_apply`). So what every case of
`Step` keeps is kept by every message.

`Reached` ledgers are those that blocks and messages lead to, also in the middle of a
transaction. A chain is moved by sending it transactions, accepted or not, and by whoever runs
it (`ChainMove`). The ledger of a chain that such moves lead to is reached
(`Chain.Reachable.reached`).
-/

namespace Handover

namespace Ledger

/-! ## Steps -/

/-- What a message does to a ledger when it goes through. -/
inductive Step (rules : ChainRules) (l : Ledger) : Msg → Ledger → Prop
  | storeCode {sender : String} {wasm : Bytes} (code : StoredCode)
      (accepted : rules.rejectUploads = false)
      (isCode : detectKind wasm = some code.kind)
      (hash : code.hash = Hex.encode (Sha256.digest wasm)) :
      Step rules l (.storeCode sender wasm) { l with codes := l.codes ++ [code] }
  | send {sender recipient : String} {amount : List Coin} (accepted : rules.rejectSends = false) :
      Step rules l (.send sender recipient amount) l
  | newCollection {sender codeHash label : String} {codeId : UInt64} {initMsg v : Json}
      {admin : Option String} {funds : List Coin} (init : CollectionInit)
      (code : l.code? codeId = some ⟨codeHash, .migratable⟩)
      (msg : ofJson? initMsg = some (InstantiateMsg.fresh v)) (read : ofJson? v = some init) :
      Step rules l (.instantiate sender codeId codeHash initMsg label admin funds)
        (l.afterAddress.newCollection (l.nextSite sender codeHash) init)
  | newDealer {sender codeHash label : String} {codeId : UInt64} {initMsg v : Json}
      {admin : Option String} {funds : List Coin} (init : DealerInit)
      (code : l.code? codeId = some ⟨codeHash, .dealer⟩)
      (msg : ofJson? initMsg = some (InstantiateMsg.fresh v)) (read : ofJson? v = some init)
      (childCode : l.code? init.childCodeId = some ⟨init.childCodeHash, .migratable⟩) :
      Step rules l (.instantiate sender codeId codeHash initMsg label admin funds)
        (l.afterAddress.afterNewDealer (l.nextSite sender codeHash) init.childCodeHash init)
  | moveDealer {sender codeHash label : String} {codeId : UInt64} {initMsg : Json}
      {admin : Option String} {funds : List Coin} {m : Migration}
      (code : l.code? codeId = some ⟨codeHash, .dealer⟩)
      (msg : ofJson? initMsg = some (InstantiateMsg.migrate (α := Json) m))
      (d : DealerMove rules l.afterAddress m.source) :
      Step rules l (.instantiate sender codeId codeHash initMsg label admin funds)
        (d.after (l.nextSite sender codeHash))
  | moveCollection {sender codeHash label : String} {codeId : UInt64} {initMsg : Json}
      {admin : Option String} {funds : List Coin} {m : Migration}
      (code : l.code? codeId = some ⟨codeHash, .migratable⟩)
      (msg : ofJson? initMsg = some (InstantiateMsg.migrate (α := Json) m))
      (d : CollectionMove rules l.afterAddress m.source) :
      Step rules l (.instantiate sender codeId codeHash initMsg label admin funds)
        (d.after (l.nextSite sender codeHash))
  | sell {buyer address codeHash : String} {msg : Json} {funds : List Coin}
      (sale : Sale l address funds) (hash : sale.contract.codeHash = codeHash)
      (read : ofObject? msg = some DealerMsg.purchaseMint) :
      Step rules l (.execute buyer address codeHash msg funds) (sale.after buyer)
  | transfer {sender address codeHash recipient tokenId : String} {msg : Json}
      {funds : List Coin} {memo : Option String} (t : Transfer l sender address tokenId)
      (hash : t.contract.codeHash = codeHash)
      (read : ofObject? msg = some (CollectionMsg.transferNft recipient tokenId memo)) :
      Step rules l (.execute sender address codeHash msg funds) (t.after recipient)
  | importPage {sender address codeHash : String} {msg : Json} {funds : List Coin}
      {pages pageSize : Option UInt32} (i : Import l sender address)
      (hash : i.contract.codeHash = codeHash)
      (read : ofObject? msg = some (CollectionMsg.migrateTokensIn pages pageSize))
      (more : i.stop pages (pageSize.getD rules.pageSize) ≠ i.total) :
      Step rules l (.execute sender address codeHash msg funds)
        (l.put (i.destination (i.stop pages (pageSize.getD rules.pageSize))))
  | finishImport {sender address codeHash : String} {msg : Json} {funds : List Coin}
      {pages pageSize : Option UInt32} (i : Import l sender address)
      (hash : i.contract.codeHash = codeHash)
      (read : ofObject? msg = some (CollectionMsg.migrateTokensIn pages pageSize))
      (last : i.stop pages (pageSize.getD rules.pageSize) = i.total)
      (source : Contract)
      (sourceFound : (i.opened i.total).contract? i.origin.address = some source) :
      Step rules l (.execute sender address codeHash msg funds) (i.finished i.total source)

/-- Storing code makes a step. -/
theorem step_of_storeCode {rules : ChainRules} {l l' : Ledger} {sender : String} {wasm : Bytes}
    {o : Outcome} (h : l.storeCode rules wasm = .ok (o, l')) :
    Step rules l (.storeCode sender wasm) l' := by
  unfold storeCode at h
  split at h
  · cases h
  · next hr =>
    split at h
    · cases h
    · next kind hk =>
      cases h
      exact .storeCode ⟨_, kind⟩ (by simpa using hr) hk rfl

/-- Instantiating a contract makes a step. -/
theorem step_of_instantiate {rules : ChainRules} {l l' : Ledger} {sender codeHash label : String}
    {codeId : UInt64} {initMsg : Json} {admin : Option String} {funds : List Coin} {o : Outcome}
    (h : instantiate rules l sender codeId codeHash initMsg = .ok (o, l')) :
    Step rules l (.instantiate sender codeId codeHash initMsg label admin funds) l' := by
  unfold instantiate at h
  simp only [bind_eq_ok, refuse_if_eq_ok, code_eq_ok, parseMessage_eq_ok, ne_eq, not_not] at h
  obtain ⟨⟨hash, kind⟩, hc, rfl, msg, hm, h⟩ := h
  cases kind with
  | dealer =>
    cases msg with
    | fresh v =>
      simp only [bind_eq_ok, parseMessage_eq_ok, pure_eq_ok] at h
      obtain ⟨init, hi, ⟨l₁, child⟩, hd, h⟩ := h
      obtain ⟨hcode, -, rfl⟩ := newDealer_eq_ok.1 hd
      cases h
      exact .newDealer init hc hm hi hcode
    | migrate m =>
      simp only [bind_eq_ok, pure_eq_ok, migrateDealer_eq_ok] at h
      obtain ⟨l₁, ⟨d, rfl⟩, h⟩ := h
      cases h
      exact .moveDealer hc hm d
  | migratable =>
    cases msg with
    | fresh v =>
      simp only [bind_eq_ok, parseMessage_eq_ok, pure_eq_ok] at h
      obtain ⟨init, hi, h⟩ := h
      cases h
      exact .newCollection init hc hm hi
    | migrate m =>
      simp only [bind_eq_ok, pure_eq_ok, migrateCollection_eq_ok] at h
      obtain ⟨l₁, ⟨d, rfl⟩, h⟩ := h
      cases h
      exact .moveCollection hc hm d

/-- Executing a contract makes a step. -/
theorem step_of_execute {rules : ChainRules} {l l' : Ledger} {sender address codeHash : String}
    {msg : Json} {funds : List Coin} {o : Outcome}
    (h : execute rules l sender address codeHash msg funds = .ok (o, l')) :
    Step rules l (.execute sender address codeHash msg funds) l' := by
  unfold execute at h
  simp only [bind_eq_ok, refuse_if_eq_ok, contract_eq_ok, ne_eq, not_not] at h
  obtain ⟨c, hc, hh, h⟩ := h
  cases hm : c.model with
  | dealer d =>
    simp only [hm, bind_eq_ok, parseMessage_eq_ok] at h
    obtain ⟨⟨⟩, hp, h⟩ := h
    obtain ⟨sale, -, rfl⟩ := purchaseMint_eq_ok.1 h
    obtain rfl : c = sale.contract := Option.some.inj (hc.symm.trans sale.found)
    exact .sell sale hh hp
  | collection s =>
    simp only [hm, bind_eq_ok, parseMessage_eq_ok] at h
    obtain ⟨p, hp, h⟩ := h
    cases p with
    | transferNft recipient tokenId memo =>
      obtain ⟨t, -, rfl⟩ := transferNft_eq_ok.1 h
      obtain rfl : c = t.contract := Option.some.inj (hc.symm.trans t.found)
      exact .transfer t hh hp
    | migrateTokensIn pages pageSize =>
      obtain ⟨i, -, h⟩ := importTokens_eq_ok.1 h
      obtain rfl : c = i.contract := Option.some.inj (hc.symm.trans i.found)
      rcases h with ⟨hne, rfl⟩ | ⟨heq, source, hs, rfl⟩
      · exact .importPage i hh hp hne
      · rw [heq] at hs ⊢
        exact .finishImport i hh hp heq source hs

/-- A message that goes through makes a step. -/
theorem step_of_apply {rules : ChainRules} {l l' : Ledger} {m : Msg} {o : Outcome}
    (h : apply rules l m = .ok (o, l')) : Step rules l m l' := by
  cases m with
  | storeCode sender wasm => exact step_of_storeCode h
  | instantiate sender codeId codeHash initMsg label admin funds => exact step_of_instantiate h
  | execute sender contract codeHash msg funds => exact step_of_execute h
  | send sender recipient amount =>
    change send rules l sender recipient amount = .ok (o, l') at h
    unfold send at h
    split at h
    · cases h
    · next hr =>
      cases h
      exact .send (by simpa using hr)

/-! ## Runs -/

/-- The ledger in the block after. -/
def nextBlock (l : Ledger) : Ledger :=
  { l with height := l.height + 1 }

@[simp] theorem contract?_nextBlock (l : Ledger) : l.nextBlock.contract? = l.contract? := rfl

@[simp] theorem run_nil (rules : ChainRules) (l : Ledger) :
    l.run rules [] = .ok ([], l.nextBlock) := rfl

/-- Messages that ran one after the other, each of them from one ledger to the next with `P`. -/
inductive Ran (P : Ledger → Msg → Ledger → Prop) : Ledger → List Msg → Ledger → Prop
  | nil {l : Ledger} : Ran P l [] l
  | cons {l l' l'' : Ledger} {m : Msg} {ms : List Msg} (first : P l m l') (rest : Ran P l' ms l'') :
      Ran P l (m :: ms) l''

/-- Messages that go through make their steps. -/
theorem ran_of_applyFrom {rules : ChainRules} :
    ∀ {msgs : List Msg} {i : Nat} {l l' : Ledger} {os : List Outcome},
      applyFrom rules i l msgs = .ok (os, l') → Ran (Step rules) l msgs l'
  | [], _, _, _, _, h => by
    cases h
    exact .nil
  | m :: ms, i, l, l', os, h => by
    rw [applyFrom] at h
    cases hm : apply rules l m with
    | error why => simp [hm] at h
    | ok r =>
      obtain ⟨o, l₁⟩ := r
      cases hms : applyFrom rules (i + 1) l₁ ms with
      | error why => simp [hm, hms] at h
      | ok r =>
        obtain ⟨os', l₂⟩ := r
        simp only [hm, hms, Except.ok.injEq, Prod.mk.injEq] at h
        obtain ⟨-, rfl⟩ := h
        exact .cons (step_of_apply hm) (ran_of_applyFrom hms)

/-- The messages of a transaction that goes through make their steps in a new block. -/
theorem ran_of_run {rules : ChainRules} {l l' : Ledger} {msgs : List Msg} {os : List Outcome}
    (h : l.run rules msgs = .ok (os, l')) : Ran (Step rules) l.nextBlock msgs l' :=
  ran_of_applyFrom h

/-- Messages that go through do so one part after the other. -/
theorem exists_of_applyFrom_append {rules : ChainRules} {msgs : List Msg} :
    ∀ {before : List Msg} {i : Nat} {l l' : Ledger} {os : List Outcome},
      applyFrom rules i l (before ++ msgs) = .ok (os, l') →
      ∃ os₁ l₁ os₂, applyFrom rules i l before = .ok (os₁, l₁) ∧
        applyFrom rules (i + before.length) l₁ msgs = .ok (os₂, l')
  | [], i, l, l', os, h => ⟨[], l, os, rfl, h⟩
  | m :: ms, i, l, l', os, h => by
    rw [List.cons_append, applyFrom] at h
    cases hm : apply rules l m with
    | error why => simp [hm] at h
    | ok r =>
      obtain ⟨o, l₁⟩ := r
      cases hms : applyFrom rules (i + 1) l₁ (ms ++ msgs) with
      | error why => simp [hm, hms] at h
      | ok r =>
        obtain ⟨os', l₂⟩ := r
        simp only [hm, hms, Except.ok.injEq, Prod.mk.injEq] at h
        obtain ⟨-, rfl⟩ := h
        obtain ⟨os₁, l₃, os₂, hbefore, hrest⟩ := exists_of_applyFrom_append hms
        refine ⟨o :: os₁, l₃, os₂, ?_, ?_⟩
        · simp only [applyFrom, hm, hbefore]
        · rwa [List.length_cons, Nat.add_comm ms.length, ← Nat.add_assoc]

/-- Each message of a transaction that goes through does so after those before it. -/
theorem exists_apply_of_run {rules : ChainRules} {l l' : Ledger} {before rest : List Msg} {m : Msg}
    {os : List Outcome} (h : l.run rules (before ++ m :: rest) = .ok (os, l')) :
    ∃ os₁ l₁ o l₂, l.run rules before = .ok (os₁, l₁) ∧ apply rules l₁ m = .ok (o, l₂) := by
  obtain ⟨os₁, l₁, os₂, hbefore, hrest⟩ := exists_of_applyFrom_append h
  rw [applyFrom] at hrest
  cases hm : apply rules l₁ m with
  | error why => simp [hm] at hrest
  | ok r => exact ⟨os₁, l₁, r.1, r.2, hbefore, hm⟩

/-- A ledger that blocks and messages lead to. -/
inductive Reached : Ledger → Prop
  | empty : Reached .empty
  | block {l : Ledger} (h : Reached l) : Reached l.nextBlock
  | step {rules : ChainRules} {l l' : Ledger} {m : Msg} (h : Reached l) (hs : Step rules l m l') :
      Reached l'

/-- Runs lead from reached ledgers to reached ledgers. -/
theorem Ran.reached {rules : ChainRules} {l l' : Ledger} {msgs : List Msg}
    (h : Ran (Step rules) l msgs l') (hl : Reached l) : Reached l' := by
  induction h with
  | nil => exact hl
  | cons first _ ih => exact ih (hl.step first)

/-- What every step from a reached ledger has, the steps of a run from a reached ledger have. -/
theorem Ran.imp {rules : ChainRules} {P : Ledger → Msg → Ledger → Prop}
    (hP : ∀ l m l', Reached l → Step rules l m l' → P l m l') {l l' : Ledger} {msgs : List Msg}
    (h : Ran (Step rules) l msgs l') (hl : Reached l) : Ran P l msgs l' := by
  induction h with
  | nil => exact .nil
  | cons first _ ih => exact .cons (hP _ _ _ hl first) (ih (hl.step first))

/-- What holds of a ledger and itself, and goes on along steps, relates the ends of a run. -/
theorem Ran.fold {P : Ledger → Msg → Ledger → Prop} {R : Ledger → Ledger → Prop}
    (refl : ∀ l, R l l) (next : ∀ l m l' l'', P l m l' → R l' l'' → R l l'') {l l' : Ledger}
    {msgs : List Msg} (h : Ran P l msgs l') : R l l' := by
  induction h with
  | nil => exact refl _
  | cons first _ ih => exact next _ _ _ _ first ih

end Ledger

/-! ## Chains -/

/-- What can be done to a chain : a transaction is sent, an account of a key is made known, or
the chain is run in another way. -/
inductive ChainMove where
  | send (msgs : List Msg) (options : TxOptions)
  | register (key : LocalKey)
  | tune (pageSize : UInt32) (rejectUploads rejectSends failSimulations : Bool)

namespace Chain

/-- The chain after a move. -/
def after (c : Chain) : ChainMove → Chain
  | .send msgs options => (c.broadcast msgs options).2
  | .register key => c.register key
  | .tune pageSize rejectUploads rejectSends failSimulations =>
    { c with
      rules := { c.rules with pageSize, rejectUploads, rejectSends }
      failSimulations }

/-- A chain that moves from the start lead to. -/
inductive Reachable : Chain → Prop
  | start : Reachable Chain.start
  | move {c : Chain} (h : Reachable c) (m : ChainMove) : Reachable (c.after m)

/-- A transaction, accepted or not, leads on to a reachable chain. -/
theorem Reachable.of_broadcast {c c' : Chain} (h : c.Reachable) {msgs : List Msg}
    {options : TxOptions} {r : Except ChainFault TxResponse}
    (hb : c.broadcast msgs options = (r, c')) : c'.Reachable := by
  have hmove := h.move (.send msgs options)
  rwa [after, hb] at hmove

/-- A transaction is accepted exactly if its messages go through within its gas limit. -/
theorem broadcast_eq_ok {c c' : Chain} {msgs : List Msg} {options : TxOptions} {r : TxResponse} :
    c.broadcast msgs options = (.ok r, c') ↔
      ∃ outcomes l', c.ledger.run c.rules msgs = .ok (outcomes, l') ∧
        totalGas outcomes ≤ options.gasLimit.toNat ∧
        response (txHash (c.limits.length + 1)) options.gasLimit outcomes = r ∧
        { c with
          ledger := l'
          limits := c.limits ++ [options.gasLimit]
          uploads := c.uploads + msgs.countP Msg.isUpload } = c' := by
  unfold broadcast
  cases hr : c.ledger.run c.rules msgs with
  | error why => simp [hr]
  | ok r' =>
    obtain ⟨outcomes, l'⟩ := r'
    by_cases hg : options.gasLimit.toNat < totalGas outcomes
    · have hg' : ¬totalGas outcomes ≤ options.gasLimit.toNat := by omega
      simp [hr, hg, hg']
    · have hg' : totalGas outcomes ≤ options.gasLimit.toNat := by omega
      simp [hr, hg, hg']

/-- A transaction of one message goes through if the message does, in the next block. -/
theorem run_singleton_eq_ok {rules : ChainRules} {l l' : Ledger} {m : Msg} {os : List Outcome} :
    l.run rules [m] = .ok (os, l') ↔
      ∃ o, Ledger.apply rules l.nextBlock m = .ok (o, l') ∧ os = [o] := by
  change Ledger.applyFrom rules 0 l.nextBlock [m] = .ok (os, l') ↔ _
  cases hm : Ledger.apply rules l.nextBlock m with
  | error why => simp [Ledger.applyFrom, hm]
  | ok r =>
    obtain ⟨o, l₁⟩ := r
    simp only [Ledger.applyFrom, hm, Except.ok.injEq, Prod.mk.injEq]
    constructor
    · rintro ⟨rfl, rfl⟩
      exact ⟨o, ⟨rfl, rfl⟩, rfl⟩
    · rintro ⟨o', ⟨rfl, rfl⟩, rfl⟩
      exact ⟨rfl, rfl⟩

/-- A transaction of one message is accepted exactly if that goes through with the gas. -/
theorem exists_broadcast_singleton {c : Chain} {m : Msg} {options : TxOptions} :
    (∃ r c', c.broadcast [m] options = (.ok r, c')) ↔
      ∃ o l', Ledger.apply c.rules c.ledger.nextBlock m = .ok (o, l') ∧
        o.gasUsed ≤ options.gasLimit.toNat := by
  simp only [broadcast_eq_ok, run_singleton_eq_ok]
  constructor
  · rintro ⟨_, _, _, l', ⟨o, ho, rfl⟩, hg, -, -⟩
    exact ⟨o, l', ho, by simpa [totalGas] using hg⟩
  · rintro ⟨o, l', ho, hg⟩
    exact ⟨_, _, [o], l', ⟨o, ho, rfl⟩, by simpa [totalGas] using hg, rfl, rfl⟩

/-- A transaction of one message leads to the ledger that the message leads to. -/
theorem exists_apply_of_broadcast {c c' : Chain} {m : Msg} {options : TxOptions} {r : TxResponse}
    (h : c.broadcast [m] options = (.ok r, c')) :
    ∃ o, Ledger.apply c.rules c.ledger.nextBlock m = .ok (o, c'.ledger) := by
  obtain ⟨_, l', hran, -, -, rfl⟩ := broadcast_eq_ok.1 h
  obtain ⟨o, ho, -⟩ := run_singleton_eq_ok.1 hran
  exact ⟨o, ho⟩

/-- An accepted transaction runs its messages. -/
theorem ran_of_broadcast {c c' : Chain} {msgs : List Msg} {options : TxOptions} {r : TxResponse}
    (h : c.broadcast msgs options = (.ok r, c')) :
    Ledger.Ran (Ledger.Step c.rules) c.ledger.nextBlock msgs c'.ledger := by
  obtain ⟨outcomes, l', hr, -, -, rfl⟩ := broadcast_eq_ok.1 h
  exact Ledger.ran_of_run hr

/-- No transaction changes the rules. -/
@[simp] theorem rules_broadcast (c : Chain) (msgs : List Msg) (options : TxOptions) :
    (c.broadcast msgs options).2.rules = c.rules := by
  simp only [broadcast]
  cases c.ledger.run c.rules msgs with
  | error why => rfl
  | ok r => dsimp only; split <;> rfl

@[simp] theorem failSimulations_broadcast (c : Chain) (msgs : List Msg) (options : TxOptions) :
    (c.broadcast msgs options).2.failSimulations = c.failSimulations := by
  simp only [broadcast]
  cases c.ledger.run c.rules msgs with
  | error why => rfl
  | ok r => dsimp only; split <;> rfl

@[simp] theorem rules_after_send (c : Chain) (msgs : List Msg) (options : TxOptions) :
    (c.after (.send msgs options)).rules = c.rules :=
  rules_broadcast c msgs options

@[simp] theorem rules_after_register (c : Chain) (key : LocalKey) :
    (c.after (.register key)).rules =
      { c.rules with accounts := (key.publicKey, key.address) :: c.rules.accounts } := rfl

/-- A transaction that goes through within its gas leads where its messages lead. -/
theorem ledger_after_send {c : Chain} {msgs : List Msg} {options : TxOptions}
    {outcomes : List Outcome} {l : Ledger} (ran : c.ledger.run c.rules msgs = .ok (outcomes, l))
    (enough : totalGas outcomes ≤ options.gasLimit.toNat) :
    (c.after (.send msgs options)).ledger = l := by
  rw [after, broadcast_eq_ok.2 ⟨outcomes, l, ran, enough, rfl, rfl⟩]

/-- A transaction that is not accepted leaves the ledger as it was. -/
theorem ledger_of_broadcast_error {c c' : Chain} {msgs : List Msg} {options : TxOptions}
    {fault : ChainFault} (h : c.broadcast msgs options = (.error fault, c')) :
    c'.ledger = c.ledger := by
  unfold broadcast at h
  cases hr : c.ledger.run c.rules msgs with
  | error why =>
    simp only [hr, Prod.mk.injEq] at h
    rw [← h.2]
  | ok r' =>
    obtain ⟨outcomes, l'⟩ := r'
    by_cases hg : options.gasLimit.toNat < totalGas outcomes
    · simp only [hr, hg, if_true, Prod.mk.injEq] at h
      rw [← h.2]
    · simp [hr, hg] at h

/-- A move leaves the ledger as it was, or messages run in a new block. -/
theorem ledger_after (c : Chain) (m : ChainMove) : (c.after m).ledger = c.ledger ∨
    ∃ rules msgs, Ledger.Ran (Ledger.Step rules) c.ledger.nextBlock msgs (c.after m).ledger := by
  cases m with
  | send msgs options =>
    rcases hb : c.broadcast msgs options with ⟨fault | r, c'⟩
    · exact Or.inl (by simpa [after, hb] using ledger_of_broadcast_error hb)
    · exact Or.inr ⟨c.rules, msgs, by simpa [after, hb] using ran_of_broadcast hb⟩
  | register key => exact Or.inl rfl
  | tune pageSize rejectUploads rejectSends failSimulations => exact Or.inl rfl

/-- The ledger of a reachable chain is reached. -/
theorem Reachable.reached {c : Chain} (h : c.Reachable) : c.ledger.Reached := by
  induction h with
  | start => exact .empty
  | @move c _ m ih =>
    rcases c.ledger_after m with hsame | ⟨rules, msgs, hran⟩
    · exact hsame ▸ ih
    · exact hran.reached ih.block

/-! ## A chain with a dealer -/

/-- A dealer contract, as it is uploaded. -/
def dealerWasm : Bytes :=
  [31, 139, 8, 0, 0, 0, 0, 0, 2, 3, 99, 72, 44, 206, 101, 100, 96, 96, 40, 206, 203, 44, 48, 55,
    50, 212, 77, 73, 77, 204, 73, 45, 2, 0, 86, 86, 2, 101, 22, 0, 0, 0]

/-- A collection contract, as it is uploaded. -/
def collectionWasm : Bytes :=
  [31, 139, 8, 0, 0, 0, 0, 0, 2, 3, 99, 72, 44, 206, 101, 100, 96, 96, 40, 206, 203, 44, 48, 55,
    50, 212, 205, 205, 76, 47, 74, 44, 73, 76, 202, 73, 5, 0, 29, 149, 218, 107, 26, 0, 0, 0]

/-- The hash of the dealer contract. -/
def dealerHash : String := "9e29f198160ff79f68991ff209d1b476910e5df9f31a3539153eb4bc8afbc814"

/-- The hash of the collection contract. -/
def collectionHash : String := "66c66e7bafc61b16b4f4c6204dcc6496cafd097e8dcfca4c45deda11c3bd82d7"

/-- What a token costs. -/
def price : Coin := ⟨⟨2000000, by decide⟩, "uscrt"⟩

/-- A chain on which one dealer was made, with its collection. -/
def withDealer : Chain :=
  (start.after (.send [.storeCode "secret1admin" dealerWasm,
    .storeCode "secret1admin" collectionWasm] (.ofGasLimit 4000000))).after
      (.send [.instantiate "secret1admin" 1 dealerHash (toJson (InstantiateMsg.fresh
        (DealerInit.mk collectionHash 2 "collection" [price] none none none "entropy" none)))
          "dealer" none []] (.ofGasLimit 400000))

theorem reachable_withDealer : withDealer.Reachable :=
  (Reachable.start.move _).move _

theorem rules_withDealer : withDealer.rules = ⟨"secretdev-1", [], 2, false, false⟩ := by
  rw [withDealer, rules_after_send, rules_after_send]
  rfl

/-- The message that buys a token from a dealer. -/
def purchaseAt (a : String) : Msg :=
  .execute "secret1buyer" a dealerHash (toJson DealerMsg.purchaseMint) [price]

/-- A purchase at the dealer. -/
def firstSale : Except ChainFault TxResponse × Chain :=
  withDealer.broadcast [purchaseAt "secret1contract0001"] (.ofGasLimit 300000)

/-! ## A chain on which contracts moved -/

/-- The key of the account that made the dealer. -/
def adminKey : LocalKey := ⟨"secret1admin", 1, by decide +kernel⟩

/-- The owner's permit of that account for a contract, with the signature under it. -/
def adminPermit (a : String) (signature : Ecdsa.Signature) : Permit where
  params := ⟨[a], "test", "secretdev-1", [.owner]⟩
  signature := ⟨⟨PubKey.secp256k1, adminKey.publicKey⟩, signature.toBytes⟩

/-- The permit for the dealer. -/
def dealerPermit : Permit :=
  adminPermit "secret1contract0001" ⟨
    49515361804101888411125539459302447820863382310650137936702651336743215558516,
    23299878602623450686443073386386489448304060060514122863201341554563234414475⟩

/-- The permit for its collection. -/
def collectionPermit : Permit :=
  adminPermit "secret1contract0002" ⟨
    9086365130978166085127654730247392417431121577084145520720475759636813174801,
    10398818761634407264013678483295269704594249616920011900868313068767305542731⟩

/-- A migration of the dealer. -/
def dealerMigration : Migration :=
  ⟨⟨"secret1contract0001", dealerHash, dealerPermit⟩, "entropy"⟩

/-- The message that asks for a migration. -/
def migrationMsg (codeId : UInt64) (codeHash : String) (m : Migration) : Msg :=
  .instantiate "secret1admin" codeId codeHash (toJson (InstantiateMsg.migrate (α := Json) m))
    "moved" none []

/-- The message that imports all the tokens of the collection. -/
def importRest : Msg :=
  .execute "secret1admin" "secret1contract0005" collectionHash
    (toJson (CollectionMsg.migrateTokensIn none none)) []

/-- A chain on which a dealer moved while its collection does, next to the dealer of another
account. -/
def crossing : Chain :=
  (withDealer.after (.register adminKey)).after (.send
    [purchaseAt "secret1contract0001",
      .instantiate "secret1rival" 1 dealerHash (toJson (InstantiateMsg.fresh
        (DealerInit.mk collectionHash 2 "collection" [price] none none none "entropy" none)))
          "rival" none [],
      migrationMsg 2 collectionHash
        ⟨⟨"secret1contract0002", collectionHash, collectionPermit⟩, "entropy"⟩,
      migrationMsg 1 dealerHash dealerMigration] (.ofGasLimit 2000000))

theorem reachable_crossing : crossing.Reachable :=
  (reachable_withDealer.move _).move _

/-- The chain after the import. It told the old dealer of the new collection, not the new one. -/
def crossed : Chain :=
  crossing.after (.send [importRest] (.ofGasLimit 200000))

theorem reachable_crossed : crossed.Reachable :=
  reachable_crossing.move _

/-- The collection of the dealer, with the token that it sold. -/
def soldCollection : Collection :=
  ⟨"PurchasableSnip721", "PUR721", "secret1admin", "secret1contract0001",
    ["secret1contract0001"], ["secret1contract0001"],
    [⟨"0", "secret1buyer", none, none, "secret1contract0001", "secret1contract0001", 1700000018⟩],
    0, [⟨0, 3, "0", .mint "secret1contract0001" "secret1buyer"⟩]⟩

/-- The contract of that collection. The new dealer mints in it. -/
def oldCollection (mode : Mode) : Contract :=
  ⟨"secret1contract0002", collectionHash, mode, none, some ⟨"secret1contract0005", collectionHash⟩,
    .collection { soldCollection with
      minters := ["secret1contract0006"]
      notify := ["secret1contract0006"] }⟩

/-- The dealer that moved, with a collection. -/
def oldDealer (child : String) : Contract :=
  ⟨"secret1contract0001", dealerHash, .migratedOut, none, some ⟨"secret1contract0006", dealerHash⟩,
    .dealer ⟨"secret1admin", [price], none, none, ⟨child, collectionHash⟩⟩⟩

/-- The collection of the other account, with what it sold. -/
def rivalCollection (tokens : List Token) (history : List HistoryEntry) : Contract :=
  .start "secret1contract0004" collectionHash .running none (.collection
    { Collection.fresh "PurchasableSnip721" "PUR721" "secret1rival" "secret1contract0003"
        ["secret1contract0003"] ["secret1contract0003"] with
      tokens
      history })

/-- The dealer of the other account. -/
def rivalDealer : Contract :=
  .start "secret1contract0003" dealerHash .running none (.dealer
    ⟨"secret1rival", [price], none, none, ⟨"secret1contract0004", collectionHash⟩⟩)

/-- The new collection before the import. -/
def emptyCollection : Collection :=
  .fresh "PurchasableSnip721" "PUR721" "secret1admin" "secret1admin" ["secret1contract0001"]
    ["secret1contract0001"]

/-- The new collection after the import. -/
def filledCollection : Collection :=
  { emptyCollection with
    tokens := [⟨"0", "secret1buyer", none, none, "secret1admin", "secret1contract0005", 1700000024⟩]
    importCursor := 1
    history := [⟨0, 4, "0", .mint "secret1contract0005" "secret1buyer"⟩] }

/-- The contract that takes the place of the collection. -/
def newCollection (mode : Mode) (s : Collection) : Contract :=
  .start "secret1contract0005" collectionHash mode
    (some ⟨"secret1contract0002", collectionHash⟩) (.collection s)

/-- The contract that takes the place of the dealer. -/
def newDealer : Contract :=
  .start "secret1contract0006" dealerHash .running (some ⟨"secret1contract0001", dealerHash⟩)
    (.dealer ⟨"secret1admin", [price], none, none, ⟨"secret1contract0002", collectionHash⟩⟩)

/-- The ledger before the import, with the collection of the other account. -/
def crossingLedger (rival : Contract) (height : Nat) : Ledger :=
  ⟨[⟨dealerHash, .dealer⟩, ⟨collectionHash, .migratable⟩],
    [oldCollection .migrateOutStarted, oldDealer "secret1contract0002", rival, rivalDealer,
      newCollection .migrateDataIn emptyCollection, newDealer], height, 6⟩

/-- The ledger after the import. -/
def crossedLedger (rival : Contract) : Ledger :=
  ⟨[⟨dealerHash, .dealer⟩, ⟨collectionHash, .migratable⟩],
    [oldCollection .migratedOut, oldDealer "secret1contract0005", rival, rivalDealer,
      newCollection .running filledCollection, newDealer], 4, 6⟩

set_option maxRecDepth 100000 in
theorem ledger_crossing : crossing.ledger = crossingLedger (rivalCollection [] []) 3 := by
  decide +kernel

theorem rules_crossing : crossing.rules =
    ⟨"secretdev-1", [(adminKey.publicKey, "secret1admin")], 2, false, false⟩ := by
  rw [crossing, rules_after_send, rules_after_register, rules_withDealer]
  rfl

/-- The import leads to the ledger after it, within the gas limit. -/
theorem run_importRest : ∃ outcomes, crossing.ledger.run crossing.rules [importRest] =
    .ok (outcomes, crossedLedger (rivalCollection [] [])) ∧
      totalGas outcomes ≤ (TxOptions.ofGasLimit 200000).gasLimit.toNat := by
  have hran : (((crossingLedger (rivalCollection [] []) 3).run
      ⟨"secretdev-1", [(adminKey.publicKey, "secret1admin")], 2, false, false⟩ [importRest]).map
        fun r => (r.2, totalGas r.1)) = .ok (crossedLedger (rivalCollection [] []), 160000) := by
    decide +kernel
  rw [← rules_crossing, ← ledger_crossing] at hran
  obtain ⟨⟨outcomes, l⟩, hr, hsame⟩ := map_eq_ok.1 hran
  obtain ⟨rfl, hgas⟩ := Prod.mk.inj hsame
  exact ⟨outcomes, hr, hgas ▸ by decide⟩

/-- The import is accepted. -/
theorem crossing_imports : ∃ r, crossing.broadcast [importRest] (.ofGasLimit 200000) =
    (.ok r, crossed) := by
  obtain ⟨outcomes, hran, enough⟩ := run_importRest
  obtain ⟨r, c, hr⟩ : ∃ r c, crossing.broadcast [importRest] (.ofGasLimit 200000) = (.ok r, c) :=
    ⟨_, _, broadcast_eq_ok.2 ⟨outcomes, _, hran, enough, rfl, rfl⟩⟩
  exact ⟨r, by rw [crossed, after, hr]⟩

theorem rules_crossed : crossed.rules =
    ⟨"secretdev-1", [(adminKey.publicKey, "secret1admin")], 2, false, false⟩ := by
  rw [crossed, rules_after_send, rules_crossing]

theorem ledger_crossed : crossed.ledger = crossedLedger (rivalCollection [] []) := by
  obtain ⟨outcomes, hran, enough⟩ := run_importRest
  exact ledger_after_send hran enough

end Chain

end Handover
