import Handover.Contract.Calls
import Handover.Deploy
import Handover.Proofs.Dialogue
import Handover.Proofs.Ledger.Step

/-!
# Programs that talk to a chain

`Procedure.Yields` says that a program, played against a chain, ends with a value and leaves the
chain in a certain state. It is closed under the ways in which programs are put together, so
what a program yields follows from what its calls yield.

A transaction of one message is accepted if the message goes through and its limit covers the
gas, whether that limit comes from a trial run or is the one for failed trial runs. Then nothing
else than the ledger and the list of limits changes (`Chain.sent`).
-/

namespace Handover

namespace Procedure

/-- Played against the first chain, the program ends with the value and leaves the second. -/
def Yields {α : Type} (p : Procedure α) (c : Chain) (a : α) (c' : Chain) : Prop :=
  Dialogue.play Chain.partner p.run c = (.ok a, c')

/-- Played against the first chain, the program fails and leaves the second. -/
def Fails {α : Type} (p : Procedure α) (c : Chain) (fault : Fault) (c' : Chain) : Prop :=
  Dialogue.play Chain.partner p.run c = (.error fault, c')

variable {α β : Type} {c c' c'' : Chain}

theorem yields_pure (a : α) (c : Chain) : Yields (pure a) c a c := rfl

theorem fails_throw (fault : Fault) (c : Chain) : Fails (throw fault : Procedure α) c fault c := rfl

/-- After a part that ends with a value, a program is played as what comes next. -/
theorem Yields.play_bind {p : Procedure α} {a : α} (hp : p.Yields c a c') (f : α → Procedure β) :
    Dialogue.play Chain.partner (p >>= f).run c = Dialogue.play Chain.partner (f a).run c' := by
  have hplay := Dialogue.play_bind Chain.partner (ExceptT.bindCont f) p.run c
  rw [hp] at hplay
  exact hplay

/-- A program that goes on yields what its second part does. -/
theorem Yields.bind {p : Procedure α} {f : α → Procedure β} {a : α} {b : β}
    (hp : p.Yields c a c') (hf : (f a).Yields c' b c'') : (p >>= f).Yields c b c'' :=
  (hp.play_bind f).trans hf

theorem Yields.map {p : Procedure α} {a : α} (f : α → β) (hp : p.Yields c a c') :
    (f <$> p).Yields c (f a) c' :=
  hp.bind (yields_pure (f a) c')

/-- A dialogue that cannot fail, inside a program. -/
theorem yields_lift {d : ServiceDialogue α} {a : α} (h : d.play Chain.partner c = (a, c')) :
    Yields (liftM d) c a c' := by
  have hplay := Dialogue.play_bind Chain.partner (Dialogue.done ∘ Except.ok (ε := Fault)) d c
  rw [h] at hplay
  exact hplay

theorem yields_ofExcept {e : Except Fault α} {a : α} (h : e = .ok a) (c : Chain) :
    Yields (liftM e) c a c := by
  subst h
  rfl

/-- A call that is answered yields the answer. -/
theorem yields_ofCall {d : ServiceDialogue (Except ChainFault α)} {a : α}
    (h : d.play Chain.partner c = (.ok a, c')) : (ofCall d).Yields c a c' := by
  have hplay := Dialogue.play_bind Chain.partner
    (fun r : Except ChainFault α => .done (r.mapError Fault.chain)) d c
  rw [h] at hplay
  exact hplay

/-- After a part that fails, a program fails with it. -/
theorem Fails.play_bind {p : Procedure α} {fault : Fault} (hp : p.Fails c fault c')
    (f : α → Procedure β) :
    Dialogue.play Chain.partner (p >>= f).run c = (.error fault, c') := by
  have hplay := Dialogue.play_bind Chain.partner (ExceptT.bindCont f) p.run c
  rw [hp] at hplay
  exact hplay

theorem fails_ofExcept {e : Except Fault α} {fault : Fault} (h : e = .error fault) (c : Chain) :
    Fails (liftM e) c fault c := by
  subst h
  rfl

/-- A call that is refused fails with the words of the chain. -/
theorem fails_ofCall {d : ServiceDialogue (Except ChainFault α)} {why : ChainFault}
    (h : d.play Chain.partner c = (.error why, c')) : (ofCall d).Fails c (.chain why) c' := by
  have hplay := Dialogue.play_bind Chain.partner
    (fun r : Except ChainFault α => .done (r.mapError Fault.chain)) d c
  rw [h] at hplay
  exact hplay

theorem yields_ofOption (fault : Fault) (a : α) (c : Chain) :
    (ofOption fault (some a)).Yields c a c := rfl

end Procedure

open Procedure

/-! ## Questions -/

/-- A signer that signs everything gives an owner permit for the chain. -/
theorem LocalKey.yields_ownerPermit (key : LocalKey) (permitName contract : String) (c : Chain) :
    (key.toSigner.ownerPermit permitName contract).Yields c
      (key.sign ⟨[contract], permitName, c.rules.chainId, [.owner]⟩) c :=
  (yields_ofCall rfl).bind (yields_ofExcept rfl c)

/-- A question that is answered with something that can be read. -/
theorem ContractInfo.yields_ask {α : Type} {contract : ContractInfo} {query answer : Json}
    {read : Json → Option α} {a : α} {c : Chain}
    (answered : c.ledger.query c.rules contract.address contract.codeHash query = .ok answer)
    (readable : read answer = some a) : (contract.ask query read).Yields c a c := by
  have hreply : Chain.partner (.query contract.address contract.codeHash query) c =
      (.ok answer, c) := by
    simp only [Chain.partner, answered]
  refine Yields.bind (yields_ofCall hreply) ?_
  rw [readable]
  exact yields_ofOption _ a c

/-! ## Transactions -/

/-- The padded limit is at least the gas. -/
def GasSettings.Covers (g : GasSettings) (gas : Nat) : Prop :=
  gas ≤ (g.padded (UInt64.ofNat gas)).toNat

/-- The limit that so much gas leads to : it is padded, unless trial runs fail. -/
def GasSettings.limitOn (g : GasSettings) (c : Chain) (gas : Nat) : UInt64 :=
  if c.failSimulations then g.fallbackLimit else g.padded (UInt64.ofNat gas)

/-- That limit is at least the gas. -/
def GasSettings.CoversOn (g : GasSettings) (c : Chain) (gas : Nat) : Prop :=
  gas ≤ (g.limitOn c gas).toNat

/-- Settings that cover some gas cover it on every chain that can simulate. -/
theorem GasSettings.Covers.on {g : GasSettings} {gas : Nat} (h : g.Covers gas) {c : Chain}
    (simulates : c.failSimulations = false) : g.CoversOn c gas := by
  rwa [CoversOn, limitOn, simulates, if_neg Bool.false_ne_true]

/-- The chain after a transaction that led to a ledger. -/
def Chain.sent (c : Chain) (l : Ledger) (limit : UInt64) : Chain :=
  { c with ledger := l, limits := c.limits ++ [limit] }

namespace Chain

@[simp] theorem rules_sent (c : Chain) (l : Ledger) (limit : UInt64) :
    (c.sent l limit).rules = c.rules := rfl

@[simp] theorem failSimulations_sent (c : Chain) (l : Ledger) (limit : UInt64) :
    (c.sent l limit).failSimulations = c.failSimulations := rfl

@[simp] theorem ledger_sent (c : Chain) (l : Ledger) (limit : UInt64) :
    (c.sent l limit).ledger = l := rfl

variable {c : Chain} {m : Msg} {o : Outcome} {l : Ledger}

/-- A message that goes through within its gas limit is accepted by itself. -/
theorem broadcast_of_apply (ran : Ledger.apply c.rules c.ledger.nextBlock m = .ok (o, l))
    (noUpload : m.isUpload = false) {limit : UInt64} (enough : o.gasUsed ≤ limit.toNat) :
    c.broadcast [m] (.ofGasLimit limit) =
      (.ok (response (txHash (c.limits.length + 1)) limit [o]), c.sent l limit) := by
  refine broadcast_eq_ok.2 ⟨[o], l, run_singleton_eq_ok.2 ⟨o, ran, rfl⟩, ?_, rfl, ?_⟩
  · simpa [totalGas, TxOptions.ofGasLimit] using enough
  · simp [sent, TxOptions.ofGasLimit, noUpload]

theorem Reachable.sent (h : c.Reachable)
    (ran : Ledger.apply c.rules c.ledger.nextBlock m = .ok (o, l)) (noUpload : m.isUpload = false)
    {limit : UInt64} (enough : o.gasUsed ≤ limit.toNat) : (c.sent l limit).Reachable :=
  h.of_broadcast (broadcast_of_apply ran noUpload enough)

/-- The trial run of a message that goes through sets the limit. -/
theorem play_limitFor (g : GasSettings)
    (ran : Ledger.apply c.rules c.ledger.nextBlock m = .ok (o, l)) :
    (g.limitFor [m] g.fallbackLimit).play partner c = (g.limitOn c o.gasUsed, c) := by
  have hrun : c.ledger.run c.rules [m] = .ok ([o], l) := run_singleton_eq_ok.2 ⟨o, ran, rfl⟩
  change Dialogue.play partner (Dialogue.bind (Service.simulate [m]) _) c = _
  rw [Dialogue.play_bind]
  by_cases hfail : c.failSimulations
  · simp [Service.simulate, Dialogue.play, partner, simulate, hfail, GasSettings.limitOn, pure]
  · simp [Service.simulate, Dialogue.play, partner, simulate, hfail, hrun, totalGas,
      GasSettings.limitOn, pure]

/-- A message that goes through with the gas is accepted when it is sent after a trial run. -/
theorem play_broadcast (ran : Ledger.apply c.rules c.ledger.nextBlock m = .ok (o, l))
    (noUpload : m.isUpload = false) {limit : UInt64} (enough : o.gasUsed ≤ limit.toNat) :
    (Service.broadcast [m] (.ofGasLimit limit)).play partner c =
      (.ok (response (txHash (c.limits.length + 1)) limit [o]), c.sent l limit) :=
  broadcast_of_apply ran noUpload enough

end Chain

/-- A message that goes through is executed, and what it answers is read. -/
theorem yields_execute {α : Type} {read : Json → Option α} {a : α} {c : Chain} {m : Msg}
    {o : Outcome} {l : Ledger} (g : GasSettings)
    (ran : Ledger.apply c.rules c.ledger.nextBlock m = .ok (o, l))
    (noUpload : m.isUpload = false) (covers : g.CoversOn c o.gasUsed)
    (readable : (Json.readBytes o.data).bind read = some a) :
    (execute g read [m]).Yields c
      ⟨some (Chain.response (Chain.txHash (c.limits.length + 1)) (g.limitOn c o.gasUsed) [o]),
        g.fee (g.limitOn c o.gasUsed), some a, none⟩
      (c.sent l (g.limitOn c o.gasUsed)) := by
  have hanswer : ∀ hash limit, (Chain.response hash limit [o]).answer read = .ok (some a) := by
    intro hash limit
    obtain ⟨events, data, gasUsed⟩ := o
    cases data with
    | nil =>
      have hempty : Json.readBytes [] = none := by decide
      simp [hempty] at readable
    | cons b bs => simp [TxResponse.answer, TxResponse.dataFor, Chain.response, readable]
  refine Yields.bind (yields_lift (Chain.play_limitFor g ran)) ?_
  refine Yields.bind (yields_lift (Chain.play_broadcast ran noUpload covers)) ?_
  exact Yields.bind (yields_ofExcept (hanswer _ _) _) (yields_pure _ _)

/-- A message that goes through makes an instance, and its address is found in the events. -/
theorem yields_instantiate {c : Chain} {o : Outcome} {l : Ledger} (g : GasSettings)
    (code : CodeArtifact) (initMsg : Json) (sender label : String) {address : String}
    (ran : Ledger.apply c.rules c.ledger.nextBlock
      (.instantiate sender code.codeId code.codeHash initMsg label none []) = .ok (o, l))
    (covers : g.CoversOn c o.gasUsed) (events : o.events = [Outcome.contractEvent address []]) :
    (instantiate g code initMsg ⟨sender, label, none, none⟩).Yields c ⟨address, code⟩
      (c.sent l (g.limitOn c o.gasUsed)) := by
  have haddress : ∀ hash limit,
      (Chain.response hash limit [o]).valueOf "wasm" "contract_address" = some address := by
    intro hash limit
    simp [TxResponse.valueOf, TxResponse.eventValue, TxResponse.valueIn, TxResponse.events,
      Chain.response, events, Outcome.contractEvent]
  refine Yields.bind (yields_lift (Chain.play_limitFor g ran)) ?_
  refine Yields.bind (yields_lift (Chain.play_broadcast ran rfl covers)) ?_
  simp only [haddress]
  exact yields_pure _ _

end Handover
