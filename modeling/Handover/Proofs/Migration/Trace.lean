import Handover.Migration.Orchestrator
import Handover.Proofs.Dialogue

/-!
# What a migration asks of the service

Whatever the service replies, a migration asks for the chain once. Everything else that it asks
comes in rounds of a trial run and a transaction of the same message (`Round`), each made once.
The first round makes the new instance, and the others are calls of the import. A round whose
transaction fails is the last one, and its words are those of the fault.

What a failed trial run says is never looked at (`IgnoresTrials`).
-/

namespace Handover

namespace Procedure

variable {α β : Type} {xs : List (Exchange service)}

/-! ## Runs of programs -/

/-- With these exchanges, the program comes to the result. -/
def Runs (p : Procedure α) (xs : List (Exchange service)) (r : Except Fault α) : Prop :=
  Dialogue.Runs p.run xs r

theorem Runs.of_pure {a : α} {r : Except Fault α} (h : (pure a : Procedure α).Runs xs r) :
    xs = [] ∧ r = .ok a := by
  cases h
  exact ⟨rfl, rfl⟩

theorem Runs.of_throw {fault : Fault} {r : Except Fault α}
    (h : (throw fault : Procedure α).Runs xs r) : xs = [] ∧ r = .error fault := by
  cases h
  exact ⟨rfl, rfl⟩

theorem Runs.of_ofExcept {e r : Except Fault α} (h : (liftM e : Procedure α).Runs xs r) :
    xs = [] ∧ r = e := by
  cases e with
  | error fault => exact h.of_throw
  | ok a => exact h.of_pure

/-- The first part of a program fails, or the program goes on with its value. -/
theorem Runs.of_bind {p : Procedure α} {f : α → Procedure β} {r : Except Fault β}
    (h : (p >>= f).Runs xs r) :
    (∃ fault, p.Runs xs (.error fault) ∧ r = .error fault) ∨
      ∃ a ys zs, p.Runs ys (.ok a) ∧ (f a).Runs zs r ∧ xs = ys ++ zs :=
  Dialogue.Runs.of_bindCont h

/-- A program that asks nothing after its first part. -/
theorem Runs.of_bind_pure {p : Procedure α} {f : α → Procedure β} {g : α → Except Fault β}
    (hf : ∀ a, f a = liftM (g a)) {r : Except Fault β} (h : (p >>= f).Runs xs r) :
    ∃ e, p.Runs xs e ∧ r = e.bind g := by
  obtain ⟨fault, hp, rfl⟩ | ⟨a, _, _, hp, hrest, rfl⟩ := h.of_bind
  · exact ⟨.error fault, hp, rfl⟩
  · rw [hf] at hrest
    obtain ⟨rfl, rfl⟩ := hrest.of_ofExcept
    rw [List.append_nil]
    exact ⟨.ok a, hp, rfl⟩

/-- A dialogue that cannot fail, inside a program. -/
theorem Runs.of_bind_lift {d : ServiceDialogue α} {f : α → Procedure β} {r : Except Fault β}
    (h : (liftM d >>= f : Procedure β).Runs xs r) :
    ∃ a ys zs, d.Runs ys a ∧ (f a).Runs zs r ∧ xs = ys ++ zs := by
  obtain ⟨fault, hd, -⟩ | ⟨a, ys, zs, hd, hf, rfl⟩ := h.of_bind
  · -- A dialogue always comes to a value.
    obtain ⟨_, _, _, -, hdone, -⟩ := Dialogue.Runs.of_bind (d := d) hd
    cases hdone
  · obtain ⟨_, ys, _, hd, hdone, rfl⟩ := Dialogue.Runs.of_bind (d := d) hd
    cases hdone
    rw [List.append_nil]
    exact ⟨a, ys, zs, hd, hf, rfl⟩

/-- A call that fails is how the program fails. -/
theorem Runs.of_ofCall {d : ServiceDialogue (Except ChainFault α)} {r : Except Fault α}
    (h : (ofCall d).Runs xs r) : ∃ e, d.Runs xs e ∧ r = e.mapError Fault.chain := by
  obtain ⟨e, ys, zs, hd, hdone, rfl⟩ := Dialogue.Runs.of_bind (d := d) h
  cases hdone
  rw [List.append_nil]
  exact ⟨e, hd, rfl⟩

/-! ## Trial runs that are not looked at -/

/-- The same reply, but for the words of failed trial runs. -/
def SameButTrials (q : Call) (r r' : Except ChainFault q.Answer) : Prop :=
  r = r' ∨ ∃ msgs, q = .simulate msgs ∧ (∃ e, r = .error e) ∧ ∃ e, r' = .error e

/-- What the program asks and comes to does not depend on why trial runs fail. -/
def IgnoresTrials (p : Procedure α) : Prop :=
  Dialogue.Blind (I := service) SameButTrials p.run

theorem ignoresTrials_pure (a : α) : (pure a : Procedure α).IgnoresTrials := trivial

theorem ignoresTrials_throw (fault : Fault) : (throw fault : Procedure α).IgnoresTrials := trivial

theorem ignoresTrials_ofExcept (e : Except Fault α) : (liftM e : Procedure α).IgnoresTrials := by
  cases e <;> trivial

/-- A program that goes on ignores trials if both parts do. -/
theorem IgnoresTrials.bind {p : Procedure α} {f : α → Procedure β} (hp : p.IgnoresTrials)
    (hf : ∀ a, (f a).IgnoresTrials) : (p >>= f).IgnoresTrials := by
  refine Dialogue.Blind.bind (fun e => ?_) hp
  cases e with
  | error fault => trivial
  | ok a => exact hf a

theorem ignoresTrials_lift {d : ServiceDialogue α} (h : d.Blind SameButTrials) :
    (liftM d : Procedure α).IgnoresTrials :=
  Dialogue.Blind.bind (f := Dialogue.done ∘ Except.ok) (fun _ => trivial) h

/-- A request that is no trial run. -/
theorem blind_ask {q : Call} (h : ∀ msgs, q ≠ .simulate msgs)
    {next : Except ChainFault q.Answer → ServiceDialogue α}
    (hnext : ∀ r, (next r).Blind SameButTrials) :
    Dialogue.Blind (I := service) SameButTrials (.ask (I := service) q next) := by
  refine ⟨fun r r' hr => ?_, hnext⟩
  obtain rfl | ⟨msgs, hq, -⟩ := hr
  · rfl
  · exact absurd hq (h msgs)

end Procedure

/-- The same partner, but for the words of failed trial runs. -/
def Partner.reworded {σ : Type} (client : Partner service σ)
    (words : List Msg → σ → ChainFault → ChainFault) : Partner service σ
  | .simulate msgs, s =>
    ((client (.simulate msgs) s).1.mapError (words msgs s), (client (.simulate msgs) s).2)
  | q, s => client q s

/-- Other words for trials do not change the client. -/
theorem Partner.reworded_snd {σ : Type} (client : Partner service σ)
    (words : List Msg → σ → ChainFault → ChainFault) (q : Call) (s : σ) :
    (client.reworded words q s).2 = (client q s).2 := by
  cases q <;> rfl

theorem Partner.sameButTrials_reworded {σ : Type} (client : Partner service σ)
    (words : List Msg → σ → ChainFault → ChainFault) (q : Call) (s : σ) :
    Procedure.SameButTrials q (client.reworded words q s).1 (client q s).1 := by
  cases q with
  | simulate msgs =>
    rw [reworded]
    cases (client (.simulate msgs) s).1 with
    | error fault => exact Or.inr ⟨msgs, rfl, ⟨_, rfl⟩, fault, rfl⟩
    | ok gas => exact Or.inl rfl
  | _ => exact Or.inl rfl

open Procedure

/-! ## Rounds -/

/-- The limit that a trial run leads to. A failed one leads to the fallback. -/
def GasSettings.limitAfter (g : GasSettings) : Except ChainFault UInt64 → UInt64
  | .ok gas => g.padded gas
  | .error _ => g.fallbackLimit

/-- A message that is tried out and then sent, with both replies. -/
structure Round where
  msg : Msg
  tried : Except ChainFault UInt64
  sent : Except ChainFault TxResponse

namespace Round

/-- What is asked in a round. -/
def exchanges (g : GasSettings) (r : Round) : List (Exchange service) :=
  [⟨.simulate [r.msg], r.tried⟩,
    ⟨.broadcast [r.msg] (.ofGasLimit (g.limitAfter r.tried)), r.sent⟩]

/-- The address of the instance that was made. -/
def made (r : Round) : Option String :=
  match r.sent with
  | .ok response => response.valueOf "wasm" "contract_address"
  | .error _ => none

/-- What instantiating comes to. -/
def instantiated (code : CodeArtifact) (r : Round) : Except Fault ContractInstance :=
  match r.sent with
  | .ok response =>
    match response.valueOf "wasm" "contract_address" with
    | some address => .ok ⟨address, code⟩
    | none => .error (.missingAttribute response.txHash "contract_address")
  | .error fault => .error (instantiateFault fault)

/-- What executing comes to. -/
def executed {α : Type} (g : GasSettings) (read : Json → Option α) (r : Round) :
    Except Fault (ExecuteResult α) :=
  match r.sent with
  | .ok response => (response.answer read).map fun answer =>
      ⟨some response, g.fee (g.limitAfter r.tried), answer, none⟩
  | .error fault => .ok ⟨none, g.fee (g.limitAfter r.tried), none, some fault.text⟩

/-- The report that an answer holds. -/
def reported : Option CollectionAnswer → Except Fault ImportAnswer
  | some (.migrateTokensIn answer) => .ok answer
  | none => .error (.paging .noProgress)

/-- What a call of an import comes to. -/
def imported (r : Round) : Except Fault ImportAnswer :=
  match r.sent with
  | .ok response => (response.answer Wire.ofJson?).bind reported
  | .error fault => .error (.executeFailed fault.text)

/-- A round that made a contract comes to it, with the code. -/
theorem instantiated_eq_ok {code : CodeArtifact} {r : Round} {d : ContractInstance} :
    r.instantiated code = .ok d ↔ ∃ address, r.made = some address ∧ d = ⟨address, code⟩ := by
  unfold instantiated made
  cases r.sent with
  | error fault => simp
  | ok response =>
    cases hmade : response.valueOf "wasm" "contract_address" <;> simp [hmade, eq_comm]

theorem made_of_failed {r : Round} {fault : ChainFault} (h : r.sent = .error fault) :
    r.made = none := by
  rw [made, h]

/-- A round that failed fails with the fault of its transaction. -/
theorem instantiated_of_failed {code : CodeArtifact} {r : Round} {fault : ChainFault}
    (h : r.sent = .error fault) : r.instantiated code = .error (instantiateFault fault) := by
  rw [instantiated, h]

/-- A call of an import that failed keeps the words of the chain. -/
theorem imported_of_failed {r : Round} {fault : ChainFault} (h : r.sent = .error fault) :
    r.imported = .error (.executeFailed fault.text) := by
  rw [imported, h]

/-- Only a transaction that was accepted makes an instance. -/
theorem exists_sent_of_made {r : Round} {address : String} (h : r.made = some address) :
    ∃ response, r.sent = .ok response := by
  cases hsent : r.sent with
  | error fault => cases (made_of_failed hsent).symm.trans h
  | ok response => exact ⟨response, rfl⟩

/-- Only a transaction that was accepted reports on an import. -/
theorem exists_sent_of_imported {r : Round} {answer : ImportAnswer}
    (h : r.imported = .ok answer) : ∃ response, r.sent = .ok response := by
  cases hsent : r.sent with
  | error fault => cases (imported_of_failed hsent).symm.trans h
  | ok response => exact ⟨response, rfl⟩

end Round

section Programs

variable {α : Type} {g : GasSettings} {m : Msg} {xs : List (Exchange service)}

/-- For a gas limit one trial is made. -/
theorem runs_limitFor {limit : UInt64} (h : (g.limitFor [m] g.fallbackLimit).Runs xs limit) :
    ∃ tried, xs = [⟨.simulate [m], tried⟩] ∧ limit = g.limitAfter tried := by
  obtain ⟨tried, _, _, htried, hdone, rfl⟩ := Dialogue.Runs.of_bind h
  obtain rfl := htried.of_request
  cases tried <;> cases hdone <;> exact ⟨_, rfl, rfl⟩

/-- Trying a message out and sending it is one round, if nothing is asked after it. -/
theorem Procedure.Runs.of_round {f : UInt64 → Except ChainFault TxResponse → Procedure α}
    {result : Round → Except Fault α}
    (hf : ∀ round, f (g.limitAfter round.tried) round.sent = liftM (result round))
    {r : Except Fault α}
    (h : Runs (do
      let limit ← (g.limitFor [m] g.fallbackLimit : ServiceDialogue UInt64)
      let sent ← (Service.broadcast [m] (.ofGasLimit limit) : ServiceDialogue _)
      f limit sent) xs r) :
    ∃ round : Round, round.msg = m ∧ xs = round.exchanges g ∧ r = result round := by
  obtain ⟨limit, _, _, hlimit, hsend, rfl⟩ := h.of_bind_lift
  obtain ⟨sent, _, _, hsent, hrest, rfl⟩ := hsend.of_bind_lift
  obtain ⟨tried, rfl, rfl⟩ := runs_limitFor hlimit
  obtain rfl := hsent.of_request
  have hpure := hf ⟨m, tried, sent⟩
  obtain ⟨rfl, rfl⟩ := Runs.of_ofExcept (hpure ▸ hrest)
  exact ⟨⟨m, tried, sent⟩, rfl, rfl, rfl⟩

/-- Executing a message is one round. -/
theorem runs_execute {read : Json → Option α} {r : Except Fault (ExecuteResult α)}
    (h : (execute g read [m]).Runs xs r) :
    ∃ round : Round, round.msg = m ∧ xs = round.exchanges g ∧ r = round.executed g read := by
  refine Runs.of_round (fun round => ?_) h
  unfold Round.executed
  cases round.sent with
  | error fault => rfl
  | ok response =>
    dsimp only
    cases response.answer read <;> rfl

/-- Making an instance is one round. -/
theorem runs_instantiate {code : CodeArtifact} {initMsg : Json} {sender label : String}
    {r : Except Fault ContractInstance}
    (h : (instantiate g code initMsg ⟨sender, label, none, none⟩).Runs xs r) :
    ∃ round : Round,
      round.msg = .instantiate sender code.codeId code.codeHash initMsg label none [] ∧
      xs = round.exchanges g ∧ r = round.instantiated code := by
  refine Runs.of_round (fun round => ?_) h
  unfold Round.instantiated
  cases round.sent with
  | error fault => rfl
  | ok response =>
    dsimp only
    cases response.valueOf "wasm" "contract_address" <;> rfl

theorem GasSettings.blind_limitFor (g : GasSettings) (msgs : List Msg) (fallback : UInt64) :
    (g.limitFor msgs fallback).Blind SameButTrials := by
  constructor
  · rintro r r' (rfl | ⟨_, _, ⟨e, rfl⟩, e', rfl⟩)
    · rfl
    · rfl
  · rintro (fault | gas) <;> trivial

/-- What comes after a trial run and a transaction decides whether trial runs are ignored. -/
theorem Procedure.ignoresTrials_round {g : GasSettings} {msgs : List Msg}
    {f : UInt64 → Except ChainFault TxResponse → Procedure α}
    (hf : ∀ limit sent, (f limit sent).IgnoresTrials) : IgnoresTrials (do
      let limit ← (g.limitFor msgs g.fallbackLimit : ServiceDialogue UInt64)
      let sent ← (Service.broadcast msgs (.ofGasLimit limit) : ServiceDialogue _)
      f limit sent) := by
  refine (ignoresTrials_lift (g.blind_limitFor msgs _)).bind fun limit => ?_
  have hsend : (Service.broadcast msgs (.ofGasLimit limit)).Blind SameButTrials :=
    blind_ask (fun _ h => by cases h) fun _ => trivial
  exact (ignoresTrials_lift hsend).bind (hf limit)

/-- What is executed depends on trials for its gas limit only. -/
theorem ignoresTrials_execute (g : GasSettings) (read : Json → Option α) (msgs : List Msg) :
    (execute g read msgs).IgnoresTrials := by
  refine ignoresTrials_round fun limit sent => ?_
  cases sent with
  | error fault => exact ignoresTrials_pure _
  | ok response => exact (ignoresTrials_ofExcept _).bind fun _ => ignoresTrials_pure _

/-- What is instantiated depends on trials for its gas limit only. -/
theorem ignoresTrials_instantiate (g : GasSettings) (code : CodeArtifact) (initMsg : Json)
    (sender label : String) :
    (instantiate g code initMsg ⟨sender, label, none, none⟩).IgnoresTrials := by
  refine ignoresTrials_round fun limit sent => ?_
  cases sent with
  | error fault => exact ignoresTrials_throw _
  | ok response =>
    dsimp only
    split
    · exact ignoresTrials_pure _
    · exact ignoresTrials_throw _

end Programs

/-! ## Rounds of a migration -/

namespace ImportProgress

/-- All of the calls report more to come, and their reports fit together. -/
def GoesOn : ImportProgress → List Round → Prop
  | _, [] => True
  | s, round :: rounds => ∃ answer s', round.imported = .ok answer ∧
      s.observe answer = (s', none) ∧ s'.complete = false ∧ s'.GoesOn rounds

/-- The transactions of an import that goes on were all accepted. -/
theorem GoesOn.accepted : ∀ {s : ImportProgress} {rounds : List Round}, s.GoesOn rounds →
    ∀ round ∈ rounds, ∃ response, round.sent = .ok response
  | _, _ :: _, ⟨_, _, himported, _⟩, _, .head _ => Round.exists_sent_of_imported himported
  | _, _ :: _, ⟨_, _, _, _, _, hrest⟩, round, .tail _ h => hrest.accepted round h

end ImportProgress

namespace Orchestrator

/-- The message of a call of an import. -/
def importMsg (o : Orchestrator) (destination : ContractInfo) (admin : String) : Msg :=
  destination.executeMsg admin
    (toJson (CollectionMsg.migrateTokensIn o.settings.pagesPerCall o.settings.pageSize)) []

variable {o : Orchestrator} {destination : ContractInfo} {admin : String}
  {xs : List (Exchange service)}

/-- A call of an import is one round. -/
theorem runs_importCall {r : Except Fault ImportAnswer}
    (h : (o.importCall destination admin).Runs xs r) :
    ∃ round : Round, round.msg = o.importMsg destination admin ∧
      xs = round.exchanges o.gas ∧ r = round.imported := by
  have hpure : ∀ result : ExecuteResult CollectionAnswer,
      (do match ← (result.intoAnswer : Procedure _) with
          | some (.migrateTokensIn answer) => return answer
          | none => throw (.paging .noProgress) : Procedure ImportAnswer) =
        liftM (result.intoAnswer.bind Round.reported) := by
    intro result
    cases result.intoAnswer with
    | error fault => rfl
    | ok answer => cases answer <;> rfl
  obtain ⟨e, hcall, rfl⟩ := Runs.of_bind_pure hpure h
  obtain ⟨round, hmsg, rfl, rfl⟩ := runs_execute hcall
  refine ⟨round, hmsg, rfl, ?_⟩
  unfold Round.executed Round.imported
  cases round.sent with
  | error fault => rfl
  | ok response =>
    dsimp only
    cases response.answer (Wire.ofJson? (α := CollectionAnswer)) <;> rfl

/-- The rounds of an import that has come to some progress, with so many calls at most. -/
structure Imports (o : Orchestrator) (destination : ContractInfo) (admin : String) (calls : Nat)
    (s : ImportProgress) (rounds : List Round) (r : Except Fault ImportProgress) : Prop where
  messages : ∀ round ∈ rounds, round.msg = o.importMsg destination admin
  few : rounds.length ≤ calls
  begins : 0 < calls → rounds ≠ []
  goesOn : s.GoesOn rounds.dropLast
  failed : ∀ round ∈ rounds, ∀ fault, round.sent = .error fault →
    r = .error (.executeFailed fault.text)

namespace Imports

variable {calls : Nat} {s s' : ImportProgress} {round : Round} {rounds : List Round}
  {r : Except Fault ImportProgress}

/-- The calls are used up. -/
theorem spent : o.Imports destination admin 0 s [] r where
  messages _ h := by cases h
  few := Nat.le_refl 0
  begins hpos := absurd hpos (Nat.lt_irrefl 0)
  goesOn := trivial
  failed _ h := by cases h

/-- The loop ends with a round. -/
theorem one (message : round.msg = o.importMsg destination admin)
    (failed : ∀ fault, round.sent = .error fault → r = .error (.executeFailed fault.text)) :
    o.Imports destination admin (calls + 1) s [round] r where
  messages := by simpa using message
  few := Nat.le_add_left 1 calls
  begins _ := List.cons_ne_nil _ _
  goesOn := trivial
  failed := by simpa using failed

/-- The loop goes on after a round. -/
theorem cons {answer : ImportAnswer} (message : round.msg = o.importMsg destination admin)
    (imported : round.imported = .ok answer) (observed : s.observe answer = (s', none))
    (more : s'.complete = false) (h : o.Imports destination admin calls s' rounds r) :
    o.Imports destination admin (calls + 1) s (round :: rounds) r where
  messages := List.forall_mem_cons.2 ⟨message, h.messages⟩
  few := Nat.succ_le_succ h.few
  begins _ := List.cons_ne_nil _ _
  goesOn := by
    cases rounds with
    | nil => trivial
    | cons next rest => exact ⟨answer, s', imported, observed, more, h.goesOn⟩
  failed := by
    refine List.forall_mem_cons.2 ⟨fun fault hfault => ?_, h.failed⟩
    cases (Round.imported_of_failed hfault).symm.trans imported

end Imports

/-- The loop runs in rounds. -/
theorem runs_importFrom : ∀ (calls : Nat) (s : ImportProgress) {xs : List (Exchange service)}
    {r : Except Fault ImportProgress}, (o.importFrom destination admin calls s).Runs xs r →
      ∃ rounds, xs = rounds.flatMap (Round.exchanges o.gas) ∧
        o.Imports destination admin calls s rounds r
  | 0, s, xs, r, h => by
    obtain ⟨rfl, -⟩ := h.of_throw
    exact ⟨[], rfl, .spent⟩
  | calls + 1, s, xs, r, h => by
    obtain ⟨why, hcall, rfl⟩ | ⟨answer, _, _, hcall, hrest, rfl⟩ := h.of_bind
    · obtain ⟨round, hmsg, rfl, himported⟩ := runs_importCall hcall
      refine ⟨[round], (List.append_nil _).symm, .one hmsg fun fault hfault => ?_⟩
      cases himported.trans (Round.imported_of_failed hfault)
      rfl
    · obtain ⟨round, hmsg, rfl, himported⟩ := runs_importCall hcall
      -- Whether the loop goes on or not, this round was accepted.
      have hended : ∀ fault, round.sent = .error fault → r = .error (.executeFailed fault.text) :=
        fun fault hfault => by cases himported.trans (Round.imported_of_failed hfault)
      rcases hobserve : s.observe answer with ⟨s', _ | why⟩
      · simp only [hobserve] at hrest
        cases hmore : s'.complete with
        | true =>
          rw [if_pos hmore] at hrest
          obtain ⟨rfl, -⟩ := hrest.of_pure
          exact ⟨[round], rfl, .one hmsg hended⟩
        | false =>
          rw [if_neg (by simp [hmore])] at hrest
          obtain ⟨rounds, rfl, himports⟩ := runs_importFrom calls s' hrest
          exact ⟨round :: rounds, rfl, .cons hmsg himported.symm hobserve hmore himports⟩
      · simp only [hobserve] at hrest
        obtain ⟨rfl, -⟩ := hrest.of_throw
        exact ⟨[round], rfl, .one hmsg hended⟩

/-- The request that a reply about the chain leads to. -/
def requested (o : Orchestrator) (source : ContractInfo) (admin : Signer)
    (answered : Except ChainFault String) : Except Fault MigrationRequest :=
  (answered.mapError Fault.chain).bind fun chainId =>
    (admin.sign ⟨[source.address], o.settings.permitName, chainId, [.owner]⟩).map fun permit =>
      ⟨source, permit, o.fresh.entropyText⟩

/-- The message that makes the new instance. -/
def instantiation (o : Orchestrator) (code : CodeArtifact) (kind : ContractKind)
    (admin : String) (request : MigrationRequest) : Msg :=
  .instantiate admin code.codeId code.codeHash (toJson request.initMsg)
    (o.fresh.labelFor kind.labelBase) none []

section Start

variable {source : ContractInfo} {code : CodeArtifact} {kind : ContractKind} {admin : Signer}

/-- The request of a migration asks for the chain, and nothing else. -/
theorem runs_request {r : Except Fault MigrationRequest}
    (h : (o.request source admin).Runs xs r) :
    ∃ answered, xs = [⟨.chainId, answered⟩] ∧ r = o.requested source admin answered := by
  have hpure : ∀ permit, (pure ⟨source, permit, o.fresh.entropyText⟩ : Procedure _) =
      liftM (Except.ok (ε := Fault) (MigrationRequest.mk source permit o.fresh.entropyText)) :=
    fun _ => rfl
  obtain ⟨signed, hsigned, rfl⟩ := Runs.of_bind_pure hpure h
  obtain ⟨chain, hchain, rfl⟩ := Runs.of_bind_pure (fun _ => rfl) hsigned
  obtain ⟨answered, hanswered, rfl⟩ := hchain.of_ofCall
  obtain rfl := hanswered.of_request
  refine ⟨answered, rfl, ?_⟩
  unfold requested
  cases answered with
  | error fault => rfl
  | ok chainId =>
    dsimp only [Except.mapError, Except.bind]
    cases admin.sign _ <;> rfl

/-- A start is one round, if there is a request. -/
theorem runs_start {r : Except Fault ContractInstance}
    (h : (o.start source code kind admin).Runs xs r) :
    ∃ answered,
      (∃ fault, o.requested source admin answered = .error fault ∧ xs = [⟨.chainId, answered⟩] ∧
        r = .error fault) ∨
      ∃ request, ∃ round : Round, o.requested source admin answered = .ok request ∧
        round.msg = o.instantiation code kind admin.address request ∧
        xs = ⟨.chainId, answered⟩ :: round.exchanges o.gas ∧ r = round.instantiated code := by
  obtain ⟨fault, hrequest, rfl⟩ | ⟨request, _, _, hrequest, hrest, rfl⟩ := h.of_bind
  · obtain ⟨answered, rfl, hr⟩ := runs_request hrequest
    exact ⟨answered, Or.inl ⟨fault, hr.symm, rfl, rfl⟩⟩
  · obtain ⟨answered, rfl, hr⟩ := runs_request hrequest
    obtain ⟨round, hmsg, rfl, rfl⟩ := runs_instantiate hrest
    exact ⟨answered, Or.inr ⟨request, round, hr.symm, hmsg, rfl, rfl⟩⟩

/-- The calls of a migration : the first round, if there is a request to make it with, and those
of the import. -/
structure Calls (o : Orchestrator) (source : ContractInfo) (code : CodeArtifact)
    (kind : ContractKind) (admin : Signer) (answered : Except ChainFault String)
    (first : Option Round) (imports : List Round) (r : Except Fault ContractInstance) : Prop where
  begins : first.isSome ↔ ∃ request, o.requested source admin answered = .ok request
  message : ∀ round ∈ first, ∃ request, o.requested source admin answered = .ok request ∧
    round.msg = o.instantiation code kind admin.address request
  /-- The import begins when the first round made an instance that has tokens to import. -/
  goesOn : imports ≠ [] ↔ kind.importsTokens ∧ 0 < o.settings.maxPageCalls.toNat ∧
    ∃ address, first.bind Round.made = some address
  messages : ∀ round ∈ imports, ∃ address, first.bind Round.made = some address ∧
    round.msg = o.importMsg ⟨address, code.codeHash⟩ admin.address
  few : imports.length ≤ o.settings.maxPageCalls.toNat
  reports : ImportProgress.start.GoesOn imports.dropLast
  /-- Nothing comes after a transaction that failed. -/
  accepted : ∀ round ∈ (first.toList ++ imports).dropLast, ∃ response, round.sent = .ok response
  firstFailed : ∀ round ∈ first, ∀ fault, round.sent = .error fault →
    r = .error (instantiateFault fault)
  importFailed : ∀ round ∈ imports, ∀ fault, round.sent = .error fault →
    r = .error (.executeFailed fault.text)

namespace Calls

variable {answered : Except ChainFault String} {r : Except Fault ContractInstance} {round : Round}
  {request : MigrationRequest}

/-- Without a request nothing is sent. -/
theorem none {fault : Fault} (unsigned : o.requested source admin answered = .error fault) :
    o.Calls source code kind admin answered none [] r where
  begins := by simp [unsigned]
  message _ h := by cases h
  goesOn := by simp
  messages _ h := by cases h
  few := Nat.zero_le _
  reports := trivial
  accepted _ h := by cases h
  firstFailed _ h := by cases h
  importFailed _ h := by cases h

/-- The migration ends with the first round. -/
theorem one (signed : o.requested source admin answered = .ok request)
    (message : round.msg = o.instantiation code kind admin.address request)
    (stops : kind.importsTokens → 0 < o.settings.maxPageCalls.toNat → round.made = Option.none)
    (failed : ∀ fault, round.sent = .error fault → r = .error (instantiateFault fault)) :
    o.Calls source code kind admin answered (some round) [] r where
  begins := by simp [signed]
  message := by
    rintro _ ⟨⟩
    exact ⟨request, signed, message⟩
  goesOn := by
    refine ⟨fun h => absurd rfl h, fun ⟨hkind, hcalls, address, hmade⟩ => ?_⟩
    cases (stops hkind hcalls).symm.trans hmade
  messages _ h := by cases h
  few := Nat.zero_le _
  reports := trivial
  accepted _ h := by cases h
  firstFailed := by
    rintro _ ⟨⟩
    exact failed
  importFailed _ h := by cases h

/-- The new instance imports its tokens. -/
theorem imported {address : String} {rounds : List Round} {e : Except Fault ImportProgress}
    (signed : o.requested source admin answered = .ok request)
    (message : round.msg = o.instantiation code kind admin.address request)
    (made : round.made = some address) (importing : kind.importsTokens)
    (h : o.Imports ⟨address, code.codeHash⟩ admin.address o.settings.maxPageCalls.toNat .start
      rounds e) (failed : ∀ fault, e = .error fault → r = .error fault) :
    o.Calls source code kind admin answered (some round) rounds r where
  begins := by simp [signed]
  message := by
    rintro _ ⟨⟩
    exact ⟨request, signed, message⟩
  goesOn := by
    refine ⟨fun hne => ⟨importing, ?_, address, made⟩, fun h' => h.begins h'.2.1⟩
    exact Nat.lt_of_lt_of_le (List.length_pos_iff.2 hne) h.few
  messages later hlater := ⟨address, made, h.messages later hlater⟩
  few := h.few
  reports := h.goesOn
  accepted := by
    have hfirst := Round.exists_sent_of_made made
    cases rounds with
    | nil => intro _ h; cases h
    | cons next rest => exact List.forall_mem_cons.2 ⟨hfirst, h.goesOn.accepted⟩
  firstFailed := by
    rintro _ ⟨⟩ fault hfault
    cases (Round.made_of_failed hfault).symm.trans made
  importFailed later hlater fault hfault := failed _ (h.failed later hlater fault hfault)

/-- The words of a refusal are those of the fault. -/
theorem rejected {first : Option Round} {imports : List Round}
    (h : o.Calls source code kind admin answered first imports r) {m : String}
    {hash : Option String} {gas : Option UInt64} (hround : round ∈ first.toList ++ imports)
    (hsent : round.sent = .error (.rejected m hash gas)) : ∃ fault, r = .error fault ∧
      (fault = .instantiateFailed m ∨ fault = .executeFailed m) ∧
      fault.chainMessage = some m ∧ ∃ start, fault.message = start ++ m := by
  obtain hfirst | himports := List.mem_append.1 hround
  · have hr := h.firstFailed round (Option.mem_toList.1 hfirst) _ hsent
    exact ⟨.instantiateFailed m, hr, Or.inl rfl, rfl, "instantiate failed: ", rfl⟩
  · have hr := h.importFailed round himports _ hsent
    exact ⟨.executeFailed m, hr, Or.inr rfl, rfl, "execute failed: ", rfl⟩

end Calls

/-- A migration asks for the chain, and then it goes in rounds. -/
theorem runs_migrate {r : Except Fault ContractInstance}
    (h : (o.migrate source code kind admin).Runs xs r) :
    ∃ answered first imports,
      xs = ⟨.chainId, answered⟩ :: (first.toList ++ imports).flatMap (Round.exchanges o.gas) ∧
      o.Calls source code kind admin answered first imports r := by
  obtain ⟨fault, hstart, rfl⟩ | ⟨d, _, _, hstart, hrest, rfl⟩ := h.of_bind
  · obtain ⟨answered, ⟨_, hunsigned, rfl, -⟩ | ⟨request, round, hsigned, hmsg, rfl, hfailed⟩⟩ :=
      runs_start hstart
    · exact ⟨answered, none, [], rfl, .none hunsigned⟩
    · -- The first round came to a fault, so it made no instance.
      refine ⟨answered, some round, [], rfl, .one hsigned hmsg (fun _ _ => ?_) fun why hwhy => ?_⟩
      · cases hmade : round.made with
        | none => rfl
        | some address =>
          cases hfailed.trans (Round.instantiated_eq_ok.2 ⟨address, hmade, rfl⟩)
      · exact hfailed.trans (Round.instantiated_of_failed hwhy)
  · obtain ⟨answered, ⟨_, -, -, hfault⟩ | ⟨request, round, hsigned, hmsg, rfl, hinstance⟩⟩ :=
      runs_start hstart
    · cases hfault
    · obtain ⟨address, hmade, rfl⟩ := Round.instantiated_eq_ok.1 hinstance.symm
      by_cases hkind : kind.importsTokens
      · rw [if_pos hkind] at hrest
        have himports : ∃ e, (o.importTokens ⟨address, code.codeHash⟩ admin.address).Runs _ e ∧
            r = e.bind fun _ => .ok ⟨address, code⟩ :=
          Runs.of_bind_pure (fun _ => rfl) hrest
        obtain ⟨e, himports, rfl⟩ := himports
        obtain ⟨rounds, rfl, hrounds⟩ := runs_importFrom _ _ himports
        refine ⟨answered, some round, rounds, rfl, .imported hsigned hmsg hmade hkind hrounds ?_⟩
        rintro fault rfl
        rfl
      · rw [if_neg hkind] at hrest
        obtain ⟨rfl, rfl⟩ := hrest.of_pure
        refine ⟨answered, some round, [], rfl, .one hsigned hmsg (fun h => ?_) fun why hwhy => ?_⟩
        · exact absurd h hkind
        · cases (Round.made_of_failed hwhy).symm.trans hmade

end Start

/-! ## Failed trial runs -/

theorem ignoresTrials_importCall (o : Orchestrator) (destination : ContractInfo)
    (admin : String) : (o.importCall destination admin).IgnoresTrials := by
  refine (ignoresTrials_execute o.gas _ _).bind fun result => ?_
  refine (ignoresTrials_ofExcept _).bind fun answer => ?_
  cases answer with
  | none => exact ignoresTrials_throw _
  | some answer => exact ignoresTrials_pure _

theorem ignoresTrials_importFrom (o : Orchestrator) (destination : ContractInfo)
    (admin : String) : ∀ (calls : Nat) (s : ImportProgress),
      (o.importFrom destination admin calls s).IgnoresTrials
  | 0, _ => ignoresTrials_throw _
  | calls + 1, s => by
    refine (o.ignoresTrials_importCall destination admin).bind fun answer => ?_
    rcases s.observe answer with ⟨s', _ | why⟩
    · dsimp only
      split
      · exact ignoresTrials_pure _
      · exact ignoresTrials_importFrom o destination admin calls s'
    · exact ignoresTrials_throw _

theorem ignoresTrials_start (o : Orchestrator) (source : ContractInfo) (code : CodeArtifact)
    (kind : ContractKind) (admin : Signer) : (o.start source code kind admin).IgnoresTrials := by
  have hchain : (ofCall Service.chainId).IgnoresTrials :=
    blind_ask (fun _ h => by cases h) fun _ => trivial
  have hpermit : (admin.ownerPermit o.settings.permitName source.address).IgnoresTrials :=
    hchain.bind fun _ => ignoresTrials_ofExcept _
  have hrequest : (o.request source admin).IgnoresTrials :=
    hpermit.bind fun _ => ignoresTrials_pure _
  exact hrequest.bind fun _ => ignoresTrials_instantiate o.gas code _ _ _

/-- A migration depends on trials for its gas limits only. -/
theorem ignoresTrials_migrate (o : Orchestrator) (source : ContractInfo) (code : CodeArtifact)
    (kind : ContractKind) (admin : Signer) :
    (o.migrate source code kind admin).IgnoresTrials := by
  refine (o.ignoresTrials_start source code kind admin).bind fun destination => ?_
  split
  · exact (o.ignoresTrials_importFrom _ _ _ _).bind fun _ => ignoresTrials_pure _
  · exact ignoresTrials_pure _

/-- Whatever the service replies, a migration asks for the chain once, and then it goes in rounds
that are each made once : one for the new instance, and at most so many for the import as the
settings allow. A transaction that fails is the last thing asked, and when it was refused, the
words of the chain are those of the fault, unchanged. The words of failed trial runs change
nothing that is asked and nothing that it comes to. -/
theorem migrate_calls {σ : Type} (o : Orchestrator) (source : ContractInfo) (code : CodeArtifact)
    (kind : ContractKind) (admin : Signer) (client : Partner service σ) (s : σ) :
    (∃ answered first imports,
      ((o.migrate source code kind admin).run.record client s).2.2 =
        ⟨.chainId, answered⟩ :: (first.toList ++ imports).flatMap (Round.exchanges o.gas) ∧
      o.Calls source code kind admin answered first imports
        ((o.migrate source code kind admin).run.record client s).1 ∧
      ∀ round ∈ first.toList ++ imports, ∀ m hash gas,
        round.sent = .error (.rejected m hash gas) → ∃ fault,
          ((o.migrate source code kind admin).run.record client s).1 = .error fault ∧
          (fault = .instantiateFailed m ∨ fault = .executeFailed m) ∧
          fault.chainMessage = some m ∧ ∃ start, fault.message = start ++ m) ∧
    ∀ words : List Msg → σ → ChainFault → ChainFault,
      (o.migrate source code kind admin).run.trace (client.reworded words) s =
        (o.migrate source code kind admin).run.trace client s := by
  refine ⟨?_, fun words => ?_⟩
  · have hruns := Dialogue.runs_record client (o.migrate source code kind admin).run s
    obtain ⟨answered, first, imports, hasked, hcalls⟩ := runs_migrate hruns
    exact ⟨answered, first, imports, hasked, hcalls, fun round hround m hash gas hsent =>
      hcalls.rejected hround hsent⟩
  · exact (o.ignoresTrials_migrate source code kind admin).trace_eq
      (client.sameButTrials_reworded words) (client.reworded_snd words) s

end Orchestrator

end Handover
