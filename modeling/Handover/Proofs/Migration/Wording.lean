import Handover.Code.Upload
import Handover.Proofs.Migration.Captures

/-!
# The words of a failed transaction

A transaction that fails is reported by the program that sent it, in a fault of its own. Uploads
and instantiations report it in full, so a transaction that was not answered in time, and may
still go through, is marked as such. Executions, and with them imports, report the words of the
chain alone. The two are the same for refusals and failed queries, and different for timeouts and
failures of the transport, whose mark the words alone do not have
(`ChainFault.text_eq_message_iff`).

What a program comes to once a transaction has failed is told from its parts (`Settles.bind`). So
it is enough to look at each of the three places where a transaction is sent, and an import and a
migration follow, however many calls they make (`failed_transactions_reported`).
-/

namespace Handover

/-- No text is itself with something in front. -/
theorem ne_append_self (mark : String) (hmark : mark ≠ "") (t : String) : t ≠ mark ++ t := by
  intro h
  have hlist := congrArg String.toList h
  rw [String.toList_append, List.self_eq_append_left, String.toList_eq_nil_iff] at hlist
  exact hmark hlist

/-- The words of the chain are the full wording, unless that is marked. -/
theorem ChainFault.text_eq_message_iff {e : ChainFault} : e.text = e.message ↔
    (∃ m hash gas, e = .rejected m hash gas) ∨ ∃ t, e = .query t := by
  constructor
  · intro h
    cases e with
    | rejected m hash gas => exact Or.inl ⟨m, hash, gas, rfl⟩
    | timeout t => exact absurd h (ne_append_self "request timed out: " (by decide) t)
    | query t => exact Or.inr ⟨t, rfl⟩
    | transport t => exact absurd h (ne_append_self "transport error: " (by decide) t)
  · rintro (⟨m, hash, gas, rfl⟩ | ⟨t, rfl⟩) <;> rfl

namespace Procedure

variable {α β : Type}

/-! ## After a failed transaction -/

/-- Once a transaction has failed, the result of the program is settled. -/
def Settles (p : Procedure α) (Q : List Msg → ChainFault → Except Fault α → Prop) : Prop :=
  ∀ xs r, p.Runs xs r → ∀ msgs options e, ⟨.broadcast msgs options, .error e⟩ ∈ xs → Q msgs e r

/-- Once a transaction has failed, the program fails with these words of the chain. -/
def Reports (p : Procedure α) (words : List Msg → ChainFault → String) : Prop :=
  p.Settles fun msgs e r => ∃ fault, r = .error fault ∧ fault.chainMessage = some (words msgs e)

/-- In any case the program sends these messages. -/
def Sends (p : Procedure α) (msgs : List Msg) : Prop :=
  ∀ xs r, p.Runs xs r → ∃ options sent, ⟨.broadcast msgs options, sent⟩ ∈ xs

variable {Q : List Msg → ChainFault → Except Fault α → Prop}
  {Q' : List Msg → ChainFault → Except Fault β → Prop} {words : List Msg → ChainFault → String}

/-- A program that sends nothing. -/
theorem settles_of_asks {p : Procedure α} (hp : p.Asks (·.sent? = none)) : p.Settles Q := by
  intro xs r hrun msgs options e hmem
  cases Dialogue.Asks.of_runs hp hrun _ hmem

/-- A transaction that fails in the first part ends the program there, or in a second part that
asks nothing more. -/
theorem Settles.bind {p : Procedure α} {f : α → Procedure β} (hp : p.Settles Q)
    (hf : ∀ a, (f a).Settles Q')
    (fails : ∀ msgs e fault, Q msgs e (.error fault) → Q' msgs e (.error fault))
    (goesOn : ∀ msgs e a, Q msgs e (.ok a) → ∃ r, f a = liftM r ∧ Q' msgs e r) :
    (p >>= f).Settles Q' := by
  intro xs r hrun msgs options e hmem
  obtain ⟨fault, hfailed, rfl⟩ | ⟨a, ys, zs, hdone, hrest, rfl⟩ := hrun.of_bind
  · exact fails _ _ _ (hp _ _ hfailed _ _ _ hmem)
  · obtain hys | hzs := List.mem_append.1 hmem
    · obtain ⟨result, hlift, hsettled⟩ := goesOn _ _ _ (hp _ _ hdone _ _ _ hys)
      rw [hlift] at hrest
      obtain ⟨-, rfl⟩ := hrest.of_ofExcept
      exact hsettled
    · exact hf a _ _ hrest _ _ _ hzs

/-- A first part that sends nothing. -/
theorem Settles.of_asks_bind {p : Procedure α} {f : α → Procedure β}
    (hp : p.Asks (·.sent? = none)) (hf : ∀ a, (f a).Settles Q') : (p >>= f).Settles Q' :=
  (settles_of_asks (Q := fun _ _ _ => False) hp).bind hf (fun _ _ _ => False.elim)
    fun _ _ _ => False.elim

/-- A program fails where its first part reports a failure. -/
theorem Reports.bind {p : Procedure α} {f : α → Procedure β} (hp : p.Reports words)
    (hf : ∀ a, (f a).Reports words) : (p >>= f).Reports words := by
  refine Settles.bind hp hf ?_ ?_
  · rintro msgs e _ ⟨fault, ⟨⟩, hwords⟩
    exact ⟨_, rfl, hwords⟩
  · rintro msgs e a ⟨fault, hfault, -⟩
    cases hfault

/-- A transaction settles the result by what comes after it. -/
theorem Settles.of_broadcast {msgs : List Msg} {options : TxOptions}
    {f : Except ChainFault TxResponse → Procedure α}
    (failed : ∀ e, ∃ r, f (.error e) = liftM r ∧ Q msgs e r)
    (sent : ∀ response, (f (.ok response)).Asks (·.sent? = none)) :
    Settles (liftM (Service.broadcast msgs options) >>= f) Q := by
  intro xs r hrun msgs' options' e hmem
  obtain ⟨reply, _, zs, hsent, hrest, rfl⟩ := hrun.of_bind_lift
  obtain rfl := hsent.of_request
  cases reply with
  | error e' =>
    obtain ⟨result, hlift, hsettled⟩ := failed e'
    rw [hlift] at hrest
    obtain ⟨rfl, rfl⟩ := hrest.of_ofExcept
    cases List.mem_singleton.1 hmem
    exact hsettled
  | ok response =>
    obtain hthis | hlater := List.mem_cons.1 hmem
    · cases hthis
    · exact settles_of_asks (sent response) _ _ hrest _ _ _ hlater

/-- What begins with a broadcast sends it. -/
theorem sends_broadcast {msgs : List Msg} {options : TxOptions}
    {f : Except ChainFault TxResponse → Procedure α} :
    Sends (liftM (Service.broadcast msgs options) >>= f) msgs := by
  intro xs r hrun
  obtain ⟨sent, _, _, hsent, -, rfl⟩ := hrun.of_bind_lift
  obtain rfl := hsent.of_request
  exact ⟨options, sent, List.mem_cons_self⟩

/-- A dialogue that cannot fail comes before what is sent. -/
theorem Sends.of_lift_bind {msgs : List Msg} {d : ServiceDialogue α} {f : α → Procedure β}
    (hf : ∀ a, (f a).Sends msgs) : Sends (liftM d >>= f) msgs := by
  intro xs r hrun
  obtain ⟨a, ys, zs, -, hrest, rfl⟩ := hrun.of_bind_lift
  obtain ⟨options, sent, hmem⟩ := hf a _ _ hrest
  exact ⟨options, sent, List.mem_append_right _ hmem⟩

/-- What is sent first is sent. -/
theorem Sends.bind {msgs : List Msg} {p : Procedure α} (hp : p.Sends msgs)
    (f : α → Procedure β) : (p >>= f).Sends msgs := by
  intro xs r hrun
  obtain ⟨fault, hfailed, -⟩ | ⟨a, ys, zs, hdone, -, rfl⟩ := hrun.of_bind
  · exact hp _ _ hfailed
  · obtain ⟨options, sent, hmem⟩ := hp _ _ hdone
    exact ⟨options, sent, List.mem_append_left _ hmem⟩

end Procedure

open Procedure

/-! ## Where transactions are sent -/

section Places

variable {α : Type} {g : GasSettings} {words : List Msg → ChainFault → String}

/-- No gas limit takes a transaction. -/
theorem GasSettings.asks_limitFor (g : GasSettings) (msgs : List Msg) (fallback : UInt64) :
    Asks (·.sent? = none) (liftM (g.limitFor msgs fallback) : Procedure UInt64) := by
  refine asks_lift (Dialogue.Asks.bind (fun tried => ?_) ⟨rfl, fun _ => trivial⟩)
  cases tried <;> trivial

/-- A failed upload keeps all words of the chain. -/
theorem chainMessage_uploadFault (e : ChainFault) :
    (uploadFault e).chainMessage = some e.message := by
  cases e <;> rfl

/-- A failed upload is reported in full. -/
theorem reports_storeCode {uploader : String} {wasm : Bytes}
    (hwords : ∀ e, words [.storeCode uploader wasm] e = e.message) :
    (storeCode g uploader wasm).Reports words := by
  refine Settles.of_asks_bind (g.asks_limitFor _ _) fun limit => ?_
  refine Settles.of_broadcast (fun e => ⟨.error (uploadFault e), rfl, _, rfl, ?_⟩)
    fun response => ?_
  · rw [chainMessage_uploadFault, hwords]
  · refine (asks_ofExcept _).bind fun codeId => ?_
    exact Asks.bind (asks_ofCall rfl) fun _ => trivial

/-- An upload sends the code. -/
theorem sends_storeCode {uploader : String} {wasm : Bytes} :
    (storeCode g uploader wasm).Sends [.storeCode uploader wasm] :=
  Sends.of_lift_bind fun _ => sends_broadcast

/-- The message of an instantiation. -/
def InstantiateOptions.msg (options : InstantiateOptions) (code : CodeArtifact) (initMsg : Json) :
    Msg :=
  .instantiate options.sender code.codeId code.codeHash initMsg options.label options.admin []

/-- A failed instantiation keeps all words of the chain. -/
theorem chainMessage_instantiateFault (e : ChainFault) :
    (instantiateFault e).chainMessage = some e.message := by
  cases e <;> rfl

/-- A failed instantiation is reported in full. -/
theorem reports_instantiate {code : CodeArtifact} {initMsg : Json} {options : InstantiateOptions}
    (hwords : ∀ e, words [options.msg code initMsg] e = e.message) :
    (instantiate g code initMsg options).Reports words := by
  unfold instantiate
  extract_lets msgs send
  -- With or without a limit in the options, what is left to do is the same.
  have hsend : ∀ limit, (send limit).Reports words := by
    intro limit
    refine Settles.of_broadcast (fun e => ⟨.error (instantiateFault e), rfl, _, rfl, ?_⟩)
      fun response => ?_
    · exact (chainMessage_instantiateFault e).trans (congrArg some (hwords e).symm)
    · dsimp only
      split <;> trivial
  split
  · exact hsend _
  · exact Settles.of_asks_bind (g.asks_limitFor _ _) hsend

/-- An instantiation sends its message. -/
theorem sends_instantiate {code : CodeArtifact} {initMsg : Json} {options : InstantiateOptions} :
    (instantiate g code initMsg options).Sends [options.msg code initMsg] := by
  unfold instantiate
  split
  · exact sends_broadcast
  · exact Sends.of_lift_bind fun _ => sends_broadcast

/-- An execution does not fail, but its result holds the words of the chain alone. -/
theorem settles_execute {read : Json → Option α} {msgs : List Msg} :
    (execute g read msgs).Settles fun sent e r =>
      sent = msgs ∧ ∃ result, r = .ok result ∧ result.failure = some e.text := by
  refine Settles.of_asks_bind (g.asks_limitFor _ _) fun limit => ?_
  refine Settles.of_broadcast (fun e => ⟨.ok ⟨none, g.fee limit, none, some e.text⟩, rfl, rfl, _,
    rfl, rfl⟩) fun response => ?_
  exact (asks_ofExcept _).bind fun _ => trivial

/-- An execution sends its messages. -/
theorem sends_execute {read : Json → Option α} {msgs : List Msg} :
    (execute g read msgs).Sends msgs :=
  Sends.of_lift_bind fun _ => sends_broadcast

/-- After an execution whose failure becomes a fault, it is that of the words alone. -/
theorem reports_execute_bind {β : Type} {read : Json → Option α} {msgs : List Msg}
    {f : ExecuteResult α → Procedure β} (hwords : ∀ e, words msgs e = e.text)
    (asks : ∀ result, (f result).Asks (·.sent? = none))
    (raised : ∀ result text, result.failure = some text →
      f result = throw (.executeFailed text)) : (execute g read msgs >>= f).Reports words := by
  refine settles_execute.bind (fun result => settles_of_asks (asks result)) ?_ ?_
  · rintro _ _ _ ⟨-, _, hok, -⟩
    cases hok
  · -- The result is there to go on with, and the failure in it is raised only then.
    rintro _ e _ ⟨rfl, result, ⟨⟩, hfailure⟩
    exact ⟨.error (.executeFailed e.text), raised _ _ hfailure, _, rfl,
      congrArg some (hwords e).symm⟩

end Places

/-! ## Imports and migrations -/

namespace Orchestrator

variable {o : Orchestrator} {destination : ContractInfo} {admin : String}
  {words : List Msg → ChainFault → String}

/-- A call of an import reports the text of its failure. -/
theorem reports_importCall (hwords : ∀ e, words [o.importMsg destination admin] e = e.text) :
    (o.importCall destination admin).Reports words := by
  refine reports_execute_bind hwords (fun result => ?_) fun result text hfailure => ?_
  · refine (asks_ofExcept _).bind fun answer => ?_
    cases answer <;> trivial
  · have hraised : result.intoAnswer = .error (.executeFailed text) := by
      simp [ExecuteResult.intoAnswer, ExecuteResult.ok, hfailure, Except.map]
    rw [hraised]
    rfl

/-- Whichever call of an import fails is reported, and is the last. -/
theorem reports_importFrom (hwords : ∀ e, words [o.importMsg destination admin] e = e.text) :
    ∀ (calls : Nat) (s : ImportProgress), (o.importFrom destination admin calls s).Reports words
  | 0, _ => settles_of_asks trivial
  | calls + 1, s => by
    refine (reports_importCall hwords).bind fun answer => ?_
    rcases s.observe answer with ⟨s', _ | why⟩
    · dsimp only
      split
      · exact settles_of_asks trivial
      · exact reports_importFrom hwords calls s'
    · exact settles_of_asks trivial

/-- An import with calls to make makes one. -/
theorem sends_importTokens (h : o.settings.maxPageCalls ≠ 0) :
    (o.importTokens destination admin).Sends [o.importMsg destination admin] := by
  rw [importTokens]
  cases hcalls : o.settings.maxPageCalls.toNat with
  | zero => exact absurd (UInt32.toNat_inj.1 hcalls) h
  | succ calls => exact (sends_execute.bind _).bind _

theorem asks_request (o : Orchestrator) (source : ContractInfo) (signer : Signer) :
    (o.request source signer).Asks (·.sent? = none) := by
  have hpermit : (signer.ownerPermit o.settings.permitName source.address).Asks (·.sent? = none) :=
    Asks.bind (asks_ofCall rfl) fun chainId => asks_ofExcept _
  exact hpermit.bind fun _ => trivial

/-- A migration reports on its instantiation and on its import. -/
theorem reports_migrate {source : ContractInfo} {code : CodeArtifact} {kind : ContractKind}
    {signer : Signer}
    (hfirst : ∀ request e, words [o.instantiation code kind signer.address request] e = e.message)
    (hlater : ∀ destination e, words [o.importMsg destination signer.address] e = e.text) :
    (o.migrate source code kind signer).Reports words := by
  have hstart : (o.start source code kind signer).Reports words :=
    Settles.of_asks_bind (o.asks_request source signer) fun request =>
      reports_instantiate (hfirst request)
  refine hstart.bind fun destination => ?_
  split
  · exact (reports_importFrom (hlater _) _ _).bind fun _ => settles_of_asks trivial
  · exact settles_of_asks trivial

end Orchestrator

/-- Whether the message makes an instance. -/
def Msg.isInstantiation : Msg → Bool
  | instantiate .. => true
  | _ => false

/-- Whatever the service replies, an upload, an instantiation, an execution where only success will
do, and an import with calls to make send their transaction, and if one fails they fail with its
words. Uploads and instantiations report the full wording, executions and imports the words of the
chain alone, and a migration does the one for its instantiation and the other for its import. These
are the same text exactly for refusals and failed queries. -/
theorem failed_transactions_reported (g : GasSettings) :
    (∀ uploader wasm, (storeCode g uploader wasm).Sends [.storeCode uploader wasm] ∧
      (storeCode g uploader wasm).Reports fun _ e => e.message) ∧
    (∀ code initMsg options,
      (instantiate g code initMsg options).Sends [options.msg code initMsg] ∧
      (instantiate g code initMsg options).Reports fun _ e => e.message) ∧
    (∀ {α : Type} (read : Json → Option α) msgs,
      Sends (do liftM (← execute g read msgs).ok) msgs ∧
      Reports (do liftM (← execute g read msgs).ok) fun _ e => e.text) ∧
    (∀ (o : Orchestrator) destination admin,
      (o.settings.maxPageCalls ≠ 0 →
        (o.importTokens destination admin).Sends [o.importMsg destination admin]) ∧
      (o.importTokens destination admin).Reports fun _ e => e.text) ∧
    (∀ (o : Orchestrator) source code kind admin, (o.migrate source code kind admin).Reports
      fun msgs e => if msgs.any Msg.isInstantiation then e.message else e.text) ∧
    ∀ e : ChainFault, e.text = e.message ↔
      (∃ m hash gas, e = .rejected m hash gas) ∨ ∃ t, e = .query t := by
  refine ⟨fun uploader wasm => ⟨sends_storeCode, reports_storeCode fun _ => rfl⟩,
    fun code initMsg options => ⟨sends_instantiate, reports_instantiate fun _ => rfl⟩,
    fun read msgs => ⟨sends_execute.bind _, ?_⟩,
    fun o destination admin => ⟨Orchestrator.sends_importTokens, ?_⟩,
    fun o source code kind admin => ?_, fun e => ChainFault.text_eq_message_iff⟩
  · refine reports_execute_bind (fun _ => rfl) (fun result => asks_ofExcept _) ?_
    intro result text hfailure
    rw [ExecuteResult.ok, hfailure]
    rfl
  · exact Orchestrator.reports_importFrom (fun _ => rfl) _ _
  · exact Orchestrator.reports_migrate (fun _ _ => rfl) fun _ _ => rfl

end Handover
