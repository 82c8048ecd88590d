import Handover.Ledger.Execute
import Mathlib.Tactic.Common

/-!
# What a message that goes through has found

Running a message is a sequence of lookups and checks, each of which may refuse. Each lemma
here says exactly when one of them does not, so that a message that goes through is a list of
facts about the ledger, and such facts in turn make a message go through.
-/

namespace Handover

/-! ## Sequences of steps that may be refused -/

/-- What goes on goes through if both parts do. -/
theorem bind_eq_ok {α β : Type} {x : Except Refusal α} {f : α → Except Refusal β} {b : β} :
    (x >>= f) = .ok b ↔ ∃ a, x = .ok a ∧ f a = .ok b := by
  cases x with
  | error e => simp [bind, Except.bind]
  | ok a => simp [bind, Except.bind]

theorem pure_eq_ok {α : Type} {a b : α} : (pure a : Except Refusal α) = .ok b ↔ a = b := by
  simp [pure, Except.pure]

theorem throw_eq_ok {α : Type} {why : Refusal} {b : α} :
    (throw why : Except Refusal α) = .ok b ↔ False := by
  simp [throw, throwThe, MonadExceptOf.throw]

theorem map_eq_ok {α β : Type} {x : Except Refusal α} {f : α → β} {b : β} :
    x.map f = .ok b ↔ ∃ a, x = .ok a ∧ f a = b := by
  cases x <;> simp [Except.map]

/-- A check in the middle of a sequence. -/
theorem refuse_if_eq_ok {α : Type} {p : Prop} [Decidable p] {why : Refusal}
    {f : Unit → Except Refusal α} {b : α} :
    (if p then (throw why >>= f) else f ()) = .ok b ↔ ¬p ∧ f () = .ok b := by
  by_cases h : p <;> simp [h, bind_eq_ok, throw_eq_ok]

/-! ## Lookups -/

namespace Ledger

/-- A contract is found if one stands at the address. -/
@[simp] theorem contract_eq_ok {l : Ledger} {a : String} {c : Contract} :
    l.contract a = .ok c ↔ l.contract? a = some c := by
  unfold contract
  cases l.contract? a <;> simp

/-- Code is found if its number was given out. -/
@[simp] theorem code_eq_ok {l : Ledger} {codeId : UInt64} {code : StoredCode} :
    l.code codeId = .ok code ↔ l.code? codeId = some code := by
  unfold Ledger.code
  cases l.code? codeId <;> simp

end Ledger

namespace Contract

/-- A contract passes for a dealer if it is one. -/
@[simp] theorem dealer_eq_ok {c : Contract} {d : Dealer} :
    c.dealer = .ok d ↔ c.model = .dealer d := by
  unfold dealer
  cases c.model <;> simp

/-- A contract passes for a collection if it is one. -/
@[simp] theorem collection_eq_ok {c : Contract} {s : Collection} :
    c.collection = .ok s ↔ c.model = .collection s := by
  unfold collection
  cases c.model <;> simp

/-- A contract passes for running if it is in this mode. -/
@[simp] theorem ensureRunning_eq_ok {c : Contract} {u : Unit} :
    c.ensureRunning = .ok u ↔ c.mode = .running := by
  unfold ensureRunning
  split <;> simp [*]

end Contract

/-- A message is accepted if it can be read. -/
@[simp] theorem parseMessage_eq_ok {α : Type} {read : Json → Option α} {type : String} {v : Json}
    {a : α} : parseMessage read type v = .ok a ↔ read v = some a := by
  unfold parseMessage
  cases read v <;> simp

/-! ## Permits -/

namespace ChainRules

/-- A permit that gives an owner's access to a contract, signed by an account : it verifies, is
for this chain, for the contract and as owner, and the account of its key is known. -/
@[mk_iff]
structure OwnerPermit (rules : ChainRules) (permit : Permit) (contract account : String) :
    Prop where
  verifies : permit.verify = .ok ()
  forChain : permit.params.chainId = rules.chainId
  forContract : contract ∈ permit.params.allowedTokens
  asOwner : Permission.owner ∈ permit.params.permissions
  signedBy : rules.accounts.lookup permit.signature.pubKey.value = some account

/-- A permit names its signer's account exactly if it is an owner permit of the account. -/
theorem permitCreator_eq_ok {rules : ChainRules} {permit : Permit} {contract account : String} :
    rules.permitCreator permit contract = .ok account ↔
      rules.OwnerPermit permit contract account := by
  have hscope : permit.isScopedTo contract .owner = true ↔
      contract ∈ permit.params.allowedTokens ∧ Permission.owner ∈ permit.params.permissions := by
    simp [Permit.isScopedTo]
  rw [ownerPermit_iff, ← and_assoc (a := contract ∈ _), ← hscope]
  unfold permitCreator
  cases permit.verify with
  | error why => simp
  | ok u =>
    by_cases hc : permit.params.chainId = rules.chainId
    · cases hs : permit.isScopedTo contract .owner with
      | false => simp [hc]
      | true =>
        cases rules.accounts.lookup permit.signature.pubKey.value <;> simp [hc]
    · simp [hc]

/-- A permit passes if the admin made it for this contract. -/
@[simp] theorem checkAdminPermit_eq_ok {rules : ChainRules} {permit : Permit}
    {contract admin : String} {u : Unit} :
    rules.checkAdminPermit permit contract admin = .ok u ↔
      rules.permitCreator permit contract = .ok admin := by
  unfold checkAdminPermit
  rw [bind_eq_ok]
  constructor
  · rintro ⟨account, hp, h⟩
    by_cases ha : account = admin
    · rwa [← ha]
    · simp [ha, throw_eq_ok] at h
  · intro hp
    exact ⟨admin, hp, by simp [pure_eq_ok]⟩

end ChainRules

/-! ## Funds -/

/-- The funds of a purchase are one coin, and the first price in its denomination has its
amount. -/
def PaysPrice (prices funds : List Coin) : Prop :=
  ∃ sent price, funds = [sent] ∧
    (prices.find? fun price => price.denom == sent.denom) = some price ∧ price.amount = sent.amount

/-- Funds pass if they are one of the prices. -/
@[simp] theorem Ledger.checkFunds_eq_ok {prices funds : List Coin} {u : Unit} :
    checkFunds prices funds = .ok u ↔ PaysPrice prices funds := by
  unfold checkFunds PaysPrice
  split
  · next sent =>
    cases hp : prices.find? fun price => price.denom == sent.denom with
    | none => simp [hp]
    | some price => by_cases ha : price.amount = sent.amount <;> simp [hp, ha]
  · next h => simpa using fun sent hf => absurd hf (h sent)

end Handover
