import Handover.Ledger.Refusal

/-!
# Looking things up

What messages and queries need from the ledger before they act, each with the refusal for when
it is not there, and whose permit is accepted.
-/

namespace Handover

namespace Ledger

/-- The contract of an address. -/
def contract (l : Ledger) (address : String) : Except Refusal Contract :=
  match l.contract? address with
  | some c => .ok c
  | none => .error (.noContract address)

/-- The code of a number. -/
def code (l : Ledger) (codeId : UInt64) : Except Refusal StoredCode :=
  match l.code? codeId with
  | some c => .ok c
  | none => .error (.noCode codeId)

end Ledger

namespace Contract

/-- The state of a dealer. -/
def dealer (c : Contract) : Except Refusal Dealer :=
  match c.model with
  | .dealer d => .ok d
  | .collection _ => .error (.notDealer c.address)

/-- The state of a collection. -/
def collection (c : Contract) : Except Refusal Collection :=
  match c.model with
  | .collection s => .ok s
  | .dealer _ => .error (.notCollection c.address)

/-- Refuses unless the contract is running. -/
def ensureRunning (c : Contract) : Except Refusal Unit :=
  if c.mode = .running then .ok () else .error (.unavailable c.mode)

/-- A collection with another state. -/
def withCollection (c : Contract) (s : Collection) : Contract :=
  { c with model := .collection s }

end Contract

/-- Reads a message of a type. -/
def parseMessage {α : Type} (read : Json → Option α) (type : String) (v : Json) :
    Except Refusal α :=
  match read v with
  | some a => .ok a
  | none => .error (.badMessage type)

/-- What the chain is run with : its name, the accounts of public keys, the size of a page of
tokens, and whether uploads and sends are refused. -/
structure ChainRules where
  chainId : String
  accounts : List (Bytes × String)
  pageSize : UInt32
  rejectUploads : Bool
  rejectSends : Bool
  deriving DecidableEq, Repr

namespace ChainRules

/-- The account that signed a permit which gives an owner's access to a contract. -/
def permitCreator (rules : ChainRules) (permit : Permit) (contract : String) :
    Except Refusal String :=
  match permit.verify with
  | .error why => .error (.badPermit why)
  | .ok () =>
    if permit.params.chainId ≠ rules.chainId then
      .error (.permitForOtherChain permit.params.chainId rules.chainId)
    else if !permit.isScopedTo contract .owner then
      .error (.permitOutOfScope contract permit.params.allowedTokens)
    else
      match rules.accounts.lookup permit.signature.pubKey.value with
      | some account => .ok account
      | none => .error .unknownSigner

/-- Refuses unless the admin of a contract signed the permit. -/
def checkAdminPermit (rules : ChainRules) (permit : Permit) (contract admin : String) :
    Except Refusal Unit := do
  let account ← rules.permitCreator permit contract
  if account = admin then return () else throw .notAdmin

end ChainRules

/-- What a message did, beside the change of the ledger. -/
structure Outcome where
  events : List TxEvent
  data : Bytes
  gasUsed : Nat
  deriving DecidableEq, Repr

namespace Outcome

/-- The event of a contract. -/
def contractEvent (address : String) (more : List Attribute) : TxEvent :=
  ⟨"wasm", ⟨"contract_address", address⟩ :: more⟩

end Outcome

end Handover
