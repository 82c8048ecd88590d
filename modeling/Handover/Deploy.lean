import Handover.Execute

/-!
# Instantiating contracts

An instance is made from stored code in one transaction. Labels have to be unique on the
chain, and the message of a migration carries randomness for one use, so both end in a number
that is drawn afresh (`Fresh`).
-/

namespace Handover

/-- An instance and the code it runs. -/
structure ContractInstance where
  address : String
  code : CodeArtifact
  deriving DecidableEq, Repr

/-- Address and code hash of an instance. -/
def ContractInstance.info (c : ContractInstance) : ContractInfo :=
  ⟨c.address, c.code.codeHash⟩

/-- What an instance is made with, besides code and message. -/
structure InstantiateOptions where
  sender : String
  label : String
  admin : Option String
  /-- Taken without a trial run when it is given. -/
  gasLimit : Option UInt64
  deriving DecidableEq, Repr

/-- How a failed instantiation is reported : a refusal in the words of the chain alone,
everything else in full. -/
def instantiateFault : ChainFault → Fault
  | .rejected message .. => .instantiateFailed message
  | fault => .instantiateFailed fault.message

/-- Makes an instance of code with a message that is passed on as it is. -/
def instantiate (g : GasSettings) (code : CodeArtifact) (initMsg : Json)
    (options : InstantiateOptions) : Procedure ContractInstance := do
  let msgs : List Msg := [.instantiate options.sender code.codeId code.codeHash initMsg
    options.label options.admin []]
  let limit ← match options.gasLimit with
    | some limit => pure limit
    | none => (g.limitFor msgs g.fallbackLimit : ServiceDialogue UInt64)
  match ← (Service.broadcast msgs (.ofGasLimit limit) : ServiceDialogue _) with
  | .error fault => throw (instantiateFault fault)
  | .ok response =>
    match response.valueOf "wasm" "contract_address" with
    | some address => return ⟨address, code⟩
    | none => throw (.missingAttribute response.txHash "contract_address")

/-! ## Randomness -/

/-- Numbers drawn afresh, one for labels and one for entropy. -/
structure Fresh where
  /-- Up to a million. -/
  label : Nat
  /-- The text of a number from `0` to below `1`. -/
  entropy : String
  deriving DecidableEq, Repr

namespace Fresh

/-- What entropy starts with. -/
def entropyStart : String :=
  "sometimes you gotta close a door to open a window: "

/-- A label that starts with a base. -/
def labelFor (f : Fresh) (base : String) : String :=
  base ++ toString f.label

/-- Randomness for one use. -/
def entropyText (f : Fresh) : String :=
  entropyStart ++ f.entropy

end Fresh

end Handover
