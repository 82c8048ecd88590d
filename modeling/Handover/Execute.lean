import Handover.Fault
import Handover.Gas
import Handover.Json.Reader

/-!
# Sending transactions

Messages are tried out first, and the gas they use is padded to a limit. A trial that fails
only costs precision, since the real run may succeed, so a fallback stands in.

A transaction that fails after it was sent still costs its fee. So `execute` reports a failure
next to the fee, and `ExecuteResult.ok` turns it into a fault where only success will do.
-/

namespace Handover

/-- The gas limit for messages : what a trial run uses with the padding on top, or the
fallback when the trial fails. -/
def GasSettings.limitFor (g : GasSettings) (msgs : List Msg) (fallback : UInt64) :
    ServiceDialogue UInt64 := do
  match ← Service.simulate msgs with
  | .ok gas => return g.padded gas
  | .error _ => return fallback

/-- The outcome of one transaction of executed messages. -/
structure ExecuteResult (α : Type) where
  response : Option TxResponse
  gasFee : Coin
  /-- What the first message answered, if it answered anything. -/
  answer : Option α
  /-- The words of the chain when the transaction failed. -/
  failure : Option String
  deriving DecidableEq, Repr

namespace ExecuteResult

variable {α : Type}

/-- Whether the transaction went through. -/
def isSuccess (r : ExecuteResult α) : Bool :=
  r.failure.isNone

/-- A result without failure. -/
def ok (r : ExecuteResult α) : Except Fault (ExecuteResult α) :=
  match r.failure with
  | some text => .error (.executeFailed text)
  | none => .ok r

/-- What was answered, unless the transaction failed. -/
def intoAnswer (r : ExecuteResult α) : Except Fault (Option α) :=
  r.ok.map answer

end ExecuteResult

/-- What the first message of a transaction answered. No bytes are no answer. -/
def TxResponse.answer {α : Type} (t : TxResponse) (read : Json → Option α) :
    Except Fault (Option α) :=
  match t.dataFor 0 with
  | none => .ok none
  | some [] => .ok none
  | some data =>
    match (Json.readBytes data).bind read with
    | some a => .ok (some a)
    | none => .error .json

/-- Sends messages in one transaction and reads what the first one answers. -/
def execute {α : Type} (g : GasSettings) (read : Json → Option α) (msgs : List Msg) :
    Procedure (ExecuteResult α) := do
  let limit ← (g.limitFor msgs g.fallbackLimit : ServiceDialogue UInt64)
  let fee := g.fee limit
  match ← (Service.broadcast msgs (.ofGasLimit limit) : ServiceDialogue _) with
  | .ok response => return ⟨some response, fee, ← response.answer read, none⟩
  | .error fault => return ⟨none, fee, none, some fault.text⟩

/-- Sends the smallest coin from an account to itself. A trial run needs an account that has
sent something before. Whether this goes through does not matter. -/
def initializeAccount (address : String) : ServiceDialogue Unit := do
  let _ ← Service.broadcast [.send address address [⟨⟨1, by decide⟩, uscrt⟩]] (.ofGasLimit 100000)
  return ()

end Handover
