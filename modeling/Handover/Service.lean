import Handover.Dialogue
import Handover.Msg
import Handover.Tx

/-!
# The signing service

Transactions are built, signed and sent by a service that holds the keys of the accounts. Five
calls are made on it : the chain it serves, a trial run of messages, sending them, the hash of
stored code, and a query on a contract. A call fails with a fault that carries the words of
the chain.
-/

namespace Handover

/-- Why a call on the service failed. -/
inductive ChainFault where
  /-- The transaction was refused, or failed while it ran. -/
  | rejected (message : String) (txHash : Option String) (gasUsed : Option UInt64)
  /-- No answer in time. The transaction may still go through. -/
  | timeout (text : String)
  | query (text : String)
  | transport (text : String)
  deriving DecidableEq, Repr

namespace ChainFault

/-- A refusal without further details. -/
def refusal (message : String) : ChainFault :=
  .rejected message none none

/-- The words of the chain alone. -/
def text : ChainFault → String
  | rejected message .. => message
  | timeout text => text
  | query text => text
  | transport text => text

/-- The full wording, with a mark for timeouts and failures of the transport. -/
def message : ChainFault → String
  | rejected message .. => message
  | timeout text => "request timed out: " ++ text
  | query text => text
  | transport text => "transport error: " ++ text

end ChainFault

/-- A call on the service. -/
inductive Call where
  | chainId
  /-- Runs messages without effect and reports the gas they use. -/
  | simulate (msgs : List Msg)
  | broadcast (msgs : List Msg) (options : TxOptions)
  | codeHash (codeId : UInt64)
  | query (contract codeHash : String) (query : Json)
  deriving DecidableEq, Repr

/-- What a call answers when it succeeds. -/
def Call.Answer : Call → Type
  | chainId => String
  | simulate _ => UInt64
  | broadcast .. => TxResponse
  | codeHash _ => String
  | query .. => Json

/-- The calls on the service, each of which may fail. -/
def service : Interface where
  Request := Call
  Reply c := Except ChainFault c.Answer

/-- A program that talks to the service. -/
abbrev ServiceDialogue := Dialogue service

namespace Service

/-- The chain that the service serves. -/
def chainId : ServiceDialogue (Except ChainFault String) :=
  .ask (I := service) .chainId .done

/-- The gas that messages use. -/
def simulate (msgs : List Msg) : ServiceDialogue (Except ChainFault UInt64) :=
  .ask (I := service) (.simulate msgs) .done

/-- Sends messages in one transaction. -/
def broadcast (msgs : List Msg) (options : TxOptions) :
    ServiceDialogue (Except ChainFault TxResponse) :=
  .ask (I := service) (.broadcast msgs options) .done

/-- The hash of stored code. -/
def codeHash (codeId : UInt64) : ServiceDialogue (Except ChainFault String) :=
  .ask (I := service) (.codeHash codeId) .done

/-- Queries a contract. -/
def query (contract codeHash : String) (query : Json) :
    ServiceDialogue (Except ChainFault Json) :=
  .ask (I := service) (.query contract codeHash query) .done

end Service

end Handover
