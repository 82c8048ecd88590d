import Handover.Json.Reader
import Handover.Service
import Handover.ServiceAddress

/-!
# Calls on the service over JSON-RPC

Each call is one request of a method. A transaction that the service refuses comes with the
words of the chain, and with the hash and the gas if the service adds them. A request that is
not answered in time is reported as such and never sent again, since a transaction may still
go through. All else that goes wrong is a failure of the transport.
-/

namespace Handover

/-- A request of a method, with at most one parameter. -/
structure RpcRequest where
  method : String
  param : Option Json
  deriving DecidableEq, Repr

/-- How a request ended. -/
inductive RpcReply where
  | result (v : Json)
  /-- The service refused, with details if it has any. -/
  | refused (message : String) (details : Option Json)
  | timeout
  | failure (text : String)
  deriving DecidableEq, Repr, Inhabited

/-- Requests and their replies. -/
def rpc : Interface where
  Request := RpcRequest
  Reply _ := RpcReply

namespace RpcReply

/-- The hash and the gas in the details of a refusal, if they are there and well formed. -/
def rejectionDetails (details : Option Json) : Option String × Option UInt64 :=
  let read := fun v : Json => do
    let r ← v.record? ["tx_hash", "gas_used"]
    return (← r.optional "tx_hash" Json.string?, ← r.optional "gas_used" Json.uint64?)
  (details.bind read).getD (none, none)

/-- The fault of a refused transaction. -/
def rejection (message : String) (details : Option Json) : ChainFault :=
  match rejectionDetails details with
  | (txHash, gasUsed) => .rejected message txHash gasUsed

/-- The answer of a request, with the fault of a refusal and the reader of results. -/
def answer {α : Type} (method : String) (refusal : String → Option Json → ChainFault)
    (read : Json → Option α) : RpcReply → Except ChainFault α
  | result v =>
    match read v with
    | some a => .ok a
    | none => .error (.transport "unexpected result")
  | refused message details => .error (refusal message details)
  | timeout => .error (.timeout method)
  | failure text => .error (.transport text)

end RpcReply

namespace Call

/-- The method of a call. -/
def method : Call → String
  | chainId => "Wasm.ChainId"
  | simulate _ => "Wasm.Simulate"
  | broadcast .. => "Wasm.Broadcast"
  | codeHash _ => "Wasm.CodeHashByCodeId"
  | query .. => "Wasm.QueryContractSmart"

/-- The parameter of a call. -/
def param : Call → Option Json
  | chainId => none
  | simulate msgs => some (toJson msgs)
  | broadcast msgs options => some (.obj (("msgs", toJson msgs) :: options.toFields))
  | codeHash codeId => some (.ofUInt64 codeId)
  | query contract hash q =>
    some (.obj [("contract_address", .str contract), ("code_hash", .str hash), ("query", q)])

/-- The request of a call. -/
def rpcRequest (call : Call) : RpcRequest :=
  ⟨call.method, call.param⟩

/-- What a refused query says. -/
def queryRefusal (message : String) (_ : Option Json) : ChainFault :=
  .query message

/-- The answer of a call. -/
def rpcAnswer : (call : Call) → RpcReply → Except ChainFault call.Answer
  | chainId, reply => reply.answer chainId.method queryRefusal Json.string?
  | simulate msgs, reply =>
    reply.answer (simulate msgs).method RpcReply.rejection (Json.inField? "gas_used" Json.uint64?)
  | broadcast msgs options, reply =>
    reply.answer (broadcast msgs options).method RpcReply.rejection
      (ofJson? : Json → Option TxResponse)
  | codeHash codeId, reply => reply.answer (codeHash codeId).method queryRefusal Json.string?
  | query contract hash q, reply =>
    reply.answer (query contract hash q).method queryRefusal Json.free?

/-- A call, made by its request. -/
def overRpc (call : Call) : Dialogue rpc (Except ChainFault call.Answer) :=
  .ask (I := rpc) call.rpcRequest fun reply => .done (call.rpcAnswer reply)

end Call

/-- Whether a token can be sent with a request : it holds no controls but the tab. -/
def isSendableToken (token : String) : Bool :=
  token.toList.all fun c => c == '\t' || (decide (0x20 ≤ c.toNat) && c.toNat != 0x7f)

/-- The head line that shows a token to the service, if there is one. -/
def ServiceAddress.authorization (a : ServiceAddress) : Except ChainFault (Option String) :=
  match a.token with
  | none => .ok none
  | some token =>
    if isSendableToken token then .ok (some ("Bearer " ++ token))
    else .error (.transport "invalid authorization token: failed to parse header value")

end Handover
