import Handover.Execute
import Handover.Text.Count

/-!
# Uploading code

Code is sent in one transaction of its own. The chain reports the number of the code among the
events, and is asked for the hash of that number.
-/

namespace Handover

/-- The number of the code that a transaction stored. -/
def TxResponse.storedCode (t : TxResponse) : Except Fault UInt64 :=
  match t.valueOf "message" "code_id" with
  | none => .error (.missingAttribute t.txHash "code_id")
  | some text =>
    match count? UInt64.size text with
    | some n => .ok (UInt64.ofNat n.val)
    | none => .error (.uploadFailed ("code_id attribute is not a number: " ++ text))

/-- How a failed upload is reported : a refusal in the words of the chain alone, everything
else in full. -/
def uploadFault : ChainFault → Fault
  | .rejected message .. => .uploadFailed message
  | fault => .uploadFailed fault.message

/-- Uploads code in the name of an account. -/
def storeCode (g : GasSettings) (uploader : String) (wasm : Bytes) : Procedure CodeArtifact := do
  let msgs : List Msg := [.storeCode uploader wasm]
  let limit ← (g.limitFor msgs g.uploadFallbackLimit : ServiceDialogue UInt64)
  match ← (Service.broadcast msgs (.ofGasLimit limit) : ServiceDialogue _) with
  | .error fault => throw (uploadFault fault)
  | .ok response =>
    let codeId ← response.storedCode
    let codeHash ← Procedure.ofCall (Service.codeHash codeId)
    return ⟨codeId, codeHash⟩

end Handover
