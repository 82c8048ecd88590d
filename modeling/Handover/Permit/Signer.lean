import Handover.Fault
import Handover.Permit.Keys

/-!
# Signers

Whoever signs permits for one account : a key at hand, or anything else that may also fail.
-/

namespace Handover

/-- An account that signs permits. -/
structure Signer where
  address : String
  sign : PermitParams → Except Fault Permit

/-- A key at hand signs every permit. -/
def LocalKey.toSigner (k : LocalKey) : Signer where
  address := k.address
  sign params := .ok (k.sign params)

/-- An owner permit for one contract, on the chain that the service serves. -/
def Signer.ownerPermit (signer : Signer) (permitName contract : String) : Procedure Permit := do
  let chainId ← Procedure.ofCall Service.chainId
  signer.sign ⟨[contract], permitName, chainId, [.owner]⟩

end Handover
