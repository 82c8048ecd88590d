import Handover.Fault
import Handover.Network

/-!
# The chain behind the service

Before anything is sent, the service is asked which chain it serves.
-/

namespace Handover

/-- Fails unless the service serves the chain of a node. -/
def NodeInfo.checkChainId (node : NodeInfo) : Procedure Unit := do
  let actual ← Procedure.ofCall Service.chainId
  if actual = node.chainId then return () else throw (.wrongChain node.chainId actual)

end Handover
