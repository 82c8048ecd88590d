import Handover.Code.Artifact
import Handover.Migration.Progress
import Handover.Migration.Snapshot
import Handover.Permit.Signing
import Handover.Service

/-!
# What can go wrong

The words of the chain are kept as they are : whoever reads a fault may look for them, so they
are part of its message unchanged, and `chainMessage` gives them alone.
-/

namespace Handover

/-- Why a deployment or migration failed. -/
inductive Fault where
  | artifactNotFound (path : String)
  | invalidArtifact (path : String) (why : ArtifactFault)
  | uploadFailed (text : String)
  | instantiateFailed (text : String)
  | executeFailed (text : String)
  /-- The transaction went through without an attribute that should be there. -/
  | missingAttribute (txHash key : String)
  | paging (why : PagingFault)
  | different (difference : Difference)
  | wrongChain (expected actual : String)
  | signing (why : SigningFault)
  | chain (why : ChainFault)
  /-- A file could not be read or written. -/
  | io
  /-- An answer or file is not the JSON that was expected. -/
  | json
  /-- A file is not the TOML that was expected. -/
  | toml
  deriving DecidableEq, Repr

namespace Fault

/-- The wording of a fault. -/
def message : Fault → String
  | artifactNotFound path => "contract artifact not found: " ++ path
  | invalidArtifact path why => "invalid contract artifact " ++ path ++ ": " ++ why.message
  | uploadFailed text => "code upload failed: " ++ text
  | instantiateFailed text => "instantiate failed: " ++ text
  | executeFailed text => "execute failed: " ++ text
  | missingAttribute txHash key =>
    "transaction " ++ txHash ++ " did not emit a `" ++ key ++ "` attribute"
  | paging why => "token migration broke a paging invariant: " ++ why.message
  | different difference => difference.message
  | wrongChain expected actual =>
    "signing service is on chain " ++ actual ++ ", expected " ++ expected
  | signing why => "permit signing failed: " ++ why.message
  | chain why => why.message
  | io => "file not readable or writable"
  | json => "unexpected JSON"
  | toml => "unexpected TOML"

/-- The words of the chain, of a failed transaction or call. -/
def chainMessage : Fault → Option String
  | uploadFailed text => some text
  | instantiateFailed text => some text
  | executeFailed text => some text
  | chain why => some why.text
  | _ => none

end Fault

/-- A program that talks to the service and may fail. -/
abbrev Procedure (α : Type) := ExceptT Fault ServiceDialogue α

namespace Procedure

/-- A call whose failure is the failure of the program. -/
def ofCall {α : Type} (call : ServiceDialogue (Except ChainFault α)) : Procedure α :=
  ExceptT.mk (call.bind fun r => .done (r.mapError Fault.chain))

/-- A value that may be missing, with the fault for when it is. -/
def ofOption {α : Type} (fault : Fault) : Option α → Procedure α
  | some a => pure a
  | none => throw fault

end Procedure

end Handover
