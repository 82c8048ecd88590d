import Handover.Config
import Handover.Host

/-!
# Why a command failed

A fault says what could not be done and, below that, why.
-/

namespace Handover

/-- Why a command failed. -/
inductive CommandFault where
  | configUnreadable (path : String)
  | configInvalid (path : String)
  | node (why : NodeFault)
  | keystore (path : String) (why : Fault)
  | address (why : AddressFault)
  | unreachable (url : Url) (why : ChainFault)
  | manifest (kind : ContractKind) (why : Fault)
  | capture (source : String) (why : Fault)
  | migrate (source : String) (why : Fault)
  | nothingToResume (kind : ContractKind)
  | resume (destination : String) (why : Fault)
  /-- A fault that speaks for itself. -/
  | plain (why : Fault)
  deriving DecidableEq, Repr

namespace CommandFault

/-- What could not be done. -/
def message : CommandFault → String
  | configUnreadable path => "cannot read " ++ path
  | configInvalid path => "invalid config " ++ path
  | node why => why.message
  | keystore path _ => "cannot load keystore " ++ path
  | address why => why.message
  | unreachable url _ => "cannot reach signing service at " ++ url.text
  | manifest kind _ => "cannot read version of " ++ kind.name
  | capture source _ => "cannot capture " ++ source
  | migrate source _ => "cannot migrate " ++ source
  | nothingToResume kind => kind.name ++ " has no token import to resume"
  | resume destination _ => "cannot resume token import into " ++ destination
  | plain why => why.message

/-- Why, where that is not said already. -/
def cause? : CommandFault → Option String
  | keystore _ why => some why.message
  | unreachable _ why => some why.message
  | manifest _ why => some why.message
  | capture _ why => some why.message
  | migrate _ why => some why.message
  | resume _ why => some why.message
  | _ => none

/-- A fault as it is reported. -/
def report (f : CommandFault) : String :=
  "Error: " ++ f.message ++ (f.cause?.map ("\n\nCaused by:\n    " ++ ·)).getD ""

end CommandFault

/-- A command at work : a program on the host that may fail. -/
abbrev CommandProgram (α : Type) := ExceptT CommandFault (Dialogue host) α

/-- A program with a wording for its failure. -/
def Program.orFail {α : Type} (fault : Fault → CommandFault) (p : Program α) :
    CommandProgram α :=
  ExceptT.mk (p.run.bind fun r => .done (r.mapError fault))

end Handover
