import Handover.Fault
import Handover.ServiceAddress

/-!
# The host of a program

Beside the calls on the service, a program may ask to be connected to it, and it may ask for
files : whether there is one, what it holds, and to be put in place as a whole, with the
directories above it. So it is either the old file or the new one that others see.
-/

namespace Handover

/-- What a program asks of its host. -/
inductive HostCall where
  | service (call : Call)
  /-- Connects to the service, with the seconds that a call may take. -/
  | connect (address : ServiceAddress) (timeout : UInt64)
  /-- Whether there is anything at a path. -/
  | isPresent (path : String)
  | isFile (path : String)
  | read (path : String)
  /-- Puts a file in place, with the directories above it. -/
  | write (path : String) (content : Bytes)
  deriving DecidableEq, Repr

/-- What the host replies : whether there is a file, its content, whether it was written. -/
def HostCall.Reply : HostCall → Type
  | service call => Except ChainFault call.Answer
  | connect .. => Except ChainFault Unit
  | isPresent _ => Bool
  | isFile _ => Bool
  | read _ => Option Bytes
  | write .. => Bool

/-- The service and the files. -/
def host : Interface where
  Request := HostCall
  Reply := HostCall.Reply

/-- A program that talks to its host and may fail. -/
abbrev Program (α : Type) := ExceptT Fault (Dialogue host) α

namespace Host

/-- Connects to the service. -/
def connect (address : ServiceAddress) (timeout : UInt64) :
    Dialogue host (Except ChainFault Unit) :=
  .ask (I := host) (.connect address timeout) .done

/-- Whether there is anything at a path. -/
def isPresent (path : String) : Dialogue host Bool :=
  .ask (I := host) (.isPresent path) .done

/-- Whether there is a file. -/
def isFile (path : String) : Dialogue host Bool :=
  .ask (I := host) (.isFile path) .done

/-- The content of a file. -/
def read (path : String) : Dialogue host (Option Bytes) :=
  .ask (I := host) (.read path) .done

/-- Puts a file in place. -/
def write (path : String) (content : Bytes) : Dialogue host Bool :=
  .ask (I := host) (.write path content) .done

/-- A program that only talks to the service. -/
def ofService {α : Type} (d : ServiceDialogue α) : Dialogue host α :=
  d.translate fun call => .ask (I := host) (.service call) .done

end Host

/-- A procedure on the service as a program on the host. -/
def Procedure.onHost {α : Type} (p : Procedure α) : Program α :=
  ExceptT.mk (Host.ofService p.run)

end Handover
