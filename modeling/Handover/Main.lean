import Handover.Command.Run
import Handover.Rpc.Message
import Std.Async.DNS
import Std.Async.TCP
import Std.Async.Timer

/-!
# The program

Everything a command asks of its host is done here : files are read and written, and requests
are posted to the service, each on a connection of its own. Services are reached over plain
HTTP. What is asked and what follows from an answer is not decided here.
-/

namespace Handover

/-- Runs a dialogue against the world outside. -/
def Dialogue.perform {I : Interface} {α : Type} (answer : (q : I.Request) → IO (I.Reply q)) :
    Dialogue I α → IO α
  | .done a => pure a
  | .ask q next => do
    let r ← answer q
    (next r).perform answer

/-! ## The service -/

/-- How requests are sent. -/
structure Connection where
  url : Url
  authorization : Option String
  /-- In seconds. -/
  timeout : UInt64

namespace Connection

/-- The address of a host on the network. -/
def resolve (c : Connection) : Std.Async.Async (Option Std.Net.SocketAddress) := do
  let port := c.url.port.getD c.url.scheme.defaultPort
  let host := String.ofList (c.url.host.toList.filter fun ch => ch != '[' && ch != ']')
  let found ← Std.Async.DNS.getAddrInfo host (toString port)
  return match found.toList with
    | .v4 a :: _ => some (.v4 ⟨a, UInt16.ofNat port⟩)
    | .v6 a :: _ => some (.v6 ⟨a, UInt16.ofNat port⟩)
    | [] => none

/-- Everything that arrives until the other side closes. -/
partial def receive (socket : Std.Async.TCP.Socket.Client) (got : ByteArray) :
    Std.Async.Async ByteArray := do
  match ← socket.recv? 65536 with
  | none => return got
  | some more => receive socket (got ++ more)

/-- Posts a request and reads its reply. -/
def post (c : Connection) (r : RpcRequest) : Std.Async.Async RpcReply := do
  match ← c.resolve with
  | none => return .failure "unknown host"
  | some address =>
    let socket ← Std.Async.TCP.Socket.Client.mk
    socket.connect address
    socket.send ⟨(Http.post c.url c.authorization (r.text 0)).toArray⟩
    let got ← receive socket .empty
    return match Http.readResponse got.toList with
      | some response => response.reply 0
      | none => .failure "unusable response"

/-- Gives up on a request after a while. -/
def expire (c : Connection) : Std.Async.Async RpcReply := do
  Std.Async.sleep (.ofNat (c.timeout.toNat * 1000))
  return .timeout

/-- The reply to a request. Whatever goes wrong is a failure of the transport. -/
def exchange (c : Connection) (r : RpcRequest) : IO RpcReply := do
  try (Std.Async.Async.race (c.post r) c.expire).block
  catch e => return .failure (toString e)

/-- The connection to a service. -/
def ofAddress (a : ServiceAddress) (timeout : UInt64) : Except ChainFault Connection :=
  match a.authorization, a.url.scheme with
  | .error why, _ => .error why
  | .ok authorization, .http => .ok ⟨a.url, authorization, timeout⟩
  | .ok _, _ => .error (.transport "only plain connections are possible")

end Connection

/-! ## Files -/

/-- The content of a file, or why there is none. -/
def contentOf (path : String) : IO (Except IO.Error Bytes) := do
  try return .ok (← IO.FS.readBinFile path).toList
  catch e => return .error e

/-- Whether there is anything where reading ended in a fault. -/
def isThere : IO.Error → Bool
  | .noFileOrDirectory .. => false
  | .invalidArgument .. => false
  | _ => true

/-- Whether there is a file where reading ended in a fault. -/
def isClosedFile : IO.Error → Bool
  | .permissionDenied .. => true
  | _ => false

/-- Puts a file in place, with the directories above it. -/
def putFile (path : String) (content : Bytes) : IO Bool := do
  try
    let parent := "/".intercalate (Path.names path).dropLast
    if !parent.isEmpty then IO.FS.createDirAll parent
    let fresh := path ++ "." ++ toString (← IO.rand 0 1000000000)
    IO.FS.writeBinFile fresh ⟨content.toArray⟩
    IO.FS.rename fresh path
    return true
  catch _ => return false

/-! ## The host -/

/-- Answers what a command asks of its host. -/
def serveHost (connection : IO.Ref (Option Connection)) : (q : HostCall) → IO q.Reply
  | .service call => do
    match ← connection.get with
    | none => return .error (.transport "not connected")
    | some c => Dialogue.perform c.exchange call.overRpc
  | .connect address timeout => do
    match Connection.ofAddress address timeout with
    | .error why => return .error why
    | .ok c =>
      connection.set (some c)
      return .ok ()
  | .isPresent path => return match ← contentOf path with
    | .ok _ => true
    | .error e => isThere e
  | .isFile path => return match ← contentOf path with
    | .ok _ => true
    | .error e => isClosedFile e
  | .read path => return (← contentOf path).toOption
  | .write path content => putFile path content

/-- The variables of the environment that matter here. -/
def readEnvironment : IO Environment := do
  let names := ["TEST_ENV", "DAPP_NODE_TYPE", "CONTRACT_PATH", "SECRET_SIGNER_API_INFO",
    "DAPP_CONFIG_PATH", "XDG_DATA_HOME", "XDG_CONFIG_HOME", "HOME"]
  let found ← names.mapM fun name => return (← IO.getEnv name).map (name, ·)
  return ⟨found.filterMap id⟩

/-- Numbers for one run. -/
def drawFresh : IO Fresh := do
  let share := (← IO.rand 0 (0x20000000000000 - 1)).toFloat / 9007199254740992.0
  return ⟨← IO.rand 0 1000000, String.ofList (Binary64.ofFloat share).text⟩

end Handover

open Handover

/-- Runs the command line and ends with one for a failure, and with two for a line that is no
command. -/
def main (args : List String) : IO UInt32 := do
  match Invocation.ofArguments args with
  | none =>
    IO.eprint helpText
    return 2
  | some .help =>
    IO.print helpText
    return 0
  | some .version =>
    IO.print versionText
    return 0
  | some (.run options command) =>
    let connection ← IO.mkRef none
    let program := command.run (← readEnvironment) (← drawFresh) options
    match ← Dialogue.perform (serveHost connection) program.run with
    | .ok text =>
      IO.print text
      return 0
    | .error fault =>
      IO.eprintln fault.report
      return 1
