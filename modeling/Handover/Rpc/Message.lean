import Handover.Json.Writer
import Handover.Rpc.Basic
import Handover.Text.Utf8

/-!
# Messages of JSON-RPC and of HTTP

A request is one JSON object with a number. The reply has the same number and either a result
or an error. Both travel as the bodies of a request and a response of HTTP, on a connection of
their own that is closed after the response.
-/

namespace Handover

/-! ## JSON-RPC -/

/-- The text of a request with a number. -/
def RpcRequest.text (r : RpcRequest) (id : Nat) : String :=
  (Json.obj ([("jsonrpc", .str "2.0"), ("id", .ofNat id), ("method", .str r.method)] ++
    Json.fieldIfSome "params" (fun p => .arr [p]) r.param)).compact

/-- The reply to the request with a number. -/
def RpcReply.ofJson? (id : Nat) (v : Json) : Option RpcReply := do
  let r ← v.record? ["jsonrpc", "id", "result", "error"]
  let sent ← r.required "id" some
  if r.positional || sent != .ofNat id then none
  else
    match r.fields.lookup "result", r.fields.lookup "error" with
    | some v, none => some (.result v)
    | none, some e =>
      let e ← e.record? ["code", "message", "data"]
      return .refused (← e.required "message" Json.string?) (e.fields.lookup "data")
    | _, _ => none

/-- The reply that a body holds. -/
def RpcReply.ofBody (id : Nat) (body : Bytes) : RpcReply :=
  ((Json.readBytes body).bind (ofJson? id)).getD (.failure "unusable reply")

/-! ## HTTP -/

namespace Http

/-- The end of a line. -/
def lineEnd : String :=
  "\r\n"

/-- The path and query of an address. -/
def target (u : Url) : String :=
  "/" ++ "/".intercalate u.path ++ Url.marked "?" u.query

/-- The host and port of an address. -/
def authority (u : Url) : String :=
  u.host ++ Url.marked ":" (u.port.map toString)

/-- The bytes of a request that posts a JSON text. -/
def post (u : Url) (authorization : Option String) (body : String) : Bytes :=
  let content := Utf8.encode body
  let head := ["POST " ++ target u ++ " HTTP/1.1", "host: " ++ authority u,
    "content-type: application/json", "accept: application/json",
    "content-length: " ++ toString content.length, "connection: close"] ++
      (authorization.map ("authorization: " ++ ·)).toList
  Utf8.encode (lineEnd.intercalate head ++ lineEnd ++ lineEnd) ++ content

/-- A response without its head lines of no use here. -/
structure Response where
  status : Nat
  body : Bytes
  deriving DecidableEq, Repr

/-- The bytes of a line and what follows it. -/
def splitLine : Bytes → Option (Bytes × Bytes)
  | 13 :: 10 :: rest => some ([], rest)
  | b :: rest => (splitLine rest).map fun (line, rest) => (b :: line, rest)
  | [] => none

/-- The head lines up to an empty one, and what follows. -/
def headLines : Nat → Bytes → Option (List String × Bytes)
  | 0, _ => none
  | fuel + 1, bs => do
    let (line, rest) ← splitLine bs
    if line.isEmpty then return ([], rest)
    else
      let (lines, rest) ← headLines fuel rest
      return ((← Utf8.text? line) :: lines, rest)

/-- The value of a head line, by its name in lower case. -/
def headValue? (name : String) (lines : List String) : Option String :=
  lines.findSome? fun line =>
    match line.toList.span (· != ':') with
    | (key, _ :: value) =>
      if key.map Char.toLower = name.toList then
        some (String.ofList ((value.dropWhile (· == ' ')).map Char.toLower))
      else none
    | _ => none

/-- The content of chunks, each after a line with its size. -/
def unchunked : Nat → Bytes → Option Bytes
  | 0, _ => none
  | fuel + 1, bs => do
    let (line, rest) ← splitLine bs
    let size ← number? 16 (((← Utf8.text? line).toList.takeWhile fun c => c != ';' && c != ' '))
    if size = 0 then return []
    else if rest.length < size then none
    else return rest.take size ++ (← unchunked fuel ((rest.drop size).drop 2))

/-- The response that bytes spell, up to the end of the connection. -/
def readResponse (bs : Bytes) : Option Response := do
  let (lines, rest) ← headLines (bs.length + 1) bs
  match lines with
  | [] => none
  | first :: lines =>
    let status ← match Text.split ' ' first with
      | _ :: code :: _ => number? 10 code.toList
      | _ => none
    if headValue? "transfer-encoding" lines = some "chunked" then
      return ⟨status, ← unchunked (bs.length + 1) rest⟩
    else
      match (headValue? "content-length" lines).bind fun n => number? 10 n.toList with
      | some n => if rest.length < n then none else return ⟨status, rest.take n⟩
      | none => return ⟨status, rest⟩

/-- The reply that a response brings. -/
def Response.reply (r : Response) (id : Nat) : RpcReply :=
  if 200 ≤ r.status ∧ r.status < 300 then .ofBody id r.body
  else .failure ("request rejected with status " ++ toString r.status)

end Http

end Handover
