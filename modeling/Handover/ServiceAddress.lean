import Handover.Url.Reader

/-!
# The address of the signing service

The service is given as an address, with a token in front if it asks for one : `token:address`.
Everything before the first colon is the token, unless it is one of the four schemes in lower
case, since then the address starts there.
-/

namespace Handover

/-- Where the service is, and the token it asks for. -/
structure ServiceAddress where
  url : Url
  token : Option String
  deriving DecidableEq, Repr

/-- Why text is no address of a service. -/
inductive AddressFault where
  | invalidUrl (text : String)
  | unsupportedScheme (scheme : String)
  deriving DecidableEq, Repr

/-- The wording of a fault. -/
def AddressFault.message : AddressFault → String
  | invalidUrl text => "invalid API url " ++ text
  | unsupportedScheme scheme => "unsupported API url scheme: " ++ scheme

namespace ServiceAddress

/-- The token and the address of a text. -/
def splitToken (text : String) : Option String × String :=
  match text.toList.span (· != ':') with
  | (_, []) => (none, text)
  | (before, _ :: after) =>
    if (Scheme.ofName? (String.ofList before)).isSome then (none, text)
    else (some (String.ofList before), String.ofList after)

/-- The service that a text names. -/
def ofText (text : String) : Except AddressFault ServiceAddress :=
  match splitToken text with
  | (token, address) =>
    match Url.ofText address with
    | .ok url => .ok ⟨url, token⟩
    | .error .invalid => .error (.invalidUrl address)
    | .error (.unsupported scheme) => .error (.unsupportedScheme scheme)

/-- The written form. -/
def text (a : ServiceAddress) : String :=
  (a.token.map (· ++ ":")).getD "" ++ a.url.text

/-- The service of a local set-up. -/
def standard : ServiceAddress :=
  ⟨⟨.http, "", "", "127.0.0.1", some 8090, [""], none, none⟩, none⟩

end ServiceAddress

end Handover
