import Handover.Text.Split

/-!
# Addresses on the web

An address in normal form : everything that may be spelled in several ways is spelled in one.
The path always starts with a slash, and a port that the scheme implies is left out.
-/

namespace Handover

/-- How a service is reached. -/
inductive Scheme where
  | http
  | https
  | ws
  | wss
  deriving DecidableEq, Repr

namespace Scheme

/-- The name of a scheme. -/
def name : Scheme → String
  | http => "http"
  | https => "https"
  | ws => "ws"
  | wss => "wss"

/-- Every scheme. -/
def all : List Scheme :=
  [http, https, ws, wss]

/-- The scheme of a lower-case name. -/
def ofName? (name : String) : Option Scheme :=
  all.find? fun s => s.name == name

/-- The port that is used when none is given. -/
def defaultPort : Scheme → Nat
  | http => 80
  | https => 443
  | ws => 80
  | wss => 443

end Scheme

/-- An address. The parts are held as they are written, with their escapes. -/
structure Url where
  scheme : Scheme
  username : String
  password : String
  host : String
  /-- Not the one that the scheme implies. -/
  port : Option Nat
  /-- The names of the path. -/
  path : List String
  query : Option String
  fragment : Option String
  deriving DecidableEq, Repr

namespace Url

/-- Name and password, which are left out together. -/
def credentials (u : Url) : String :=
  if u.username.isEmpty && u.password.isEmpty then ""
  else u.username ++ (if u.password.isEmpty then "" else ":" ++ u.password) ++ "@"

/-- An optional part with its mark. -/
def marked (mark : String) (part : Option String) : String :=
  (part.map (mark ++ ·)).getD ""

/-- The part after the scheme and its colon. -/
def location (u : Url) : String :=
  "//" ++ u.credentials ++ u.host ++ marked ":" (u.port.map toString) ++ "/" ++
    "/".intercalate u.path ++ marked "?" u.query ++ marked "#" u.fragment

/-- The written form. -/
def text (u : Url) : String :=
  u.scheme.name ++ ":" ++ u.location

end Url

end Handover
