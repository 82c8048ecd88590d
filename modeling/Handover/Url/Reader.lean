import Handover.Url.Basic
import Handover.Url.Host

/-!
# Reading addresses

An address is read from its scheme, a host with an optional user and port, a path, a query and
a fragment. Blanks at the ends and line breaks anywhere do not count, a backslash is as good as
a slash, and any number of slashes may stand before the host. Dots as names of a path are
followed at once.

Addresses of schemes other than the four are not kept. But they are checked as far as that can
fail, so that a bad address is told from one whose scheme is not supported.
-/

namespace Handover

/-- Why text is no address that can be used. -/
inductive UrlFault where
  | invalid
  | unsupported (scheme : String)
  deriving DecidableEq, Repr

namespace Url

/-- Text without blanks at the ends and without tabs and line breaks. -/
def cleaned (text : String) : List Char :=
  let blank := fun c : Char => decide (c.toNat ≤ 0x20)
  let cs := ((text.toList.dropWhile blank).reverse.dropWhile blank).reverse
  cs.filter fun c => !(['\t', '\n', '\r'].contains c)

/-- Whether a character may stand in a scheme. -/
def isSchemeChar (c : Char) : Bool :=
  c.isAlphanum || ['+', '-', '.'].contains c

/-- The scheme in lower case, and what follows its colon. -/
def splitScheme : List Char → Option (String × List Char)
  | [] => none
  | first :: cs =>
    if !first.isAlpha then none
    else
      match cs.dropWhile isSchemeChar with
      | ':' :: rest =>
        some (String.ofList ((first :: cs.takeWhile isSchemeChar).map Char.toLower), rest)
      | _ => none

/-- What ends the part with the host. -/
def endsAuthority (c : Char) : Bool :=
  ['/', '\\', '?', '#'].contains c

/-! ## User, host and port -/

/-- User and password, and what follows the last at sign. -/
def splitUser (cs : List Char) : Option (List Char) × List Char :=
  match cs.reverse.span (· != '@') with
  | (_, []) => (none, cs)
  | (host, _ :: user) => (some user.reverse, host.reverse)

/-- The name and the password of a user, escaped. -/
def readUser (user : List Char) : String × String :=
  let escape := fun cs => String.ofList (Percent.encode Percent.user cs)
  match user.span (· != ':') with
  | (name, []) => (escape name, "")
  | (name, _ :: password) => (escape name, escape password)

/-- The host, up to a colon outside brackets, and what follows. -/
def splitHost : Bool → List Char → List Char × List Char
  | _, [] => ([], [])
  | inside, c :: cs =>
    if c = ':' ∧ inside = false then ([], c :: cs)
    else
      let inside := if c = '[' then true else if c = ']' then false else inside
      match splitHost inside cs with
      | (host, rest) => (c :: host, rest)

/-- The port after a host. No digits are no port. -/
def readPort : List Char → Option (Option Nat)
  | [] => some none
  | ':' :: [] => some none
  | ':' :: ds => do
    let n ← number? 10 ds
    if n < UInt16.size then some (some n) else none
  | _ => none

/-! ## Path -/

/-- The names between slashes of either kind. -/
def splitPath (cs : List Char) : List (List Char) :=
  Text.splitChars '/' (cs.map fun c => if c = '\\' then '/' else c)

/-- A name whose escaped dots count as dots. -/
def plainDots : List Char → List Char
  | '%' :: '2' :: e :: cs => if e = 'e' ∨ e = 'E' then '.' :: plainDots cs else '%' :: '2' :: e :: cs
  | '.' :: cs => '.' :: plainDots cs
  | cs => cs

/-- The names after following each one in turn. Dots at the end leave an empty name. -/
def followPath (names : List String) : List (List Char) → List String
  | [] => names
  | name :: rest =>
    let close := fun names : List String => if rest.isEmpty then names ++ [""] else names
    match plainDots name with
    | ['.', '.'] => followPath (close names.dropLast) rest
    | ['.'] => followPath (close names) rest
    | _ => followPath (names ++ [String.ofList (Percent.encode Percent.path name)]) rest

/-- The names of a path. -/
def readPath (cs : List Char) : List String :=
  match splitPath cs with
  | [] :: names@(_ :: _) => followPath [] names
  | names => followPath [] names

/-! ## Whole addresses -/

/-- What stands before a mark, and what follows it. -/
def splitMark (mark : Char) (cs : List Char) : List Char × Option (List Char) :=
  match cs.span (· != mark) with
  | (before, []) => (before, none)
  | (before, _ :: after) => (before, some after)

/-- The address after the colon of its scheme. -/
def readLocation (scheme : Scheme) (cs : List Char) : Option Url := do
  let cs := cs.dropWhile fun c => c == '/' || c == '\\'
  let (authority, cs) := cs.span fun c => !endsAuthority c
  let (user, authority) := splitUser authority
  let (host, port) := splitHost false authority
  let host ← Host.ofChars? host
  let port ← readPort port
  let (cs, fragment) := splitMark '#' cs
  let (path, query) := splitMark '?' cs
  let (username, password) := (user.map readUser).getD ("", "")
  let escaped := fun set => Option.map fun cs => String.ofList (Percent.encode set cs)
  return ⟨scheme, username, password, host, port.filter (· != scheme.defaultPort),
    readPath path, escaped Percent.query query, escaped Percent.fragment fragment⟩

/-! ## Other schemes -/

/-- Whether the host of an address of an unknown scheme can be read. -/
def isOpaqueLocation (cs : List Char) : Bool :=
  match cs with
  | '/' :: '/' :: cs =>
    let authority := cs.takeWhile fun c => !(['/', '?', '#'].contains c)
    let (user, rest) := splitUser authority
    let (host, port) := splitHost false rest
    let empty := host.isEmpty && (!port.isEmpty || user.any (!·.isEmpty) ||
      (user.isSome && decide (authority.length < cs.length)))
    !empty && Host.isOpaque host && (readPort port).isSome
  | _ => true

/-- Whether a name is that of a drive. -/
def isDrive (name : String) : Bool :=
  match name.toList with
  | [c, d] => c.isAlpha && (d == ':' || d == '|')
  | _ => false

/-- Whether the host of a file can be read. -/
def isFileLocation (cs : List Char) : Bool :=
  let isSlash := fun c => c == '/' || c == '\\'
  match cs with
  | a :: b :: cs =>
    if isSlash a && isSlash b then
      let host := cs.takeWhile fun c => !endsAuthority c
      host.isEmpty || isDrive (String.ofList host) || (Host.ofChars? host).isSome
    else true
  | _ => true

/-- Whether an address of another scheme can be read. -/
def isOtherLocation (scheme : String) (cs : List Char) : Bool :=
  match scheme with
  | "ftp" => (readLocation .http cs).isSome
  | "file" => isFileLocation cs
  | _ => isOpaqueLocation cs

/-- The address that a text spells. -/
def ofText (text : String) : Except UrlFault Url :=
  match splitScheme (cleaned text) with
  | none => .error .invalid
  | some (name, rest) =>
    match Scheme.ofName? name with
    | some scheme =>
      match readLocation scheme rest with
      | some url => .ok url
      | none => .error .invalid
    | none => .error (if isOtherLocation name rest then .unsupported name else .invalid)

end Url

end Handover
