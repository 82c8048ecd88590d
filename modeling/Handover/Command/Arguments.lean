import Handover.Contract.Basic
import Handover.Text.Split

/-!
# The command line

There are three commands. `store` uploads the contracts that a node does not have yet,
`migrate` moves a running contract to a new instance, and `config dump` shows the
configuration. Options start with two hyphens, and a value is the next argument or follows an
equals sign. Options that every command takes may stand before or after it, and the one nearer
to the end counts.
-/

namespace Handover

/-- When the log is coloured. -/
inductive Colour where
  | auto
  | always
  | never
  deriving DecidableEq, Repr

/-- The choice of a name. -/
def Colour.ofName? : String → Option Colour
  | "auto" => some auto
  | "always" => some always
  | "never" => some never
  | _ => none

/-- What every command takes. -/
structure CommonOptions where
  config : Option String
  logDir : Option String
  logJson : Bool
  colour : Colour
  deriving DecidableEq, Repr

/-- What a migration is asked to do. -/
structure MigrateOptions where
  kind : ContractKind
  address : String
  codeHash : String
  account : String
  /-- Goes on with an import into the address. -/
  resume : Bool
  /-- The tokens whose dossiers are compared. -/
  verifyTokens : List String
  deriving DecidableEq, Repr

/-- The contract that a migration is asked about. -/
def MigrateOptions.contract (o : MigrateOptions) : ContractInfo :=
  ⟨o.address, o.codeHash⟩

/-- What to do. -/
inductive Command where
  | store (account : String) (kind : Option ContractKind)
  | migrate (options : MigrateOptions)
  | dumpConfig
  deriving DecidableEq, Repr

/-- What a command line asks for. -/
inductive Invocation where
  | run (options : CommonOptions) (command : Command)
  | version
  | help
  deriving DecidableEq, Repr

namespace Command

/-- The account that is used when none is given. -/
def defaultAccount : String :=
  "admin"

/-- How far a command is named. -/
inductive Level where
  | top
  | store
  | migrate
  | config
  | dump
  deriving DecidableEq, Repr

/-- The level after one more word. -/
def Level.next? : Level → String → Option Level
  | top, "store" => some store
  | top, "migrate" => some migrate
  | top, "config" => some config
  | config, "dump" => some dump
  | _, _ => none

/-- Options of a level that take a value. -/
def Level.valued : Level → List String
  | store => ["account", "kind"]
  | migrate => ["kind", "address", "code-hash", "account", "verify-token"]
  | _ => []

/-- Options of a level that take none. -/
def Level.flags : Level → List String
  | migrate => ["resume"]
  | _ => []

/-- What was read so far : the level, the options given at it, and all values, the latest
first. -/
structure Found where
  level : Level
  here : List String
  values : List (String × String)
  deriving DecidableEq, Repr

namespace Found

/-- The value of an option. -/
def value? (f : Found) (name : String) : Option String :=
  f.values.lookup name

/-- Whether a value is one that an option takes. -/
def accepts (name value : String) : Bool :=
  match name with
  | "kind" => (ContractKind.ofName? value).isSome
  | "color" => (Colour.ofName? value).isSome
  | _ => true

/-- Takes in an option. Only the tokens to verify may come more than once. -/
def give (f : Found) (name value : String) : Option Found :=
  if (f.here.contains name && name != "verify-token") || !accepts name value then none
  else some { f with here := name :: f.here, values := (name, value) :: f.values }

/-- Whether an option takes a value, or nothing if it is unknown. -/
def takesValue? (f : Found) (name : String) : Option Bool :=
  if ["config", "log-dir", "color"].contains name || f.level.valued.contains name then some true
  else if name = "log-json" ∨ f.level.flags.contains name then some false
  else none

/-- The options that every command takes. -/
def common (f : Found) : CommonOptions where
  config := f.value? "config"
  logDir := f.value? "log-dir"
  logJson := (f.value? "log-json").isSome
  colour := ((f.value? "color").bind Colour.ofName?).getD .auto

/-- The account. -/
def account (f : Found) : String :=
  (f.value? "account").getD defaultAccount

/-- The command, if nothing is missing. -/
def command? (f : Found) : Option Command :=
  match f.level with
  | .store => some (.store f.account ((f.value? "kind").bind ContractKind.ofName?))
  | .migrate => do
    let kind ← (f.value? "kind").bind ContractKind.ofName?
    let tokens := (f.values.filter fun v => v.1 == "verify-token").map Prod.snd
    return .migrate ⟨kind, ← f.value? "address", ← f.value? "code-hash", f.account,
      (f.value? "resume").isSome, tokens.reverse⟩
  | .dump => some .dumpConfig
  | .top => none
  | .config => none

end Found

/-- An argument that looks like an option. A lone hyphen does not. -/
def isOption (arg : String) : Bool :=
  match arg.toList with
  | '-' :: _ :: _ => true
  | _ => false

/-- The name of a long option and the value after its equals sign. -/
def splitOption (cs : List Char) : String × Option String :=
  match cs.span (· != '=') with
  | (name, []) => (String.ofList name, none)
  | (name, _ :: value) => (String.ofList name, some (String.ofList value))

/-- An option of one letter. -/
def shortOption (level : Level) (letter : Char) : Option Invocation :=
  if letter = 'h' then some .help
  else if letter = 'V' ∧ level = .top then some .version
  else none

/-- What arguments ask for, or nothing if they are no command line. -/
def scan (f : Found) : List String → Option Invocation
  | [] => f.command?.map (.run f.common)
  | arg :: rest =>
    match arg.toList with
    | '-' :: '-' :: cs =>
      match splitOption cs with
      | ("help", none) => some .help
      | ("version", none) => if f.level = .top then some .version else none
      | (name, attached) =>
        match f.takesValue? name, attached, rest with
        | some true, some value, rest => (f.give name value).bind fun f => scan f rest
        | some true, none, value :: rest =>
          if isOption value then none else (f.give name value).bind fun f => scan f rest
        | some false, none, rest => (f.give name "").bind fun f => scan f rest
        | _, _, _ => none
    | '-' :: letter :: _ => shortOption f.level letter
    | _ =>
      if arg = "help" ∧ (f.level = .top ∨ f.level = .config) then some .help
      else (f.level.next? arg).bind fun level => scan ⟨level, [], f.values⟩ rest

end Command

/-- What the arguments of the program ask for, or nothing if they are no command line. -/
def Invocation.ofArguments (args : List String) : Option Invocation :=
  Command.scan ⟨.top, [], []⟩ args

end Handover
