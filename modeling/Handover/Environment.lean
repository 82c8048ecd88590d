import Handover.Text.Path

/-!
# The environment

Variables that are set from outside, and the directories of the user that follow from them.
-/

namespace Handover

/-- The variables that are set. -/
structure Environment where
  entries : List (String × String)
  deriving DecidableEq, Repr

namespace Environment

/-- A variable, if it is set. -/
def get? (env : Environment) (name : String) : Option String :=
  env.entries.lookup name

/-- The directory of this program below one that a variable names by an absolute path, or else
below a place in the user's home. -/
def projectDir? (env : Environment) (name place : String) : Option String :=
  let base := match (env.get? name).filter Path.isAbsolute with
    | some dir => some dir
    | none => ((env.get? "HOME").filter (· != "")).map (Path.join · place)
  base.map (Path.join · "secret-dapp-deploy")

/-- Where data of this program is kept. -/
def dataDir? (env : Environment) : Option String :=
  env.projectDir? "XDG_DATA_HOME" ".local/share"

/-- Where the configuration of this program is kept. -/
def configDir? (env : Environment) : Option String :=
  env.projectDir? "XDG_CONFIG_HOME" ".config"

end Environment

end Handover
