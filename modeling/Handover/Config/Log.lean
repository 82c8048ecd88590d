import Handover.Json.Wire
import Handover.Text.Count

/-!
# Settings of the log

Each module has the level up to which its messages are logged.
-/

namespace Handover

/-- How much is logged. -/
inductive LogLevel where
  | off
  | error
  | warn
  | info
  | debug
  | trace
  deriving DecidableEq, Repr

namespace LogLevel

/-- The name of a level. -/
def name : LogLevel → String
  | off => "off"
  | error => "error"
  | warn => "warn"
  | info => "info"
  | debug => "debug"
  | trace => "trace"

/-- Every level, from the least that is logged to the most. -/
def all : List LogLevel :=
  [off, error, warn, info, debug, trace]

/-- The level of a text : its place among the levels, or its name in letters of either case.
No text is the level of errors. -/
def ofText? (text : String) : Option LogLevel :=
  match count? UInt64.size text with
  | some n => all[n.val]?
  | none =>
    if text = "" then some error
    else all.find? fun l => l.name.toList == text.toList.map Char.toLower

/-- A level is written as its name. -/
def toJson (l : LogLevel) : Json :=
  .str l.name

/-- Reads a level from any of the texts for it. -/
def ofJson? (v : Json) : Option LogLevel :=
  v.string?.bind ofText?

end LogLevel

/-- The level of one module. -/
structure LogFilter where
  moduleName : String
  level : LogLevel
  deriving DecidableEq, Repr

namespace LogFilter

/-- The written form of a filter, with the module under `module`. -/
def toJson (f : LogFilter) : Json :=
  .obj [("level", f.level.toJson), ("module", .str f.moduleName)]

/-- Reads a filter. Both the module and its level have to be there. -/
def ofJson? (v : Json) : Option LogFilter := do
  let r ← v.record? ["module", "level"]
  return ⟨← r.required "module" Json.string?, ← r.required "level" LogLevel.ofJson?⟩

instance : Wire LogFilter := ⟨toJson, ofJson?⟩

end LogFilter

/-- What is logged. -/
structure LogSettings where
  filters : List LogFilter
  deriving DecidableEq, Repr

namespace LogSettings

/-- Little of the libraries for connections. -/
def standard : LogSettings :=
  ⟨[⟨"hyper", .warn⟩, ⟨"jsonrpsee", .warn⟩, ⟨"soketto", .error⟩]⟩

/-- The filters, under the name of the setting. -/
def toJson (s : LogSettings) : Json :=
  .obj [("filters", Wire.toJson s.filters)]

/-- The filters have to be there. -/
def ofJson? (v : Json) : Option LogSettings :=
  (v.inField? "filters" Wire.ofJson?).map LogSettings.mk

instance : Wire LogSettings := ⟨toJson, ofJson?⟩

end LogSettings

end Handover
