import Handover.Json.Wire

/-!
# Settings of a migration
-/

namespace Handover

/-- How tokens are imported and permits are named. -/
structure MigrationSettings where
  /-- The application named in every permit. -/
  permitName : String
  /-- Tokens in a page. The contract picks when there is no number. -/
  pageSize : Option UInt32
  /-- Pages in a call. Without a number a call imports everything left. -/
  pagesPerCall : Option UInt32
  /-- The most calls for one import. -/
  maxPageCalls : UInt32
  deriving DecidableEq, Repr

namespace MigrationSettings

/-- Pages and calls as the contract picks them, up to a thousand calls. -/
def standard : MigrationSettings :=
  ⟨"test", none, none, 1000⟩

/-- The names of the settings, in their order. -/
def fieldNames : List String :=
  ["permit_name", "page_size", "pages_per_call", "max_page_calls"]

/-- The written form of the settings. What the contract picks is `null`. -/
def toJson (m : MigrationSettings) : Json :=
  .obj [("max_page_calls", .ofUInt32 m.maxPageCalls),
    ("page_size", .ofOption .ofUInt32 m.pageSize),
    ("pages_per_call", .ofOption .ofUInt32 m.pagesPerCall), ("permit_name", .str m.permitName)]

/-- What is missing has its standard value. -/
def ofJson? (v : Json) : Option MigrationSettings := do
  let r ← v.record? fieldNames
  let permitName ← r.defaulted "permit_name" standard.permitName Json.string?
  let pageSize ← r.maybe "page_size" Json.uint32?
  let pagesPerCall ← r.maybe "pages_per_call" Json.uint32?
  let maxPageCalls ← r.defaulted "max_page_calls" standard.maxPageCalls Json.uint32?
  return ⟨permitName, pageSize, pagesPerCall, maxPageCalls⟩

instance : Wire MigrationSettings := ⟨toJson, ofJson?⟩

end MigrationSettings

end Handover
