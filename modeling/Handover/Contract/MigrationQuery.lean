import Handover.Contract.Basic

/-!
# Where a contract came from and went to

The queries that every contract answers, in any mode.
-/

namespace Handover

/-- What every contract answers about its moves, in any mode. -/
inductive MigrationQuery where
  | migratedFrom
  | migratedTo
  deriving DecidableEq, Repr

namespace MigrationQuery

/-- A query by its name. -/
def toJson : MigrationQuery → Json
  | migratedFrom => .ofVariant "migrated_from" (.obj [])
  | migratedTo => .ofVariant "migrated_to" (.obj [])

/-- Reads a query by its name. Nothing may stand in it. -/
def ofJson? (v : Json) : Option MigrationQuery := do
  let (name, payload) ← v.variant?
  let _ ← payload.unit?
  if name = "migrated_from" then return migratedFrom
  else if name = "migrated_to" then return migratedTo
  else none

instance : Wire MigrationQuery := ⟨toJson, ofJson?⟩

instance : Message MigrationQuery where

end MigrationQuery

/-- The other end of a move, if there was one. -/
structure MigrationInfoAnswer where
  contract : Option ContractInfo
  deriving DecidableEq, Repr

namespace MigrationInfoAnswer

/-- The other end of the move, or `null` when there was none. -/
def toJson (a : MigrationInfoAnswer) : Json :=
  .obj [("migration_info", .ofOption Wire.toJson a.contract)]

/-- Reads the other end of the move, if there is one. -/
def ofJson? (v : Json) : Option MigrationInfoAnswer := do
  let r ← v.record? ["migration_info"]
  return ⟨← r.optional "migration_info" Wire.ofJson?⟩

instance : Wire MigrationInfoAnswer := ⟨toJson, ofJson?⟩

end MigrationInfoAnswer

end Handover
