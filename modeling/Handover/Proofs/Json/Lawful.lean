import Handover.Json.Wire
import Handover.Proofs.Json.ReadBack

/-!
# Lawful wire types

A type is lawful on the wire if each of its values is read back from its written form. Records
are read field by field, so a record of lawful fields is lawful. What is read of a tree is read of
its text as well (`ofJson?_of_ofObject?`), and a lawful message is read back from its tree too.
-/

namespace Handover

/-- Values are read back from their written form. -/
class LawfulWire (α : Type) [Wire α] : Prop where
  ofJson?_toJson : ∀ a : α, ofJson? (toJson a) = some a

export LawfulWire (ofJson?_toJson)

attribute [simp] LawfulWire.ofJson?_toJson

/-- What is read of a tree, the more liberal reader reads as the same. -/
theorem ofJson?_of_ofObject? {α : Type} [Message α] {v : Json} {a : α} (h : ofObject? v = some a) :
    ofJson? v = some a := by
  rw [ofObject?] at h
  split at h
  · exact h
  · cases h

/-- What cannot be read at all is no message in a tree. -/
theorem ofObject?_eq_none {α : Type} [Message α] {v : Json} (h : (ofJson? v : Option α) = none) :
    (ofObject? v : Option α) = none := by
  rw [ofObject?, h, ite_self]

/-- Messages are read back from their written form, also as trees. -/
class LawfulMessage (α : Type) [Message α] : Prop extends LawfulWire α where
  inObjects_toJson : ∀ a : α, Message.inObjects α (toJson a) = true

theorem ofObject?_toJson {α : Type} [Message α] [LawfulMessage α] (a : α) :
    ofObject? (toJson a) = some a := by
  rw [ofObject?, if_pos (LawfulMessage.inObjects_toJson a), ofJson?_toJson]

namespace Json

@[simp] theorem string?_str (s : String) : string? (.str s) = some s := rfl

@[simp] theorem uint32?_natural (n : UInt32) : uint32? (.num (.natural n.toUInt64)) = some n := by
  have hn : n.toNat < UInt32.size := n.toNat_lt
  simp [uint32?, hn]

@[simp] theorem uint32?_ofUInt32 (n : UInt32) : uint32? (ofUInt32 n) = some n :=
  uint32?_natural n

theorem list?_arr_map {α : Type} {read : Json → Option α} {write : α → Json}
    (h : ∀ a, read (write a) = some a) (xs : List α) : list? read (.arr (xs.map write)) = some xs := by
  rw [list?, List.mapM_map, mapM_eq_some (g := id), List.map_id]
  exact h

@[simp] theorem strings?_ofStrings (xs : List String) : strings? (ofStrings xs) = some xs :=
  list?_arr_map string?_str xs

section Optional

variable {α : Type} {read : Json → Option α} {write : α → Json} {r : Record} {name : String}
  {o : Option α}

/-- A value that may be missing is read from where it was written. -/
theorem optional_eq (hnull : ∀ a, write a ≠ .null)
    (h : r.fields.lookup name = some (ofOption write o)) :
    r.optional name read = o.elim (some none) fun a => (read (write a)).map some := by
  cases o with
  | none => rw [Record.optional, h]; rfl
  | some a =>
    have hwrite := hnull a
    rw [Option.elim_some]
    generalize hv : write a = v at hwrite
    have hlookup : r.fields.lookup name = some v := h.trans (congrArg some hv)
    rw [Record.optional, hlookup]
    cases v with
    | null => exact absurd rfl hwrite
    | _ => rfl

theorem optional_ofOption (hread : ∀ a, read (write a) = some a) (hnull : ∀ a, write a ≠ .null)
    (h : r.fields.lookup name = some (ofOption write o)) : r.optional name read = some o := by
  rw [optional_eq hnull h]
  cases o with
  | none => rfl
  | some a => rw [Option.elim_some, hread, Option.map_some]

/-- A number that may be missing is read from where it was written. -/
theorem optional_ofUInt32 {n : Option UInt32}
    (h : r.fields.lookup name = some (ofOption ofUInt32 n)) :
    r.optional name uint32? = some n :=
  optional_ofOption uint32?_ofUInt32 nofun h

end Optional

@[simp] theorem variant?_ofVariant (name : String) (payload : Json) :
    variant? (ofVariant name payload) = some (name, payload) := rfl

end Json

instance : LawfulWire String := ⟨fun _ => rfl⟩

instance : LawfulWire Bool := ⟨fun _ => rfl⟩

instance : LawfulWire UInt32 := ⟨Json.uint32?_ofUInt32⟩

instance {α : Type} [Wire α] [LawfulWire α] : LawfulWire (List α) :=
  ⟨Json.list?_arr_map ofJson?_toJson⟩

end Handover
