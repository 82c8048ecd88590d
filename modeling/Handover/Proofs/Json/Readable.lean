import Handover.Json.Wire
import Handover.Text.Base64

/-!
# Readable written forms

A tree from outside may have unreadable places. No written form has one, so it can be read in
full, which is what a record that comes with its tag asks for (`Json.tagged?_obj`).
-/

namespace Handover

/-- Everything in the written form of a value denotes something. -/
class ReadableWire (α : Type) [Wire α] : Prop where
  readable_toJson : ∀ a : α, (toJson a).readable = true

export ReadableWire (readable_toJson)

attribute [simp] ReadableWire.readable_toJson

namespace Json

@[simp] theorem readable_bool (b : Bool) : (Json.bool b).readable = true := rfl

@[simp] theorem readable_str (s : String) : (Json.str s).readable = true := rfl

@[simp] theorem readable_ofUInt32 (n : UInt32) : (ofUInt32 n).readable = true := rfl

@[simp] theorem readable_ofUInt64 (n : UInt64) : (ofUInt64 n).readable = true := rfl

@[simp] theorem readable_base64 (bs : Bytes) : (Base64.toJson bs).readable = true := rfl

@[simp] theorem readable_obj (fs : List (String × Json)) :
    (Json.obj fs).readable = readableFields fs := rfl

@[simp] theorem readableFields_nil : readableFields [] = true := rfl

@[simp] theorem readableFields_cons (name : String) (v : Json) (fs : List (String × Json)) :
    readableFields ((name, v) :: fs) = (v.readable && readableFields fs) := rfl

@[simp] theorem readable_ofVariant (name : String) (payload : Json) :
    (ofVariant name payload).readable = payload.readable := Bool.and_true _

@[simp] theorem readableFields_append (fs gs : List (String × Json)) :
    readableFields (fs ++ gs) = (readableFields fs && readableFields gs) := by
  induction fs with
  | nil => rfl
  | cons f fs ih =>
    rw [List.cons_append, readableFields_cons, readableFields_cons, ih, Bool.and_assoc]

/-- A list is readable if the written form of each item is. -/
theorem readable_arr_map {α : Type} {write : α → Json} (h : ∀ a, (write a).readable = true) :
    ∀ xs : List α, (Json.arr (xs.map write)).readable = true
  | [] => rfl
  | a :: xs => Bool.and_eq_true_iff.2 ⟨h a, readable_arr_map h xs⟩

@[simp] theorem readable_ofStrings (xs : List String) : (ofStrings xs).readable = true :=
  readable_arr_map readable_str xs

section Optional

variable {α : Type} {write : α → Json} {o : Option α}

/-- A value that may be missing is readable if it is where it is there. -/
theorem readable_ofOption (h : ∀ a ∈ o, (write a).readable = true) :
    (ofOption write o).readable = true := by
  cases o with
  | none => rfl
  | some a => exact h a rfl

theorem readableFields_fieldIfSome {name : String} (h : ∀ a ∈ o, (write a).readable = true) :
    readableFields (fieldIfSome name write o) = true := by
  cases o with
  | none => rfl
  | some a => exact Bool.and_eq_true_iff.2 ⟨h a rfl, rfl⟩

@[simp] theorem readable_ofOption_str (o : Option String) : (ofOption .str o).readable = true :=
  readable_ofOption fun s _ => readable_str s

@[simp] theorem readable_ofOption_ofUInt32 (o : Option UInt32) :
    (ofOption ofUInt32 o).readable = true :=
  readable_ofOption fun n _ => readable_ofUInt32 n

@[simp] theorem readableFields_fieldIfSome_str (name : String) (o : Option String) :
    readableFields (fieldIfSome name .str o) = true :=
  readableFields_fieldIfSome fun s _ => readable_str s

@[simp] theorem readableFields_fieldIfSome_ofUInt32 (name : String) (o : Option UInt32) :
    readableFields (fieldIfSome name ofUInt32 o) = true :=
  readableFields_fieldIfSome fun n _ => readable_ofUInt32 n

end Optional

/-- The tag is taken out of a record that is written with it. -/
theorem tagged?_obj {fs : List (String × Json)} {name tag : String}
    (hreadable : (Json.obj fs).readable = true)
    (htag : fs.filter (fun f => f.1 == "type") = [(name, .str tag)]) :
    tagged? (.obj fs) = some (tag, .obj (fs.filter fun f => f.1 != "type")) := by
  rw [tagged?, if_pos hreadable]
  simp only [htag]

end Json

instance {α : Type} [Wire α] [ReadableWire α] : ReadableWire (List α) :=
  ⟨Json.readable_arr_map readable_toJson⟩

end Handover
