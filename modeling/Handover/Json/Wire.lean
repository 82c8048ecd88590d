import Handover.Json.Free

/-!
# Types on the wire

A type of the wire has a written form (`toJson`) and a reader of trees (`ofJson?`). The reader
is more liberal than the writer : a record may come as an object with unknown fields, in any
order, or as the array of its fields, and fields with a default may be missing.

`Json.record?` does that part once. It takes the names of the fields in their order and gives
a `Record`, from which each field is read as required, optional or with a default. An array
that ends early is short of fields, and only a default makes up for one.

A choice between variants is written either as an object whose one name is the variant
(`variant?`), or as a record with the variant under the name `type` (`tagged?`).

The array of its fields can stand for the payload of a variant in a text only. A message that
comes as a tree has to have an object there (`ofObject?`).
-/

namespace Handover

/-- A type with a written form and a reader of trees. -/
class Wire (α : Type) where
  toJson : α → Json
  ofJson? : Json → Option α

export Wire (toJson ofJson?)

namespace Wire

instance : Wire String := ⟨.str, Json.string?⟩

instance : Wire Bool := ⟨.bool, Json.bool?⟩

instance : Wire UInt32 := ⟨Json.ofUInt32, Json.uint32?⟩

instance : Wire UInt64 := ⟨Json.ofUInt64, Json.uint64?⟩

instance : Wire Json := ⟨id, Json.free?⟩

instance {α : Type} [Wire α] : Wire (List α) :=
  ⟨fun xs => .arr (xs.map toJson), Json.list? ofJson?⟩

end Wire

/-! ## Records -/

/-- The known fields of a record as found in a tree. -/
structure Record where
  fields : List (String × Json)
  /-- Whether the record came as an array of its fields. -/
  positional : Bool
  deriving Repr

/-- The fields `names` of a record. A name that comes twice is refused, and so is an array
that is too long. -/
def Json.record? (names : List String) : Json → Option Record
  | .obj fs =>
    let known := fs.filter fun f => names.contains f.1
    if (known.map Prod.fst).Nodup then some ⟨known, false⟩ else none
  | .arr xs => if xs.length ≤ names.length then some ⟨names.zip xs, true⟩ else none
  | _ => none

namespace Record

variable {α : Type}

/-- A field that has to be there. -/
def required (r : Record) (name : String) (read : Json → Option α) : Option α :=
  (r.fields.lookup name).bind read

/-- A field that may be `null` or missing, but not missing at the end of an array. -/
def optional (r : Record) (name : String) (read : Json → Option α) : Option (Option α) :=
  match r.fields.lookup name with
  | none => if r.positional then none else some none
  | some .null => some none
  | some v => (read v).map some

/-- A field with a value for when it is missing. -/
def defaulted (r : Record) (name : String) (missing : α) (read : Json → Option α) : Option α :=
  match r.fields.lookup name with
  | none => some missing
  | some v => read v

/-- A field that may be `null` or missing. -/
def maybe (r : Record) (name : String) (read : Json → Option α) : Option (Option α) :=
  match r.fields.lookup name with
  | none => some none
  | some .null => some none
  | some v => (read v).map some

end Record

/-- A field that is left out when there is no value. -/
def Json.fieldIfSome {α : Type} (name : String) (f : α → Json) :
    Option α → List (String × Json)
  | none => []
  | some a => [(name, f a)]

/-- A value inside a record of one field. -/
def Json.inField? {α : Type} (name : String) (read : Json → Option α) (v : Json) : Option α :=
  (v.record? [name]).bind fun r => r.required name read

/-! ## Variants -/

namespace Json

/-- The variant and its payload, of an object with one field. -/
def variant? : Json → Option (String × Json)
  | .obj [(name, payload)] => some (name, payload)
  | _ => none

/-- The name of a variant without payload : a string, or an object of that name and `null`. -/
def unitVariant? : Json → Option String
  | .str name => some name
  | .obj [(name, .null)] => some name
  | _ => none

/-- A record without fields. -/
def unit? (v : Json) : Option Unit :=
  (v.record? []).map fun _ => ()

/-- The tag of a record and the record without it. The tag is the field `type`, once, or the
first item of an array. Nothing in the tree may be unreadable. -/
def tagged? (v : Json) : Option (String × Json) :=
  if v.readable then
    match v with
    | .obj fs =>
      match fs.filter fun f => f.1 == "type" with
      | [(_, .str tag)] => some (tag, .obj (fs.filter fun f => f.1 != "type"))
      | _ => none
    | .arr (.str tag :: rest) => some (tag, .arr rest)
    | _ => none
  else none

/-- An object with one field, named for a variant. -/
def ofVariant (name : String) (payload : Json) : Json :=
  .obj [(name, payload)]

/-- Whether a variant has an object as its payload. -/
def hasBody : Json → Bool
  | .obj [(_, .obj _)] => true
  | _ => false

end Json

/-- Messages that come as trees, where the payload of a variant has to be an object. -/
class Message (α : Type) extends Wire α where
  /-- Whether the payloads of the variants in a tree are objects. -/
  inObjects : Json → Bool := Json.hasBody

/-- The message of a tree. -/
def ofObject? {α : Type} [Message α] (v : Json) : Option α :=
  if Message.inObjects α v then ofJson? v else none

end Handover
