import Handover.Decimal

/-!
# JSON trees

A tree keeps what was written : the fields of an object in their order, with repeated names,
and a number as the integer or the double it denotes. Text can be well formed and still
denote nothing, such as a decimal past the largest double or half a surrogate pair. Such a
place is `unreadable` : skipping it is fine, reading it is not.

The settled form of a tree (`settled`) has the names in order of their characters, and of a
repeated name the last one. Two trees are the same answer when they differ at most in the sign of
a zero (`same`).
-/

namespace Handover

/-- A number : an integer of 64 bits, or a double. -/
inductive Number where
  | natural (n : UInt64)
  /-- The integer `-(below + 1)`. -/
  | negative (below : Fin 0x8000000000000000)
  | decimal (x : Binary64)
  deriving DecidableEq, Repr, Inhabited

/-- A number with negative zero replaced by zero. -/
def Number.unsignedZero : Number → Number
  | .decimal x => .decimal x.unsignedZero
  | n => n

/-- A JSON tree. -/
inductive Json where
  | null
  | bool (b : Bool)
  | num (n : Number)
  | str (s : String)
  | arr (items : List Json)
  | obj (fields : List (String × Json))
  /-- Well-formed text that denotes no value. -/
  | unreadable
  deriving Repr, Inhabited

namespace Json

/-! ## Equality -/

mutual

/-- Whether two trees are equal. -/
def beq : Json → Json → Bool
  | .null, .null => true
  | .unreadable, .unreadable => true
  | .bool a, .bool b => a == b
  | .num a, .num b => a == b
  | .str a, .str b => a == b
  | .arr as, .arr bs => beqItems as bs
  | .obj as, .obj bs => beqFields as bs
  | _, _ => false

/-- Whether two lists of items are equal, item by item. -/
def beqItems : List Json → List Json → Bool
  | [], [] => true
  | a :: as, b :: bs => beq a b && beqItems as bs
  | _, _ => false

/-- Whether two lists of fields are equal, also in their order. -/
def beqFields : List (String × Json) → List (String × Json) → Bool
  | [], [] => true
  | (k, a) :: as, (l, b) :: bs => k == l && beq a b && beqFields as bs
  | _, _ => false

end

mutual

/-- The comparison of trees decides equality. -/
theorem beq_iff : ∀ a b : Json, beq a b = true ↔ a = b
  | .null, b => by cases b <;> simp [beq]
  | .unreadable, b => by cases b <;> simp [beq]
  | .bool _, b => by cases b <;> simp [beq]
  | .num _, b => by cases b <;> simp [beq]
  | .str _, b => by cases b <;> simp [beq]
  | .arr as, b => by
    cases b with
    | arr bs => simp [beq, beqItems_iff as bs]
    | _ => simp [beq]
  | .obj as, b => by
    cases b with
    | obj bs => simp [beq, beqFields_iff as bs]
    | _ => simp [beq]

theorem beqItems_iff : ∀ as bs : List Json, beqItems as bs = true ↔ as = bs
  | [], bs => by cases bs <;> simp [beqItems]
  | a :: as, bs => by
    cases bs with
    | nil => simp [beqItems]
    | cons b bs => simp [beqItems, beq_iff a b, beqItems_iff as bs]

theorem beqFields_iff : ∀ as bs : List (String × Json), beqFields as bs = true ↔ as = bs
  | [], bs => by cases bs <;> simp [beqFields]
  | (k, a) :: as, bs => by
    cases bs with
    | nil => simp [beqFields]
    | cons p bs =>
      obtain ⟨l, b⟩ := p
      simp [beqFields, beq_iff a b, beqFields_iff as bs, and_assoc]

end

instance : DecidableEq Json := fun a b =>
  decidable_of_iff (beq a b = true) (beq_iff a b)

mutual

/-- A tree with every negative zero replaced by zero. -/
def unsignedZeros : Json → Json
  | .num n => .num n.unsignedZero
  | .arr xs => .arr (unsignedZerosItems xs)
  | .obj fs => .obj (unsignedZerosFields fs)
  | v => v

/-- Items without negative zeros. -/
def unsignedZerosItems : List Json → List Json
  | [] => []
  | x :: xs => unsignedZeros x :: unsignedZerosItems xs

/-- Fields without negative zeros. -/
def unsignedZerosFields : List (String × Json) → List (String × Json)
  | [] => []
  | (k, v) :: fs => (k, unsignedZeros v) :: unsignedZerosFields fs

end

/-- Equality of answers : equality up to the sign of zeros. -/
def same (a b : Json) : Bool :=
  a.unsignedZeros == b.unsignedZeros

/-! ## Settled trees -/

mutual

/-- Whether every place of the tree denotes a value. -/
def readable : Json → Bool
  | .arr xs => readableItems xs
  | .obj fs => readableFields fs
  | .unreadable => false
  | _ => true

/-- Whether every place in the items denotes a value. -/
def readableItems : List Json → Bool
  | [] => true
  | x :: xs => readable x && readableItems xs

/-- Whether every place in the fields denotes a value. -/
def readableFields : List (String × Json) → Bool
  | [] => true
  | (_, v) :: fs => readable v && readableFields fs

end

/-- Puts a field into a list ordered by name, over an earlier field of the same name. -/
def putField (k : String) (v : Json) : List (String × Json) → List (String × Json)
  | [] => [(k, v)]
  | (l, w) :: fs =>
    if k = l then (k, v) :: fs
    else if k < l then (k, v) :: (l, w) :: fs
    else (l, w) :: putField k v fs

/-- Fields ordered by name, the last of each name. -/
def settledFields (fs : List (String × Json)) : List (String × Json) :=
  fs.foldl (fun acc f => putField f.1 f.2 acc) []

mutual

/-- A tree whose objects are ordered by name, with the last field of each name. -/
def settled : Json → Json
  | .arr xs => .arr (settledAll xs)
  | .obj fs => .obj (settledFields (settledEach fs))
  | v => v

/-- Items, each of them settled. -/
def settledAll : List Json → List Json
  | [] => []
  | x :: xs => settled x :: settledAll xs

/-- Fields with settled values, still in the order in which they stood. -/
def settledEach : List (String × Json) → List (String × Json)
  | [] => []
  | (k, v) :: fs => (k, settled v) :: settledEach fs

end

/-! ## Leaves -/

/-- The number of a natural number below `2 ^ 64`. -/
def ofNat (n : Nat) : Json :=
  .num (.natural (UInt64.ofNat n))

/-- The number of a word of 64 bits. -/
def ofUInt64 (n : UInt64) : Json :=
  .num (.natural n)

/-- The number of a word of 32 bits. -/
def ofUInt32 (n : UInt32) : Json :=
  .num (.natural n.toUInt64)

/-- A value that may be missing, written as `null`. -/
def ofOption {α : Type} (f : α → Json) : Option α → Json
  | none => .null
  | some a => f a

/-- A list of texts. -/
def ofStrings (xs : List String) : Json :=
  .arr (xs.map .str)

/-- The text of a string. -/
def string? : Json → Option String
  | .str s => some s
  | _ => none

/-- The truth value. -/
def bool? : Json → Option Bool
  | .bool b => some b
  | _ => none

/-- An integer from `0` to `2 ^ 64 - 1`. -/
def uint64? : Json → Option UInt64
  | .num (.natural n) => some n
  | _ => none

/-- An integer from `0` to `2 ^ 32 - 1`. -/
def uint32? : Json → Option UInt32
  | .num (.natural n) => if n.toNat < UInt32.size then some (UInt32.ofNat n.toNat) else none
  | _ => none

/-- Any number, as a double. -/
def double? : Json → Option Binary64
  | .num (.natural n) => some (.ofFloat n.toFloat)
  | .num (.negative n) => some (.ofFloat (-(Float.ofNat (n.val + 1))))
  | .num (.decimal x) => some x
  | _ => none

/-- A list, every item read by `f`. -/
def list? {α : Type} (f : Json → Option α) : Json → Option (List α)
  | .arr xs => xs.mapM f
  | _ => none

/-- The values of a list of texts. -/
def strings? (v : Json) : Option (List String) :=
  v.list? string?

/-- The first field of a name. -/
def field? (v : Json) (name : String) : Option Json :=
  match v with
  | .obj fs => fs.lookup name
  | _ => none

end Json

end Handover
