import Handover.Json.Reader

/-!
# Free values

Where a message carries a free value, the value is taken in its settled form (`settled`), with
nothing unreadable in it. An object that begins with the reserved name stands for another value :
it has this one field, whose text is that value. Such texts may hold such objects in turn.

The value in a text is read by itself, with all levels of depth left to open. A text is longer
than the texts in it together, so the fuel, which is taken from these, cannot be used up.
-/

namespace Handover.Json

/-- The name of the field whose text is a value. -/
def textName : String := "$serde_json::private::RawValue"

/-- Whether the fields begin with the reserved name. -/
def reserved : List (String × Json) → Bool
  | (name, _) :: _ => name == textName
  | [] => false

/-- The text of the only field. -/
def onlyText? : List (String × Json) → Option String
  | [(_, .str text)] => some text
  | _ => none

mutual

/-- The tree with the values that `inner` finds in its texts, if there is nothing unreadable
in it. -/
def opened? (inner : String → Option Json) : Json → Option Json
  | .arr xs => (openedItems? inner xs).map .arr
  | .obj fs =>
    if reserved fs then (onlyText? fs).bind inner else (openedFields? inner fs).map .obj
  | .unreadable => none
  | v => some v

/-- Items with the values in their texts. -/
def openedItems? (inner : String → Option Json) : List Json → Option (List Json)
  | [] => some []
  | x :: xs => do return (← opened? inner x) :: (← openedItems? inner xs)

/-- Fields with the values in their texts. -/
def openedFields? (inner : String → Option Json) :
    List (String × Json) → Option (List (String × Json))
  | [] => some []
  | (k, v) :: fs => do return (k, ← opened? inner v) :: (← openedFields? inner fs)

end

mutual

/-- The number of characters in the texts of a tree. -/
def textSize : Json → Nat
  | .str s => s.length
  | .arr xs => textSizeItems xs
  | .obj fs => textSizeFields fs
  | _ => 0

/-- The number of characters in the texts of items. -/
def textSizeItems : List Json → Nat
  | [] => 0
  | x :: xs => textSize x + textSizeItems xs

/-- The number of characters in the texts of fields. Their names do not count. -/
def textSizeFields : List (String × Json) → Nat
  | [] => 0
  | (_, v) :: fs => textSize v + textSizeFields fs

end

/-- The tree with the values in its texts, up to a number of texts in one another. -/
def openedWithin? : Nat → Json → Option Json
  | 0, _ => none
  | n + 1, v => opened? (fun text => (read text).bind (openedWithin? n)) v

/-- The free value a tree stands for. -/
def free? (v : Json) : Option Json :=
  (openedWithin? (textSize v + 1) v).map settled

end Handover.Json
