/-!
# Splitting text

A text splits at every place of a character into pieces, one more than there are places.
-/

namespace Handover.Text

/-- The pieces between the places of a character. -/
def splitChars (sep : Char) : List Char → List (List Char)
  | [] => [[]]
  | c :: cs =>
    match splitChars sep cs with
    | [] => [[c]]
    | piece :: pieces => if c = sep then [] :: piece :: pieces else (c :: piece) :: pieces

/-- The pieces of a text between the places of a character. -/
def split (sep : Char) (text : String) : List String :=
  (splitChars sep text.toList).map String.ofList

end Handover.Text
