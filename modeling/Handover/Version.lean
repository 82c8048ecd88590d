import Handover.Text.Split

/-!
# Semantic versions

Three numbers of 64 bits with points between them, then optionally a pre-release after a
hyphen and a build after a plus sign. Those are identifiers of letters, digits and hyphens,
with points between them. Numbers have no zeros in front, nor do the numbers in a pre-release,
while a build may have them. So a version has one text only, and is kept as that.
-/

namespace Handover

/-- Whether a character may stand in an identifier. -/
def Version.isIdentifierChar (c : Char) : Bool :=
  c.isAlphanum || c == '-'

/-- Whether digits are a number without zeros in front. -/
def Version.isNumeral : List Char → Bool
  | [] => false
  | ['0'] => true
  | '0' :: _ => false
  | ds => ds.all Char.isDigit

/-- Whether a text is one of the three numbers. -/
def Version.isNumber (ds : List Char) : Bool :=
  isNumeral ds && decide (ds.foldl (fun n c => n * 10 + (c.toNat - 48)) 0 < UInt64.size)

/-- Whether a text is an identifier of a build. -/
def Version.isIdentifier (cs : List Char) : Bool :=
  !cs.isEmpty && cs.all isIdentifierChar

/-- Whether a text is an identifier of a pre-release. -/
def Version.isPreIdentifier (cs : List Char) : Bool :=
  isIdentifier cs && (!cs.all Char.isDigit || isNumeral cs)

/-- Whether a text is the three numbers. -/
def Version.isCore (cs : List Char) : Bool :=
  let parts := Text.splitChars '.' cs
  decide (parts.length = 3) && parts.all isNumber

/-- Whether a text, if it is there, is a list of identifiers after its mark. -/
def Version.isTail (isPart : List Char → Bool) : List Char → Bool
  | [] => true
  | _ :: cs => (Text.splitChars '.' cs).all isPart

/-- Whether a text is a semantic version. -/
def Version.isVersion (cs : List Char) : Bool :=
  let front := cs.takeWhile (· != '+')
  isCore (front.takeWhile (· != '-')) &&
    isTail isPreIdentifier (front.dropWhile (· != '-')) &&
    isTail isIdentifier (cs.dropWhile (· != '+'))

/-- A semantic version. -/
structure Version where
  text : String
  wellFormed : Version.isVersion text.toList = true
  deriving DecidableEq

/-- The version of a text. -/
def Version.ofText? (text : String) : Option Version :=
  if h : Version.isVersion text.toList = true then some ⟨text, h⟩ else none

end Handover
