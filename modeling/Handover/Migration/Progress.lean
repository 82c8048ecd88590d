import Handover.Contract.CollectionMsg

/-!
# Progress of an import

A collection imports its tokens in pages and reports after each call how far it has come. The
reports have to fit together : the total never changes, the cursor moves forward with every
report of it, and it never passes the total.
-/

namespace Handover

/-- Why reports do not fit together, or an import did not come to an end. -/
inductive PagingFault where
  | totalChanged (seen total calls : UInt32)
  | cursorStalled (seen calls : UInt32)
  | cursorPastTotal (cursor total : UInt32)
  | noProgress
  | incomplete (address : String) (calls : UInt32)
  deriving DecidableEq, Repr

/-- The wording of a fault. -/
def PagingFault.message : PagingFault → String
  | totalChanged seen total calls =>
    "total changed from " ++ toString seen ++ " to " ++ toString total ++ " on call " ++
      toString calls
  | cursorStalled seen calls =>
    "cursor did not advance past " ++ toString seen ++ " on call " ++ toString calls
  | cursorPastTotal cursor total =>
    "cursor " ++ toString cursor ++ " is past total " ++ toString total
  | noProgress => "migrate_tokens_in returned no progress"
  | incomplete address calls =>
    "token import for " ++ address ++ " incomplete after " ++ toString calls ++ " calls"

/-- What the reports of an import came to. -/
structure ImportProgress where
  complete : Bool
  nextIndex : Option UInt32
  /-- Fixed by the first report of it. -/
  total : Option UInt32
  calls : UInt32
  deriving DecidableEq, Repr

namespace ImportProgress

/-- Nothing reported yet. -/
def start : ImportProgress :=
  ⟨false, none, none, 0⟩

/-- Takes in a total. -/
def observeTotal (s : ImportProgress) : Option UInt32 → ImportProgress × Option PagingFault
  | none => (s, none)
  | some total =>
    match s.total with
    | some seen =>
      if seen = total then (s, none) else (s, some (.totalChanged seen total s.calls))
    | none => ({ s with total := some total }, none)

/-- Takes in a cursor, after the total. -/
def observeCursor (s : ImportProgress) : Option UInt32 → ImportProgress × Option PagingFault
  | none => (s, none)
  | some cursor =>
    match s.nextIndex with
    | some seen =>
      if cursor ≤ seen then (s, some (.cursorStalled seen s.calls)) else place s cursor
    | none => place s cursor
where
  /-- Moves the cursor unless it is past the total. -/
  place (s : ImportProgress) (cursor : UInt32) : ImportProgress × Option PagingFault :=
    match s.total with
    | some total =>
      if total < cursor then (s, some (.cursorPastTotal cursor total))
      else ({ s with nextIndex := some cursor }, none)
    | none => ({ s with nextIndex := some cursor }, none)

/-- Takes in a report. After a fault the state holds what was taken in before it. -/
def observe (s : ImportProgress) (a : ImportAnswer) : ImportProgress × Option PagingFault :=
  match observeTotal { s with calls := s.calls + 1 } a.total with
  | (s, some fault) => (s, some fault)
  | (s, none) =>
    match observeCursor s a.nextMintIndex with
    | (s, some fault) => (s, some fault)
    | (s, none) => ({ s with complete := a.complete }, none)

end ImportProgress

end Handover
