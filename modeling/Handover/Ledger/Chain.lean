import Handover.Ledger.Execute
import Handover.Ledger.Query
import Handover.Permit.Keys

/-!
# A chain that answers the service

A chain of one node with the two contracts built in. A transaction is applied as a whole or
not at all, and it has to stay within its gas limit. Every transaction that is sent counts for
the hashes of later ones, also when it is refused.
-/

namespace Handover

/-- A chain. -/
structure Chain where
  rules : ChainRules
  ledger : Ledger
  /-- The gas limit of every transaction that was sent, also of refused ones. -/
  limits : List UInt64
  /-- How often code was stored. -/
  uploads : Nat
  failSimulations : Bool
  deriving DecidableEq, Repr

namespace Chain

/-- A chain on which nothing happened, with pages of two tokens. -/
def start : Chain :=
  ⟨⟨"secretdev-1", [], 2, false, false⟩, .empty, [], 0, false⟩

/-- Lets the contracts know the account of a key. -/
def register (c : Chain) (key : LocalKey) : Chain :=
  { c with rules := { c.rules with accounts := (key.publicKey, key.address) :: c.rules.accounts } }

/-- The hash of the transaction with a number. -/
def txHash (n : Nat) : String :=
  let ds := (Nat.toDigits 16 n).map Char.toUpper
  String.ofList (List.replicate (64 - ds.length) '0' ++ ds)

/-- The gas of outcomes together. -/
def totalGas (outcomes : List Outcome) : Nat :=
  outcomes.foldl (fun gas o => gas + o.gasUsed) 0

/-- The gas that messages use. -/
def simulate (c : Chain) (msgs : List Msg) : Except ChainFault UInt64 :=
  if c.failSimulations then .error (.refusal Refusal.simulationsOff.message)
  else
    match c.ledger.run c.rules msgs with
    | .error why => .error (.refusal why.message)
    | .ok (outcomes, _) => .ok (UInt64.ofNat (totalGas outcomes))

/-- The transaction that had outcomes. -/
def response (hash : String) (limit : UInt64) (outcomes : List Outcome) : TxResponse where
  txHash := hash
  gasWanted := limit
  gasUsed := UInt64.ofNat (totalGas outcomes)
  logs := outcomes.zipIdx.map fun (o, i) => ⟨UInt32.ofNat i, o.events⟩
  data := outcomes.map Outcome.data

/-- Sends messages in one transaction. -/
def broadcast (c : Chain) (msgs : List Msg) (options : TxOptions) :
    Except ChainFault TxResponse × Chain :=
  let c := { c with limits := c.limits ++ [options.gasLimit] }
  let hash := txHash c.limits.length
  match c.ledger.run c.rules msgs with
  | .error why => (.error (.rejected why.message (some hash) none), c)
  | .ok (outcomes, ledger) =>
    let used := totalGas outcomes
    if options.gasLimit.toNat < used then
      (.error (.rejected (Refusal.outOfGas options.gasLimit used).message (some hash)
        (some options.gasLimit)), c)
    else
      (.ok (response hash options.gasLimit outcomes),
        { c with ledger, uploads := c.uploads + msgs.countP Msg.isUpload })

/-- Answers a call on the service. -/
def partner : Partner service Chain
  | .chainId, c => (.ok c.rules.chainId, c)
  | .simulate msgs, c => (c.simulate msgs, c)
  | .broadcast msgs options, c => c.broadcast msgs options
  | .codeHash codeId, c =>
    (match c.ledger.code codeId with
      | .ok code => .ok code.hash
      | .error why => .error (.query why.message), c)
  | .query contract codeHash query, c =>
    (match c.ledger.query c.rules contract codeHash query with
      | .ok answer => .ok answer
      | .error why => .error (.query why.message), c)

end Chain

end Handover
