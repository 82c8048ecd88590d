import Handover.Fault
import Handover.Ledger.Basic
import Handover.Text.Quoted

/-!
# Refusals

Why the chain refuses a transaction or a query. A refused transaction leaves no trace.
-/

namespace Handover

/-- Why something was refused. -/
inductive Refusal where
  | uploadsOff
  | unknownContract
  | sendsOff (sender : String) (amount : List Coin)
  | noCode (codeId : UInt64)
  | noContract (address : String)
  | codeHashMismatch (codeId : UInt64)
  | contractHashMismatch (address : String)
  /-- A message that is none of the type. -/
  | badMessage (type : String)
  | notDealer (address : String)
  | notCollection (address : String)
  | unavailable (mode : Mode)
  | badPermit (why : SigningFault)
  | permitForOtherChain (permitChain chainId : String)
  | permitOutOfScope (contract : String) (allowedTokens : List String)
  | unknownSigner
  | notAdmin
  | alreadyMigrated
  | notChildCode (codeId : UInt64) (codeHash : String)
  | notOneCoin (count : Nat)
  | denomNotAllowed (denom : String)
  | wrongPrice (price sent : Coin)
  | notMinter
  | noToken (id : String)
  | notOwner (id : String)
  | nothingToImport (address : String)
  | notImportAdmin (source : String)
  | notViewer (viewer owner : String)
  | inMessage (index : Nat) (why : Refusal)
  | outOfGas (wanted : UInt64) (used : Nat)
  | simulationsOff
  deriving DecidableEq, Repr

namespace Refusal

/-- A coin as it is shown in a refusal. -/
def coinText (c : Coin) : String :=
  "Coin \x7b amount: " ++ toString c.amount.val ++ ", denom: " ++ Text.quoted c.denom ++ " \x7d"

/-- The wording of a refusal. -/
def message : Refusal → String
  | uploadsOff => "insufficient fees; got: 0uscrt required: 150000uscrt"
  | unknownContract => "Wasm validation failed: not a known contract"
  | sendsOff sender amount =>
    sender ++ " cannot send " ++ Text.bracketed (amount.map coinText) ++
      ": insufficient funds"
  | noCode codeId => "code id " ++ toString codeId ++ ": not found"
  | noContract address => "contract " ++ address ++ ": not found"
  | codeHashMismatch codeId => "code hash mismatch for code id " ++ toString codeId
  | contractHashMismatch address => "code hash mismatch for " ++ address
  | badMessage type => "Error parsing into type " ++ type ++ ": unexpected message"
  | notDealer address => address ++ " is not a snip721 dealer"
  | notCollection address => address ++ " is not a snip721 contract"
  | unavailable mode => "Not available in contact mode: " ++ mode.name
  | badPermit why =>
    "Failed to verify signatures for the given permit: " ++ (Fault.signing why).message
  | permitForOtherChain permitChain chainId =>
    "Permit is for chain " ++ permitChain ++ ", not " ++ chainId
  | permitOutOfScope contract allowedTokens =>
    "Permit doesn't apply to token " ++ Text.quoted contract ++ ", allowed tokens: " ++
      Text.bracketed (allowedTokens.map Text.quoted)
  | unknownSigner => "Permit signer has no account on chain"
  | notAdmin => "Only the admins permit is allowed to initiate migration!"
  | alreadyMigrated => "The contract has already been migrated!"
  | notChildCode codeId codeHash =>
    "code id " ++ toString codeId ++ " is not the snip721 with hash " ++ codeHash
  | notOneCoin count =>
    "Purchase requires one coin denom to be sent with transaction, " ++ toString count ++
      " were sent."
  | denomNotAllowed denom => "Purchasing in denom:" ++ denom ++ " is not allowed"
  | wrongPrice price sent =>
    "Purchase price in " ++ price.denom ++ " is " ++ toString price.amount.val ++ ", but " ++
      toString sent.amount.val ++ " was sent"
  | notMinter => "Only designated minters are allowed to mint"
  | noToken id => "Token ID: " ++ id ++ " not found"
  | notOwner id => "Not authorized to transfer token " ++ id
  | nothingToImport address => address ++ " has nothing to migrate from"
  | notImportAdmin source =>
    "This contract's admin must complete migrating contract data from Addr(" ++
      Text.quoted source ++ ")"
  | notViewer viewer owner => viewer ++ " is not authorized to view tokens of " ++ owner
  | inMessage index why =>
    "failed to execute message; message index: " ++ toString index ++ ": " ++ why.message
  | outOfGas wanted used =>
    "out of gas; gasWanted: " ++ toString wanted ++ ", gasUsed: " ++ toString used ++
      ": out of gas"
  | simulationsOff => "simulation unavailable"

end Refusal

end Handover
